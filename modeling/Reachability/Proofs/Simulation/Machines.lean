import Reachability.Proofs.Simulation.Creation
import Reachability.Simulation.World

namespace Reachability.Simulation

open Manifest (Object)
open Reachability.Topology (Item Side)

/-- The machines after a change to the store of one of them. -/
def updateStore (machines : List Machine) (id : Nat) (f : Store → Store) : List Machine :=
  machines.modify id fun m => { m with store := f m.store }

section UpdateStore

variable {machines : List Machine} {id : Nat} {f g : Store → Store}

theorem getElem?_updateStore (machines : List Machine) (id : Nat) (f : Store → Store) (j : Nat) :
    (updateStore machines id f)[j]? =
      (machines[j]?).map fun m => if id = j then { m with store := f m.store } else m := by
  rw [updateStore, List.getElem?_modify]
  rfl

theorem updateStore_congr (h : ∀ m, machines[id]? = some m → f m.store = g m.store) :
    updateStore machines id f = updateStore machines id g := by
  apply List.ext_getElem?
  intro j
  rw [getElem?_updateStore, getElem?_updateStore]
  cases hm : machines[j]? with
  | none => rfl
  | some m =>
    by_cases hj : id = j
    · subst hj
      simp [h m hm]
    · simp [hj]

theorem updateStore_eq_self (h : ∀ m, machines[id]? = some m → f m.store = m.store) :
    updateStore machines id f = machines := by
  rw [updateStore_congr (g := fun s => s) h]
  apply List.ext_getElem?
  intro j
  rw [getElem?_updateStore]
  cases machines[j]? <;> simp

theorem updateStore_updateStore :
    updateStore (updateStore machines id f) id g = updateStore machines id fun s => g (f s) := by
  rw [updateStore, updateStore, List.modify_modify_eq]
  rfl

theorem set_eq_updateStore {m : Machine} {id : Nat} (hm : machines[id]? = some m)
    (f : Store → Store) : machines.set id { m with store := f m.store } =
      updateStore machines id f := by
  obtain ⟨hlt, rfl⟩ := List.getElem?_eq_some_iff.1 hm
  apply List.ext_getElem?
  intro j
  rw [getElem?_updateStore, List.getElem?_set]
  by_cases hj : id = j
  · subst hj
    simp [hlt]
  · simp [hj]

theorem rules_updateStore (hrules : ∀ m ∈ machines, m.rules = []) :
    ∀ m ∈ updateStore machines id f, m.rules = [] := by
  intro m hm
  obtain ⟨j, hj⟩ := List.mem_iff_getElem?.1 hm
  rw [getElem?_updateStore] at hj
  obtain ⟨m₀, hm₀, rfl⟩ := Option.map_eq_some_iff.1 hj
  have hm₀ := hrules m₀ (List.mem_of_getElem? hm₀)
  split <;> exact hm₀

@[simp] theorem length_updateStore : (updateStore machines id f).length = machines.length :=
  List.length_modify _ _ _

end UpdateStore

/-- On every machine, every object stays as it is, except for services published for new
ingresses. -/
structure PreservesAll (ns : String) (machines machines' : List Machine) : Prop where
  length_eq : machines'.length = machines.length
  preserves : ∀ (id : Nat) m m', machines[id]? = some m → machines'[id]? = some m' →
    m.store.Preserves ns m'.store

namespace PreservesAll

variable {ns : String} {machines machines' machines'' : List Machine}

theorem refl (ns : String) (machines : List Machine) : PreservesAll ns machines machines where
  length_eq := rfl
  preserves id m m' hm hm' := by
    obtain rfl := Option.some.inj (hm.symm.trans hm')
    exact .refl ns m.store

theorem trans (h : PreservesAll ns machines machines') (h' : PreservesAll ns machines' machines'') :
    PreservesAll ns machines machines'' where
  length_eq := h'.length_eq.trans h.length_eq
  preserves id m m'' hm hm'' := by
    have hlt : id < machines'.length := by
      rw [h.length_eq]
      exact (List.getElem?_eq_some_iff.1 hm).1
    have hm' := List.getElem?_eq_getElem hlt
    exact (h.preserves id m _ hm hm').trans (h'.preserves id _ m'' hm' hm'')

theorem updateStore {id : Nat} {f : Store → Store} (hf : ∀ s : Store, s.Preserves ns (f s)) :
    PreservesAll ns machines (updateStore machines id f) where
  length_eq := length_updateStore
  preserves j m m' hm hm' := by
    rw [getElem?_updateStore, hm] at hm'
    obtain rfl := Option.some.inj hm'
    split
    · exact hf m.store
    · exact .refl ns m.store

end PreservesAll

variable (clients : Clients) (ns : String)

/-- The machines after one step of a plan. -/
def ensureOn (step : Side × Item) (machines : List Machine) : List Machine :=
  updateStore machines (clients.get step.1).id (Store.ensure ns step.2)

/-- The machines after all steps of a plan. -/
def ensureAll (steps : List (Side × Item)) (machines : List Machine) : List Machine :=
  steps.foldl (fun machines step => ensureOn clients ns step machines) machines

/-- There is nothing left to do for a step. -/
def SettledOn (step : Side × Item) (machines : List Machine) : Prop :=
  ∀ m, machines[(clients.get step.1).id]? = some m → m.store.Settled ns step.2

/-- The item of a step is missing. -/
def MissingOn (step : Side × Item) (machines : List Machine) : Prop :=
  ∀ m, machines[(clients.get step.1).id]? = some m →
    (m.store.get step.2.kind (step.2.kind.keyIn ns step.2.name)).isOk = false

/-- How far a plan may have got when it is given up: up to some step, and if its item is missing,
through some of the creations for it. -/
inductive Partway : List (Side × Item) → List Machine → List Machine → Prop where
  | stop {steps machines} : Partway steps machines machines
  | creating {step steps machines} (k : Nat) (hmissing : MissingOn clients ns step machines) :
      Partway (step :: steps) machines
        (updateStore machines (clients.get step.1).id (Store.createAll ns (step.2.objects.take k)))
  | next {step steps machines machines'}
      (hrest : Partway steps (ensureOn clients ns step machines) machines') :
      Partway (step :: steps) machines machines'

variable {clients ns} {step : Side × Item} {steps : List (Side × Item)}
  {machines machines' : List Machine}

theorem preservesAll_ensureOn : PreservesAll ns machines (ensureOn clients ns step machines) :=
  .updateStore fun s => s.preserves_ensure ns step.2

theorem preservesAll_ensureAll :
    PreservesAll ns machines (ensureAll clients ns steps machines) := by
  induction steps generalizing machines with
  | nil => exact .refl ns machines
  | cons step steps ih => exact preservesAll_ensureOn.trans ih

theorem settledOn_ensureOn : SettledOn clients ns step (ensureOn clients ns step machines) := by
  intro m hm
  rw [ensureOn, getElem?_updateStore] at hm
  obtain ⟨m₀, _, rfl⟩ := Option.map_eq_some_iff.1 hm
  rw [if_pos rfl]
  exact Store.settled_ensure ns step.2 m₀.store

theorem SettledOn.preserves (h : SettledOn clients ns step machines)
    (hpreserves : PreservesAll ns machines machines') : SettledOn clients ns step machines' := by
  intro m' hm'
  have hlt : (clients.get step.1).id < machines.length := by
    rw [← hpreserves.length_eq]
    exact (List.getElem?_eq_some_iff.1 hm').1
  have hm := List.getElem?_eq_getElem hlt
  exact (h _ hm).preserves (hpreserves.preserves _ _ m' hm hm')

theorem SettledOn.ensureOn_eq (h : SettledOn clients ns step machines) :
    ensureOn clients ns step machines = machines :=
  updateStore_eq_self fun m hm => (h m hm).ensure_eq

/-- After a plan, there is nothing left to do for any of its steps. -/
theorem settledOn_ensureAll (hstep : step ∈ steps) :
    SettledOn clients ns step (ensureAll clients ns steps machines) := by
  induction steps generalizing machines with
  | nil => cases hstep
  | cons first steps ih =>
    rcases List.mem_cons.1 hstep with rfl | hstep
    · exact settledOn_ensureOn.preserves preservesAll_ensureAll
    · exact ih hstep

theorem Partway.complete :
    Partway clients ns steps machines (ensureAll clients ns steps machines) := by
  induction steps generalizing machines with
  | nil => exact .stop
  | cons step steps ih => exact .next ih

theorem Partway.preservesAll (h : Partway clients ns steps machines machines') :
    PreservesAll ns machines machines' := by
  induction h with
  | stop => exact .refl ns _
  | creating k hmissing =>
    refine .updateStore fun s => .createAll s fun o ho => ?_
    exact Store.ingress_name_of_mem_objects (List.mem_of_mem_take ho)
  | next _ ih => exact preservesAll_ensureOn.trans ih

/-- A plan that was given up is carried out in the end as if it had not been begun. -/
theorem Partway.ensureAll_eq (h : Partway clients ns steps machines machines') :
    ensureAll clients ns steps machines' = ensureAll clients ns steps machines := by
  induction h with
  | stop => rfl
  | @creating step steps machines k hmissing =>
    have hstep : ensureOn clients ns step
        (updateStore machines (clients.get step.1).id
          (Store.createAll ns (step.2.objects.take k))) = ensureOn clients ns step machines := by
      rw [ensureOn, updateStore_updateStore]
      exact updateStore_congr fun m hm => Store.ensure_createAll_take k (hmissing m hm)
    simp only [ensureAll, List.foldl_cons, hstep]
  | @next step steps machines machines' hrest ih =>
    have hsettled := settledOn_ensureOn.preserves hrest.preservesAll
    simp only [ensureAll, List.foldl_cons, hsettled.ensureOn_eq] at ih ⊢
    exact ih

end Reachability.Simulation
