import Reachability.Proofs.Cluster.Standstill
import Reachability.Proofs.Teardown.Completion

namespace Reachability

open Manifest (Kind Object)
open Reachability.Topology (Item Plan Side)
open Simulation

variable {σ : Standstill} {clients : Clients} {ns : String} {machines : List Machine}
  {i : Inventory}

/-- The store after some deletions of a teardown. -/
def Simulation.Store.deleteAll (ns : String) (subjects : List (Kind × String)) (s : Store) :
    Store :=
  subjects.foldl (fun s subject => (s.delete subject.1 (subject.1.keyIn ns subject.2)).1) s

/-- The store after a teardown. -/
def Simulation.Store.tornDown (ns : String) (s : Store) : Store := s.deleteAll ns (everything ns)

theorem passDeletion_yields (hquiet : Quiet machines) (cluster : Cluster)
    (subject : Kind × String) :
    (passDeletion cluster ns subject).Yields σ machines fun _ machines' =>
      machines' = (answered machines (deletionOf cluster ns subject)).1 := by
  refine .bind (.attempt hquiet _ (deletionOf cluster ns subject)) ?_
  rintro _ _ ⟨-, rfl⟩
  exact .pure rfl

theorem deletions_yields (hquiet : Quiet machines) (cluster : Cluster)
    (subjects : List (Kind × String)) :
    (deletions cluster ns subjects).Yields σ machines fun _ machines' =>
      machines' = updateStore machines cluster.id (Store.deleteAll ns subjects) := by
  induction subjects generalizing machines with
  | nil => exact .pure (updateStore_eq_self fun _ _ => rfl).symm
  | cons subject subjects ih =>
    refine .bind (passDeletion_yields hquiet cluster subject) ?_
    rintro _ _ rfl
    rw [answered_fst]
    refine (ih (rules_updateStore hquiet)).mono ?_
    rintro _ _ rfl
    exact updateStore_updateStore

theorem Simulation.Store.rejections_deleteAll {s : Store} (h : s.rejections = 0)
    {subjects : List (Kind × String)} (hsubjects : subjects ⊆ everything ns) :
    (s.deleteAll ns subjects).rejections = 0 := by
  induction subjects generalizing s with
  | nil => exact h
  | cons subject subjects ih =>
    obtain ⟨hsubject, hsubjects⟩ := List.cons_subset.1 hsubjects
    have htears : (Request.delete subject.1 (subject.1.keyIn ns subject.2)).TearsDown ns :=
      ⟨subject.2, rfl, space_of_mem_everything hsubject⟩
    exact ih (Nat.le_zero.1 (h ▸ s.rejections_answer_le htears ⟨"", ""⟩)) hsubjects

/-- Where no deletion is rejected, the namespace goes at once. -/
theorem Simulation.Store.has_tornDown {s : Store} (h : s.rejections = 0) (ns : String) :
    (s.tornDown ns).has .space ⟨"", ns⟩ = false := by
  have hlast : s.tornDown ns = ((s.deleteAll ns everyObject).delete .space ⟨"", ns⟩).1 :=
    List.foldl_append
  have hrejections : (s.deleteAll ns everyObject).rejections = 0 :=
    rejections_deleteAll h (List.subset_append_left _ _)
  rw [hlast, delete, if_pos rfl]
  exact (deleteSpace_progress _ ns).resolve_right (by lia)

theorem awaitGone_yields (hquiet : Quiet machines) {cluster : Cluster} {machine : Machine}
    (hmachine : machines[cluster.id]? = some machine)
    (hgone : machine.store.has .space ⟨"", ns⟩ = false) :
    (awaitGone cluster ns).Yields σ machines fun _ machines' => machines' = machines := by
  have hanswered := answered_of_getElem? (c := spaceLookup cluster ns) hmachine
  have hsame : (answered machines (spaceLookup cluster ns)).1 = machines := by
    rw [hanswered]
    exact updateStore_eq_self (f := fun s => s) fun _ _ => rfl
  have hanswer : (answered machines (spaceLookup cluster ns)).2 =
      .error (.notFound Kind.space.label ns) := by
    rw [hanswered]
    exact (machine.store.get_space ns).trans (if_neg (Bool.eq_false_iff.1 hgone))
  refine .bind (.attempt hquiet "namespace lookup" (spaceLookup cluster ns)) ?_
  rintro _ _ ⟨rfl, rfl⟩
  rw [hanswer, hsame]
  exact .pure rfl

theorem teardown_yields (hquiet : Quiet machines) {cluster : Cluster} {machine : Machine}
    (hmachine : machines[cluster.id]? = some machine) (hrejections : machine.store.rejections = 0) :
    (teardown cluster ns).Yields σ machines fun _ machines' =>
      machines' = updateStore machines cluster.id (Store.tornDown ns) := by
  have hdeletions : (deletions cluster ns (everything ns)).Yields σ machines fun _ machines' =>
      machines' = updateStore machines cluster.id (Store.tornDown ns) :=
    deletions_yields hquiet cluster _
  rw [teardown_eq]
  refine .bind hdeletions ?_
  rintro _ _ rfl
  obtain ⟨machine', hmachine', hstore⟩ : ∃ machine',
      (updateStore machines cluster.id (Store.tornDown ns))[cluster.id]? = some machine' ∧
        machine'.store = machine.store.tornDown ns := by
    simp [getElem?_updateStore, hmachine]
  refine awaitGone_yields (rules_updateStore hquiet) hmachine' ?_
  rw [hstore]
  exact Store.has_tornDown hrejections ns

/-- The service that the ingress of a plan will have may have been noted down, and nothing else. -/
structure Inventory.Expects (steps : List (Side × Item)) (i : Inventory) : Prop where
  nothingElse : i = { ingressServices := i.ingressServices }
  service {name : String} (h : i.ingressServices.contains name = true) :
    name = Topology.ingressServiceName Topology.ingressName ∧ ∃ side, (side, .ingress) ∈ steps

theorem Inventory.Expects.empty (steps : List (Side × Item)) : (∅ : Inventory).Expects steps :=
  ⟨rfl, nofun⟩

/-- The service of a new ingress is noted down. -/
theorem Inventory.Expects.record {steps : List (Side × Item)} (h : i.Expects steps) {side : Side}
    (hside : (side, .ingress) ∈ steps) :
    Inventory.Expects steps
      { i with
        ingressServices := i.ingressServices.insert
          Manifest.ingressServicePlaceholder.metadata.title
          Manifest.ingressServicePlaceholder } where
  nothingElse := by
    rw [h.nothingElse]
  service {name} hname := by
    rw [Dict.contains, Dict.get?_insert] at hname
    split at hname
    next heq => exact ⟨Std.LawfulEqCmp.eq_of_compare heq, side, hside⟩
    next => exact h.service hname

theorem createObject_yields (hready : Ready clients machines) (side : Side) (o : Object) :
    (createObject (clients.get side) ns o).Yields σ i machines fun _ i' machines' =>
      i' = i ∧ machines' = updateStore machines (clients.get side).id (Store.createIn ns · o) := by
  obtain ⟨hmachines, hcreated⟩ := answered_creation ns (hready.there side) o
  refine .bind (.check (.attempt hready.quiet _ ⟨clients.get side, o.creation ns⟩)) ?_
  rintro _ _ _ ⟨⟨rfl, rfl⟩, rfl⟩
  refine (Survey.Yields.ofExcept hcreated).mono ?_
  rintro _ _ _ ⟨-, rfl, rfl⟩
  exact ⟨rfl, hmachines⟩

theorem creations_yields (hready : Ready clients machines) (side : Side) (objects : List Object) :
    (objects.forM (createObject (clients.get side) ns)).Yields σ i machines fun _ i' machines' =>
      i' = i ∧ machines' =
        updateStore machines (clients.get side).id (Store.createAll ns objects) := by
  induction objects generalizing machines with
  | nil => exact .pure ⟨rfl, (updateStore_eq_self fun _ _ => rfl).symm⟩
  | cons o objects ih =>
    refine .bind (createObject_yields hready side o) ?_
    rintro _ _ _ ⟨rfl, rfl⟩
    refine (ih (hready.updateStore _ _)).mono ?_
    rintro _ _ _ ⟨rfl, rfl⟩
    exact ⟨rfl, updateStore_updateStore⟩

theorem make_yields {steps : List (Side × Item)} (hready : Ready clients machines) {side : Side}
    {item : Item} (hstep : (side, item) ∈ steps) (hi : i.Expects steps) :
    (make (clients.get side) ns item).Yields σ i machines fun _ i' machines' =>
      i'.Expects steps ∧ machines' =
        updateStore machines (clients.get side).id (Store.createAll ns item.objects) := by
  refine .bind (creations_yields hready side item.objects) ?_
  rintro _ _ _ ⟨rfl, rfl⟩
  split
  next hingress =>
    refine (Survey.Yields.record _).mono ?_
    rintro _ _ _ ⟨rfl, rfl⟩
    exact ⟨hi.record (hingress ▸ hstep), rfl⟩
  next => exact .pure ⟨hi, rfl⟩

theorem ensure_yields {steps : List (Side × Item)} (hready : Ready clients machines) {side : Side}
    {item : Item} (hstep : (side, item) ∈ steps) (hi : i.Expects steps) :
    (ensure (clients.get side) ns item).Yields σ i machines fun _ i' machines' =>
      i'.Expects steps ∧ machines' = ensureOn clients ns (side, item) machines := by
  have hthere := hready.there side
  have hm := List.getElem?_eq_getElem hthere
  obtain ⟨hmachines, hlookup⟩ := answered_lookup ns hthere item
  have habsent : absent (answered machines ⟨clients.get side, item.lookup ns⟩).2 =
      .ok (!(machines[(clients.get side).id].store.get item.kind
        (item.kind.keyIn ns item.name)).isOk) := by
    rw [hlookup]
    exact Store.absent_get _ _ _
  refine .bind (.check (.attempt hready.quiet _ ⟨clients.get side, item.lookup ns⟩)) ?_
  rintro _ _ _ ⟨⟨rfl, rfl⟩, rfl⟩
  refine .bind (.ofExcept habsent) ?_
  rintro _ _ _ ⟨rfl, rfl, rfl⟩
  rw [hmachines]
  have hensure : ensureOn clients ns (side, item) machines =
      updateStore machines (clients.get side).id fun s =>
        if (machines[(clients.get side).id].store.get item.kind
          (item.kind.keyIn ns item.name)).isOk then s else s.createAll ns item.objects := by
    refine updateStore_congr fun m hm' => ?_
    obtain rfl := Option.some.inj (hm.symm.trans hm')
    rfl
  rw [hensure]
  cases (machines[(clients.get side).id].store.get item.kind
      (item.kind.keyIn ns item.name)).isOk with
  | true => exact .pure ⟨hi, (updateStore_eq_self fun _ _ => rfl).symm⟩
  | false => exact make_yields hready hstep hi

theorem takeSteps_yields {all steps : List (Side × Item)} (hready : Ready clients machines)
    (hsteps : steps ⊆ all) (hi : i.Expects all) :
    (takeSteps clients ns steps).Yields σ i machines fun _ i' machines' =>
      i'.Expects all ∧ machines' = ensureAll clients ns steps machines := by
  induction steps generalizing i machines with
  | nil => exact .pure ⟨hi, rfl⟩
  | cons step steps ih =>
    obtain ⟨hstep, hsteps⟩ := List.cons_subset.1 hsteps
    refine .bind (ensure_yields hready hstep hi) ?_
    rintro _ _ _ ⟨hi', rfl⟩
    exact ih (hready.updateStore _ _) hsteps hi'

theorem chooseZone_yields (hready : Ready clients machines) (settings : Settings) :
    (chooseZone clients settings).Yields σ i machines fun zone i' machines' =>
      zone = simulatedZone settings ∧ i' = i ∧ machines' = machines := by
  unfold chooseZone simulatedZone
  cases settings.performance with
  | false => exact .pure ⟨rfl, rfl, rfl⟩
  | true =>
    obtain ⟨hmachines, nodes, hnodes, hzone⟩ := answered_listNodes (hready.there .source)
    refine .bind (.check (.request (c := ⟨clients.source, .listNodes⟩) hready.quiet hnodes)) ?_
    rintro _ _ _ ⟨⟨rfl, rfl⟩, rfl⟩
    exact .pure ⟨hzone, rfl, hmachines⟩

/-- The plan is carried out. -/
theorem provision_yields (hready : Ready clients machines) (settings : Settings)
    (features : FeatureSet) :
    (provision clients settings features).Yields σ ∅ machines fun _ i' machines' =>
      i'.Expects (simulatedPlan settings features).steps ∧
        machines' = ensureAll clients settings.testNamespace
          (simulatedPlan settings features).steps machines := by
  refine .bind (chooseZone_yields hready settings) ?_
  rintro _ _ _ ⟨rfl, rfl, rfl⟩
  refine .bind (takeSteps_yields hready (fun _ h => h) (.empty _)) ?_
  rintro _ _ _ ⟨hi, rfl⟩
  exact .pure ⟨hi, rfl⟩

end Reachability
