import Reachability.Proofs.Simulation.Machines

namespace Reachability

namespace Dict

variable {κ γ : Type} [Ord κ] [Std.TransOrd κ] [Std.LawfulEqOrd κ]

theorem get?_filter (d : Dict κ γ) (p : κ → γ → Bool) (k : κ) :
    (d.filter p).get? k = (d.get? k).filter (p k) := by
  apply Option.ext
  intro v
  rw [← mem_entries_iff, Option.filter_eq_some_iff, ← mem_entries_iff]
  exact List.mem_filter

theorem get?_filter_of_kept (d : Dict κ γ) {p : κ → γ → Bool} {k : κ} (h : ∀ v, p k v = true) :
    (d.filter p).get? k = d.get? k := by
  rw [get?_filter, funext h]
  cases d.get? k <;> rfl

theorem get?_filter_of_dropped (d : Dict κ γ) {p : κ → γ → Bool} {k : κ}
    (h : ∀ v, p k v = false) : (d.filter p).get? k = none := by
  rw [get?_filter, funext h]
  cases d.get? k <;> rfl

theorem get?_filter_of_none {d : Dict κ γ} {k : κ} (h : d.get? k = none) (p : κ → γ → Bool) :
    (d.filter p).get? k = none := by
  rw [get?_filter, h]
  rfl

end Dict

namespace Simulation

open Manifest (Kind Object)
open Reachability.Topology (Item Side)

/-- The place is that of a namespace, or in it. -/
def Place.Within (ns : String) (p : Place) : Prop :=
  if p.kind = .space then p.key.name = ns else p.key.space = ns

theorem Place.within_keyIn {kind : Kind} {ns name : String} (h : kind = .space → name = ns) :
    Place.Within ns ⟨kind, kind.keyIn ns name⟩ := by
  unfold Within Kind.keyIn
  split
  next hkind => exact h hkind
  next => rfl

namespace Store

/-- There is neither the namespace nor anything in it. -/
structure Lacks (ns : String) (s : Store) : Prop where
  objects (p : Place) (h : p.Within ns) : s.objects.get? p = none
  pods (key : ObjectKey) (h : key.space = ns) : s.pods.get? key = none

/-- Outside the namespace, the stores hold the same. -/
structure SameOutside (ns : String) (s s' : Store) : Prop where
  objects (p : Place) (h : ¬ p.Within ns) : s'.objects.get? p = s.objects.get? p
  pods (key : ObjectKey) (h : key.space ≠ ns) : s'.pods.get? key = s.pods.get? key

/-- All that the second store holds is in the first. -/
structure Shrinks (s s' : Store) : Prop where
  objects (p : Place) (h : s.objects.get? p = none) : s'.objects.get? p = none
  pods (key : ObjectKey) (h : s.pods.get? key = none) : s'.pods.get? key = none

variable {ns : String} {s s' s'' : Store}

theorem SameOutside.refl (ns : String) (s : Store) : s.SameOutside ns s :=
  ⟨fun _ _ => rfl, fun _ _ => rfl⟩

theorem SameOutside.trans (h : s.SameOutside ns s') (h' : s'.SameOutside ns s'') :
    s.SameOutside ns s'' :=
  ⟨fun p hp => (h'.objects p hp).trans (h.objects p hp),
    fun key hkey => (h'.pods key hkey).trans (h.pods key hkey)⟩

theorem Shrinks.lacks (h : s.Shrinks s') (hs : s.Lacks ns) : s'.Lacks ns :=
  ⟨fun p hp => h.objects p (hs.objects p hp), fun key hkey => h.pods key (hs.pods key hkey)⟩

theorem lacks_iff {s : Store} : s.Lacks ns ↔
    (∀ e ∈ s.objects.entries, ¬ e.1.Within ns) ∧ ∀ e ∈ s.pods.entries, e.1.space ≠ ns := by
  constructor
  · intro h
    refine ⟨fun e he hwithin => ?_, fun e he hspace => ?_⟩
    · have hnone := h.objects e.1 hwithin
      rw [Dict.mem_entries_iff.1 he] at hnone
      cases hnone
    · have hnone := h.pods e.1 hspace
      rw [Dict.mem_entries_iff.1 he] at hnone
      cases hnone
  · rintro ⟨hobjects, hpods⟩
    refine ⟨fun p hp => ?_, fun key hkey => ?_⟩
    · refine Option.eq_none_iff_forall_ne_some.2 fun o ho => ?_
      exact hobjects (p, o) (Dict.mem_entries_iff.2 ho) hp
    · refine Option.eq_none_iff_forall_ne_some.2 fun pod hpod => ?_
      exact hpods (key, pod) (Dict.mem_entries_iff.2 hpod) hkey

instance (ns : String) (p : Place) : Decidable (p.Within ns) := by
  unfold Place.Within
  infer_instance

instance (ns : String) (s : Store) : Decidable (s.Lacks ns) := decidable_of_iff' _ lacks_iff

/-- Two stores without the namespace that hold the same outside of it hold the same. -/
theorem SameOutside.eq_of_lacks (h : s.SameOutside ns s') (hs : s.Lacks ns) (hs' : s'.Lacks ns) :
    s'.objects = s.objects ∧ s'.pods = s.pods := by
  constructor
  · apply Dict.ext_get?
    intro p
    by_cases hp : p.Within ns
    · rw [hs.objects p hp, hs'.objects p hp]
    · exact h.objects p hp
  · apply Dict.ext_get?
    intro key
    by_cases hkey : key.space = ns
    · rw [hs.pods key hkey, hs'.pods key hkey]
    · exact h.pods key hkey

theorem get?_pods_spawn_of_ne {owner : String} {template : Manifest.PodTemplate} {node : Node}
    {key : ObjectKey} (hkey : key.space ≠ ns) :
    (s.spawn ns owner template node).pods.get? key = s.pods.get? key := by
  refine (Dict.get?_insert ..).trans (if_neg fun heq => hkey ?_)
  exact congrArg ObjectKey.space (Std.LawfulEqCmp.eq_of_compare heq)

theorem get?_pods_foldl_spawn {γ : Type} {f : Store → γ → Store} {key : ObjectKey}
    (hf : ∀ s a, (f s a).pods.get? key = s.pods.get? key) (l : List γ) (s : Store) :
    (l.foldl f s).pods.get? key = s.pods.get? key := by
  induction l generalizing s with
  | nil => rfl
  | cons a l ih => rw [List.foldl_cons, ih, hf]

/-- Pods are made in the namespace of their workload. -/
theorem get?_pods_added_of_ne (s : Store) (o : Object) {key : ObjectKey} (hkey : key.space ≠ ns) :
    (s.added ns o).pods.get? key = s.pods.get? key := by
  cases o with
  | deployment d =>
    exact get?_pods_foldl_spawn (fun _ _ => get?_pods_spawn_of_ne hkey) _ _
  | daemonSet d =>
    exact get?_pods_foldl_spawn (fun _ _ => get?_pods_spawn_of_ne hkey) _ _
  | _ => rfl

/-- A namespace is made without pods. -/
theorem pods_added_space (s : Store) (ns : String) {o : Object} (h : o.kind = .space) :
    (s.added ns o).pods = s.pods := by
  cases o <;> first | rfl | cases h

theorem sameOutside_createIn (s : Store) {o : Object} (ho : o.kind = .space → o.name = ns) :
    s.SameOutside ns (s.createIn ns o) := by
  cases hthere : s.objects.contains (place ns o) with
  | true =>
    rw [createIn_of_contains hthere]
    exact .refl ns s
  | false =>
    constructor
    · intro p hp
      rw [createIn_objects_of_not_contains hthere]
      refine get?_added_of_ne s _ o (fun heq => hp ?_) fun hkind heq => hp ?_
      · rw [heq, newPlace_keyIn]
        exact Place.within_keyIn ho
      · simp [heq, Place.Within, Kind.keyIn, hkind]
    · intro key hkey
      have hpods : (s.createIn ns o).pods = (s.added (o.kind.keyIn ns o.name).space o).pods := by
        rw [← newPlace_keyIn] at hthere
        unfold createIn create
        exact congrArg (fun r : Store × Except Failure Unit => r.1.pods)
          (if_neg (Bool.eq_false_iff.1 hthere))
      rw [hpods]
      by_cases hspace : o.kind = .space
      · rw [pods_added_space s _ hspace]
      · refine get?_pods_added_of_ne s o ?_
        simpa [Kind.keyIn, hspace] using hkey

theorem sameOutside_createAll {objects : List Object}
    (hobjects : ∀ o ∈ objects, o.kind = .space → o.name = ns) (s : Store) :
    s.SameOutside ns (s.createAll ns objects) := by
  induction objects generalizing s with
  | nil => exact .refl ns s
  | cons o objects ih =>
    obtain ⟨ho, hobjects⟩ := List.forall_mem_cons.1 hobjects
    exact (s.sameOutside_createIn ho).trans (ih hobjects _)

/-- An item is made in the namespace, or is the namespace. -/
theorem sameOutside_ensure {item : Item} (hitem : item.kind = .space → item.name = ns) (s : Store) :
    s.SameOutside ns (s.ensure ns item) := by
  unfold ensure
  split
  · exact .refl ns s
  · refine sameOutside_createAll (fun o ho hspace => ?_) s
    obtain ⟨hname, hkind | ⟨hkind, _⟩⟩ := Item.of_mem_objects ho
    · rw [hname]
      exact hitem (hkind.symm.trans hspace)
    · cases hspace.symm.trans hkind

/-- Things are removed from a namespace, all of them if the namespace itself is. -/
structure Removes (ns : String) (s s' : Store) : Prop where
  outside : s.SameOutside ns s'
  shrinks : s.Shrinks s'
  whole (h : s'.has .space ⟨"", ns⟩ = false) : s.has .space ⟨"", ns⟩ = false ∨ s'.Lacks ns

theorem Removes.of_eq (hobjects : s'.objects = s.objects) (hpods : s'.pods = s.pods) :
    s.Removes ns s' where
  outside := ⟨fun _ _ => by rw [hobjects], fun _ _ => by rw [hpods]⟩
  shrinks := ⟨fun _ h => by rwa [hobjects], fun _ h => by rwa [hpods]⟩
  whole h := by
    rw [has, hobjects] at h
    exact .inl h

/-- What is gone stays gone. -/
theorem Removes.gone (h : s.Removes ns s') (hgone : s.has .space ⟨"", ns⟩ = false) :
    s'.has .space ⟨"", ns⟩ = false := by
  rw [has, Dict.contains, Option.isSome_eq_false_iff, Option.isNone_iff_eq_none] at hgone ⊢
  exact h.shrinks.objects _ hgone

theorem withoutSpace_removes (s : Store) (ns : String) : s.Removes ns (s.withoutSpace ns) := by
  have hwithin (p : Place) :
      (if p.kind = .space then p.key.name != ns else p.key.space != ns) = true ↔
        ¬ p.Within ns := by
    unfold Place.Within
    split <;> simp
  have houtside : s.SameOutside ns (s.withoutSpace ns) :=
    ⟨fun p hp => Dict.get?_filter_of_kept _ fun _ => (hwithin p).2 hp,
      fun key hkey => Dict.get?_filter_of_kept _ fun _ => bne_iff_ne.2 hkey⟩
  have hlacks : (s.withoutSpace ns).Lacks ns :=
    ⟨fun p hp => Dict.get?_filter_of_dropped _ fun _ =>
        Bool.eq_false_iff.2 (mt (hwithin p).1 (not_not_intro hp)),
      fun key hkey => Dict.get?_filter_of_dropped _ fun _ => bne_eq_false_iff_eq.2 hkey⟩
  exact ⟨houtside, ⟨fun _ hp => Dict.get?_filter_of_none hp _,
    fun _ hkey => Dict.get?_filter_of_none hkey _⟩, fun _ => .inr hlacks⟩

theorem withoutPodsOf_removes (s : Store) (ns owner : String) :
    s.Removes ns (s.withoutPodsOf ns owner) := by
  refine ⟨⟨fun _ _ => rfl, fun key hkey => Dict.get?_filter_of_kept _ fun _ => ?_⟩,
    ⟨fun _ h => h, fun _ hkey => Dict.get?_filter_of_none hkey _⟩, .inl⟩
  rw [beq_false_of_ne hkey]
  rfl

theorem erase_removes (s : Store) {kind : Kind} (hkind : kind ≠ .space) (ns name : String) :
    s.Removes ns { s with objects := s.objects.erase ⟨kind, ⟨ns, name⟩⟩ } := by
  have hobjects (p : Place) : (s.objects.erase ⟨kind, ⟨ns, name⟩⟩).get? p =
      if ⟨kind, ⟨ns, name⟩⟩ = p then none else s.objects.get? p := by
    rw [Dict.get?_erase]
    simp only [Std.LawfulEqCmp.compare_eq_iff_eq]
  refine ⟨⟨fun p hp => ?_, fun _ _ => rfl⟩, ⟨fun p hp => ?_, fun _ h => h⟩, fun h => .inl ?_⟩
  · refine (hobjects p).trans (if_neg ?_)
    rintro rfl
    exact hp (by simp [Place.Within, hkind])
  · exact (hobjects p).trans (by rw [hp, ite_self])
  · rw [has, Dict.contains, hobjects, if_neg fun heq => hkind (congrArg Place.kind heq)] at h
    exact h

theorem Removes.trans (h : s.Removes ns s') (h' : s'.Removes ns s'') : s.Removes ns s'' where
  outside := h.outside.trans h'.outside
  shrinks := ⟨fun p hp => h'.shrinks.objects p (h.shrinks.objects p hp),
    fun key hkey => h'.shrinks.pods key (h.shrinks.pods key hkey)⟩
  whole hgone := by
    rcases h'.whole hgone with hgone' | hlacks
    · exact (h.whole hgone').imp_right h'.shrinks.lacks
    · exact .inr hlacks

/-- Whatever stood there, nothing is left of it. -/
theorem get?_delete (s : Store) {kind : Kind} (hkind : kind ≠ .space) (key : ObjectKey) :
    (s.delete kind key).1.objects.get? ⟨kind, key⟩ = none := by
  unfold delete
  rw [if_neg hkind]
  split
  · have herased : (s.objects.erase ⟨kind, key⟩).get? ⟨kind, key⟩ = none := by
      rw [Dict.get?_erase, if_pos Std.ReflCmp.compare_self]
    dsimp only
    split <;> exact herased
  next hmissing =>
    rw [has, Dict.contains, Bool.not_eq_true, Option.isSome_eq_false_iff] at hmissing
    exact Option.isNone_iff_eq_none.1 hmissing

/-- What stands elsewhere is not touched. -/
theorem get?_delete_of_ne (s : Store) {kind : Kind} (hkind : kind ≠ .space) {key : ObjectKey}
    {p : Place} (hp : p ≠ ⟨kind, key⟩) :
    (s.delete kind key).1.objects.get? p = s.objects.get? p := by
  unfold delete
  rw [if_neg hkind]
  split
  · have hkept : (s.objects.erase ⟨kind, key⟩).get? p = s.objects.get? p := by
      rw [Dict.get?_erase, if_neg fun heq => hp (Std.LawfulEqCmp.eq_of_compare heq).symm]
    dsimp only
    split <;> exact hkept
  · rfl

/-- A namespace is removed as a whole, or the deletion changes no object. -/
theorem objects_deleteSpace (s : Store) (ns : String) :
    (s.deleteSpace ns).1.objects = s.objects ∨
      (s.deleteSpace ns).1.objects = (s.withoutSpace ns).objects := by
  unfold deleteSpace
  dsimp only
  split
  · exact .inl rfl
  · split
    · exact .inr rfl
    · exact .inl rfl

/-- A deletion removes something from the namespace, or the namespace, or nothing. -/
theorem delete_removes (s : Store) {kind : Kind} {name : String}
    (hname : kind = .space → name = ns) : s.Removes ns (s.delete kind (kind.keyIn ns name)).1 := by
  unfold delete
  split
  next hkind =>
    obtain rfl := hname hkind
    rw [show (kind.keyIn name name).name = name from rfl]
    unfold deleteSpace
    dsimp only
    split
    · exact .of_eq rfl rfl
    · have hasked : s.Removes name { s with spaceDeletes := s.spaceDeletes + 1 } := .of_eq rfl rfl
      split
      · exact hasked.trans (withoutSpace_removes _ _)
      · exact hasked
  next hkind =>
    have hkey : kind.keyIn ns name = ⟨ns, name⟩ := by simp [Kind.keyIn, hkind]
    rw [hkey]
    split
    · have herase := s.erase_removes hkind ns name
      dsimp only
      split
      · exact herase.trans (withoutPodsOf_removes _ _ _)
      · exact herase
    · exact .of_eq rfl rfl

/-- Nothing stands in the namespace without the namespace itself, and nothing outside of it has
changed. -/
structure Orderly (ns : String) (s s' : Store) : Prop where
  outside : s.SameOutside ns s'
  inside (h : s'.has .space ⟨"", ns⟩ = false) : s'.Lacks ns

theorem Lacks.orderly (h : s.Lacks ns) : s.Orderly ns s := ⟨.refl ns s, fun _ => h⟩

theorem Orderly.removes (h : s.Orderly ns s') (h' : s'.Removes ns s'') : s.Orderly ns s'' where
  outside := h.outside.trans h'.outside
  inside hgone := (h'.whole hgone).elim (fun hgone' => h'.shrinks.lacks (h.inside hgone')) id

end Store

/-- On every machine, the stores before and after are related. -/
structure Across (R : Store → Store → Prop) (machines machines' : List Machine) : Prop where
  length_eq : machines'.length = machines.length
  related {id : Nat} {m m' : Machine} (hm : machines[id]? = some m)
    (hm' : machines'[id]? = some m') : R m.store m'.store

namespace Across

variable {R R' R'' : Store → Store → Prop} {machines machines' machines'' : List Machine}

theorem refl (h : ∀ m ∈ machines, R m.store m.store) : Across R machines machines where
  length_eq := rfl
  related hm hm' := by
    obtain rfl := Option.some.inj (hm.symm.trans hm')
    exact h _ (List.mem_of_getElem? hm)

theorem comp (h : Across R machines machines') (h' : Across R' machines' machines'')
    (hcomp : ∀ s s' s'', R s s' → R' s' s'' → R'' s s'') : Across R'' machines machines'' where
  length_eq := h'.length_eq.trans h.length_eq
  related {id m m''} hm hm'' := by
    have hlt : id < machines'.length := by
      rw [h.length_eq]
      exact (List.getElem?_eq_some_iff.1 hm).1
    have hm' := List.getElem?_eq_getElem hlt
    exact hcomp _ _ _ (h.related hm hm') (h'.related hm' hm'')

theorem updateStore (hrefl : ∀ s, R s s) {f : Store → Store}
    (hf : ∀ s, R s (f s)) (machines : List Machine) (id : Nat) :
    Across R machines (updateStore machines id f) where
  length_eq := length_updateStore
  related hm hm' := by
    rw [getElem?_updateStore, hm] at hm'
    obtain rfl := Option.some.inj hm'
    split
    · exact hf _
    · exact hrefl _

end Across

/-- Steps that are about the namespace, or about things in it. -/
def Inside (ns : String) (steps : List (Side × Item)) : Prop :=
  ∀ step ∈ steps, step.2.kind = .space → step.2.name = ns

/-- On every cluster that the steps are about, the namespace is made. -/
def Opens (clients : Clients) (ns : String) (steps : List (Side × Item)) : Prop :=
  ∀ step ∈ steps, ∃ side, (clients.get side).id = (clients.get step.1).id ∧
    (side, .space ns) ∈ steps

theorem plan_inside (settings : Settings) (features : FeatureSet) (zone : String) :
    Inside settings.testNamespace (Topology.plan settings features zone).steps :=
  fun _ hstep => Topology.plan_space_name settings features zone hstep

/-- A run between clusters makes its namespace on each of them that it has plans for, and any other
run on its only cluster. -/
theorem plan_opens_everywhere (clients : Clients) (settings : Settings) (features : FeatureSet)
    (zone : String)
    (hclients : settings.isMultiCluster = false → clients.source = clients.destination) :
    Opens clients settings.testNamespace (Topology.plan settings features zone).steps := by
  intro step hstep
  cases hmulti : settings.isMultiCluster with
  | true => exact ⟨step.1, rfl, Topology.plan_opens settings features zone hmulti hstep⟩
  | false =>
    obtain ⟨rest, hsteps⟩ := Topology.plan_steps_eq_cons settings features zone
    refine ⟨.source, ?_, hsteps ▸ List.mem_cons_self⟩
    cases step.1 with
    | source => rfl
    | destination => exact congrArg Cluster.id (hclients hmulti)

section Steps

variable {clients : Clients} {ns : String} {steps : List (Side × Item)}
  {machines initial : List Machine}

theorem ensureAll_sameOutside (h : Inside ns steps) (machines : List Machine) :
    Across (Store.SameOutside ns) machines (ensureAll clients ns steps machines) := by
  induction steps generalizing machines with
  | nil => exact .refl fun m _ => .refl ns m.store
  | cons step steps ih =>
    obtain ⟨hstep, hsteps⟩ := List.forall_mem_cons.1 h
    have hfirst : Across (Store.SameOutside ns) machines (ensureOn clients ns step machines) :=
      .updateStore (.refl ns) (Store.sameOutside_ensure hstep) _ _
    exact hfirst.comp (ih hsteps _) fun _ _ _ => .trans

/-- What no step is about stays as it is. -/
theorem getElem?_ensureAll_of_ne {id : Nat} (h : ∀ step ∈ steps, (clients.get step.1).id ≠ id)
    (machines : List Machine) : (ensureAll clients ns steps machines)[id]? = machines[id]? := by
  induction steps generalizing machines with
  | nil => rfl
  | cons step steps ih =>
    obtain ⟨hstep, hsteps⟩ := List.forall_mem_cons.1 h
    have hfirst : (ensureOn clients ns step machines)[id]? = machines[id]? := by
      simp [ensureOn, getElem?_updateStore, hstep]
    exact (ih hsteps _).trans hfirst

/-- A plan leaves nothing in its namespace without the namespace. -/
theorem ensureAll_orderly (hinside : Inside ns steps) (hopens : Opens clients ns steps)
    (h : Across (Store.Orderly ns) initial machines) :
    Across (Store.Orderly ns) initial (ensureAll clients ns steps machines) where
  length_eq := (ensureAll_sameOutside hinside machines).length_eq.trans h.length_eq
  related {id m m''} hm hm'' := by
    have hsame : Across (Store.SameOutside ns) machines (ensureAll clients ns steps machines) :=
      ensureAll_sameOutside hinside machines
    have hlt : id < machines.length := by
      rw [h.length_eq]
      exact (List.getElem?_eq_some_iff.1 hm).1
    have hm' := List.getElem?_eq_getElem hlt
    have horderly := h.related hm hm'
    refine ⟨horderly.outside.trans (hsame.related hm' hm''), fun hgone => ?_⟩
    by_cases hstep : ∃ step ∈ steps, (clients.get step.1).id = id
    · -- The namespace has been made here, so it is there.
      obtain ⟨step, hstep, rfl⟩ := hstep
      obtain ⟨side, hside, hspace⟩ := hopens step hstep
      have hsettled : SettledOn clients ns (side, .space ns)
          (ensureAll clients ns steps machines) := settledOn_ensureAll hspace
      have hthere := (hsettled m'' (hside ▸ hm'')).contains
      exact absurd hthere (Bool.eq_false_iff.1 hgone)
    · have huntouched : (ensureAll clients ns steps machines)[id]? = machines[id]? :=
        getElem?_ensureAll_of_ne (fun step hmem heq => hstep ⟨step, hmem, heq⟩) machines
      obtain rfl := Option.some.inj (hm'.symm.trans (huntouched.symm.trans hm''))
      exact horderly.inside hgone

end Steps

end Simulation

end Reachability
