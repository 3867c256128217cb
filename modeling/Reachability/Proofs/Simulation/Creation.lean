import Reachability.Proofs.Topology.Plan
import Reachability.Provision
import Reachability.Simulation.Store

namespace Reachability.Simulation

open Manifest (Kind Object)
open Reachability.Topology (Item)

/-- Where an object of a namespace stands. -/
def place (ns : String) (o : Object) : Place := ⟨o.kind, o.kind.keyIn ns o.name⟩

/-- Where the ingress of a run stands, and the service that is published for it. -/
def ingressPlace (ns : String) : Place := ⟨.ingress, ⟨ns, Topology.ingressName⟩⟩

def publishedPlace (ns : String) : Place :=
  ⟨.service, ⟨ns, Topology.ingressServiceName Topology.ingressName⟩⟩

namespace Store

/-- The store after a request for a new object. -/
def createIn (ns : String) (s : Store) (o : Object) : Store :=
  (s.create (o.kind.keyIn ns o.name).space o).1

/-- The store after requests for all of some objects. -/
def createAll (ns : String) (objects : List Object) (s : Store) : Store :=
  objects.foldl (createIn ns) s

theorem foldl_objects {γ : Type} {f : Store → γ → Store}
    (hf : ∀ s a, (f s a).objects = s.objects) (l : List γ) (s : Store) :
    (l.foldl f s).objects = s.objects := by
  induction l generalizing s with
  | nil => rfl
  | cons a l ih => rw [List.foldl_cons, ih, hf]

/-- Where a request puts a new object. -/
def newPlace (ns : String) (o : Object) : Place :=
  ⟨o.kind, ⟨if o.kind = .space then "" else ns, o.name⟩⟩

theorem newPlace_keyIn (ns : String) (o : Object) :
    newPlace (o.kind.keyIn ns o.name).space o = place ns o := by
  unfold newPlace place Kind.keyIn
  split <;> rfl

/-- A new object is stored in some form. With an ingress comes a service. -/
theorem objects_added (s : Store) (ns : String) (o : Object) : ∃ stored published,
    (s.added ns o).objects =
      if o.kind = .ingress then
        (s.objects.insert (newPlace ns o) stored).insert
          ⟨.service, ⟨ns, Topology.ingressServiceName o.name⟩⟩ published
      else s.objects.insert (newPlace ns o) stored := by
  cases o with
  | deployment d =>
    refine ⟨.deployment (settled ns d), .deployment d, ?_⟩
    refine (foldl_objects ?_ _ _).trans rfl
    exact fun _ _ => rfl
  | daemonSet d =>
    refine ⟨.daemonSet d, .daemonSet d, ?_⟩
    refine (foldl_objects ?_ _ _).trans rfl
    exact fun _ _ => rfl
  | ingress i => exact ⟨_, _, rfl⟩
  | service service => exact ⟨_, .service service, rfl⟩
  | configMap c => exact ⟨_, .configMap c, rfl⟩
  | space m | serviceAccount m => exact ⟨_, .space m, rfl⟩

theorem get?_insert_place (d : Dict Place Object) (p q : Place) (o : Object) :
    (d.insert p o).get? q = if q = p then some o else d.get? q := by
  rw [Dict.get?_insert]
  simp only [Std.LawfulEqCmp.compare_eq_iff_eq]

/-- What stands elsewhere is not touched, except for the service that comes with an ingress. -/
theorem get?_added_of_ne (s : Store) (ns : String) (o : Object) {q : Place}
    (hq : q ≠ newPlace ns o)
    (hservice : o.kind = .ingress → q ≠ ⟨.service, ⟨ns, Topology.ingressServiceName o.name⟩⟩) :
    (s.added ns o).objects.get? q = s.objects.get? q := by
  obtain ⟨stored, published, hobjects⟩ := s.objects_added ns o
  rw [hobjects]
  split
  next hingress => rw [get?_insert_place, if_neg (hservice hingress), get?_insert_place, if_neg hq]
  next => rw [get?_insert_place, if_neg hq]

theorem contains_added (s : Store) (ns : String) (o : Object) :
    (s.added ns o).objects.contains (newPlace ns o) = true := by
  obtain ⟨stored, published, hobjects⟩ := s.objects_added ns o
  rw [hobjects, Dict.contains]
  split
  · rw [get?_insert_place]
    split
    · rfl
    · rw [get?_insert_place, if_pos rfl]
      rfl
  · rw [get?_insert_place, if_pos rfl]
    rfl

theorem contains_service_of_ingress (s : Store) (ns : String) {o : Object}
    (hingress : o.kind = .ingress) : (s.added ns o).objects.contains
      ⟨.service, ⟨ns, Topology.ingressServiceName o.name⟩⟩ = true := by
  obtain ⟨stored, published, hobjects⟩ := s.objects_added ns o
  rw [hobjects, if_pos hingress, Dict.contains, get?_insert_place, if_pos rfl]
  rfl

/-- A new object is made, unless it is there. -/
theorem created_create (s : Store) (ns : String) (o : Object) :
    created (s.create ns o).2 = .ok () := by
  by_cases h : s.has o.kind ⟨if o.kind = .space then "" else ns, o.name⟩ = true
  · simp only [create, h, if_true]
    rfl
  · simp only [create, h]
    rfl

/-- A request for an object that is there changes nothing. -/
theorem createIn_of_contains {ns : String} {s : Store} {o : Object}
    (h : s.objects.contains (place ns o) = true) : s.createIn ns o = s := by
  rw [← newPlace_keyIn] at h
  unfold createIn create
  exact congrArg Prod.fst (if_pos h)

theorem createIn_objects_of_not_contains {ns : String} {s : Store} {o : Object}
    (h : s.objects.contains (place ns o) = false) :
    (s.createIn ns o).objects = (s.added (o.kind.keyIn ns o.name).space o).objects := by
  rw [← newPlace_keyIn] at h
  unfold createIn create
  exact congrArg (fun r : Store × Except Failure Unit => r.1.objects)
    (if_neg (Bool.eq_false_iff.1 h))

theorem contains_createIn (ns : String) (s : Store) (o : Object) :
    (s.createIn ns o).objects.contains (place ns o) = true := by
  cases h : s.objects.contains (place ns o) with
  | true => rw [createIn_of_contains h, h]
  | false =>
    rw [createIn_objects_of_not_contains h, ← newPlace_keyIn]
    exact contains_added _ _ _

/-- Every object stays as it is, except for the service that is published for a new ingress. -/
def Preserves (ns : String) (s s' : Store) : Prop :=
  ∀ p o, s.objects.get? p = some o → s'.objects.get? p = some o ∨
    (p = publishedPlace ns ∧ s.objects.contains (ingressPlace ns) = false ∧
      s'.objects.contains (ingressPlace ns) = true ∧ s'.objects.contains p = true)

namespace Preserves

variable {ns : String} {s s' s'' : Store}

theorem refl (ns : String) (s : Store) : s.Preserves ns s := fun _ _ h => .inl h

theorem contains (h : s.Preserves ns s') {p : Place} (hp : s.objects.contains p = true) :
    s'.objects.contains p = true := by
  obtain ⟨o, ho⟩ := Option.isSome_iff_exists.1 hp
  rcases h p o ho with ho' | ⟨_, _, _, hp'⟩
  · exact Option.isSome_iff_exists.2 ⟨o, ho'⟩
  · exact hp'

theorem trans (h : s.Preserves ns s') (h' : s'.Preserves ns s'') : s.Preserves ns s'' := by
  intro p o ho
  rcases h p o ho with ho' | ⟨hp, hnew, hingress, hservice⟩
  · rcases h' p o ho' with ho'' | ⟨hp, hnew, hingress, hservice⟩
    · exact .inl ho''
    · refine .inr ⟨hp, ?_, hingress, hservice⟩
      rw [Bool.eq_false_iff] at hnew ⊢
      exact fun hold => hnew (h.contains hold)
  · exact .inr ⟨hp, hnew, h'.contains hingress, h'.contains hservice⟩

theorem createIn {o : Object} (hname : o.kind = .ingress → o.name = Topology.ingressName) :
    s.Preserves ns (s.createIn ns o) := by
  cases hthere : s.objects.contains (place ns o) with
  | true =>
    rw [createIn_of_contains hthere]
    exact refl ns s
  | false =>
    intro p o' ho'
    have hne : p ≠ newPlace (o.kind.keyIn ns o.name).space o := by
      rintro rfl
      rw [newPlace_keyIn] at ho'
      simp [Dict.contains, ho'] at hthere
    rw [createIn_objects_of_not_contains hthere]
    by_cases hservice : o.kind = .ingress ∧ p = publishedPlace ns
    · obtain ⟨hkind, rfl⟩ := hservice
      have hspace : (o.kind.keyIn ns o.name).space = ns := by simp [Kind.keyIn, hkind]
      have hplace : place ns o = ingressPlace ns := by
        simp [place, ingressPlace, Kind.keyIn, hkind, hname hkind]
      refine .inr ⟨rfl, hplace ▸ hthere, ?_, ?_⟩
      · rw [← hplace, ← newPlace_keyIn]
        exact contains_added _ _ _
      · have hpublished := contains_service_of_ingress s ns hkind
        rw [hname hkind] at hpublished
        rw [hspace]
        exact hpublished
    · left
      rw [get?_added_of_ne s _ o hne ?_, ho']
      intro hkind heq
      refine hservice ⟨hkind, ?_⟩
      rw [heq, hname hkind]
      simp [publishedPlace, Kind.keyIn, hkind]

end Preserves

theorem isOk_get_of_ne (s : Store) {kind : Kind} (key : ObjectKey) (h : kind ≠ .deployment) :
    (s.get kind key).isOk = s.objects.contains ⟨kind, key⟩ := by
  have hfound : (get.found s kind key).isOk = s.objects.contains ⟨kind, key⟩ := by
    unfold get.found
    split
    next hhas => exact Eq.symm hhas
    next hhas => exact (Bool.eq_false_iff.2 hhas).symm
  cases kind with
  | deployment => exact absurd rfl h
  | _ => exact hfound

theorem isOk_get_deployment (s : Store) (key : ObjectKey) :
    (s.get .deployment key).isOk = true ↔
      ∃ d, s.objects.get? ⟨.deployment, key⟩ = some (.deployment d) := by
  simp only [get]
  split
  next d hd => exact ⟨fun _ => ⟨d, hd⟩, fun _ => rfl⟩
  next hnone => exact ⟨fun h => (by cases h), fun ⟨d, hd⟩ => absurd hd (hnone d)⟩

theorem isNotFound_of_get {s : Store} {kind : Kind} {key : ObjectKey} {f : Failure}
    (h : s.get kind key = .error f) : f.isNotFound = true := by
  have hfound : ∀ kind, get.found s kind key = .error f → f.isNotFound = true := by
    intro kind h
    unfold get.found at h
    split at h <;> cases h
    rfl
  cases kind with
  | deployment =>
    simp only [get] at h
    split at h <;> cases h
    rfl
  | _ => exact hfound _ h

/-- Whether an object is missing can always be told. -/
theorem absent_get (s : Store) (kind : Kind) (key : ObjectKey) :
    absent (s.get kind key) = .ok !(s.get kind key).isOk := by
  cases h : s.get kind key with
  | ok found => rfl
  | error f => exact if_pos (isNotFound_of_get h)

theorem contains_of_isOk_get {s : Store} {kind : Kind} {key : ObjectKey}
    (h : (s.get kind key).isOk = true) : s.objects.contains ⟨kind, key⟩ = true := by
  by_cases hkind : kind = .deployment
  · subst hkind
    obtain ⟨d, hd⟩ := (s.isOk_get_deployment key).1 h
    simp [Dict.contains, hd]
  · rwa [isOk_get_of_ne s key hkind] at h

theorem Preserves.isOk_get {ns : String} {s s' : Store} (h : s.Preserves ns s') {kind : Kind}
    {key : ObjectKey} (hget : (s.get kind key).isOk = true) : (s'.get kind key).isOk = true := by
  by_cases hkind : kind = .deployment
  · subst hkind
    obtain ⟨d, hd⟩ := (s.isOk_get_deployment key).1 hget
    rcases h _ _ hd with hd' | ⟨hp, _⟩
    · exact (s'.isOk_get_deployment key).2 ⟨d, hd'⟩
    · cases hp
  · rw [isOk_get_of_ne _ key hkind] at hget ⊢
    exact h.contains hget

section CreateAll

variable {ns : String} {objects : List Object}

theorem createAll_append (ns : String) (objects objects' : List Object) (s : Store) :
    s.createAll ns (objects ++ objects') = (s.createAll ns objects).createAll ns objects' :=
  List.foldl_append

theorem Preserves.createAll (s : Store)
    (hname : ∀ o ∈ objects, o.kind = .ingress → o.name = Topology.ingressName) :
    s.Preserves ns (s.createAll ns objects) := by
  induction objects generalizing s with
  | nil => exact .refl ns s
  | cons o objects ih =>
    have hfirst : s.Preserves ns (s.createIn ns o) := .createIn (hname o List.mem_cons_self)
    exact hfirst.trans (ih _ fun o' ho' => hname o' (List.mem_cons_of_mem o ho'))

theorem contains_createAll (s : Store)
    (hname : ∀ o ∈ objects, o.kind = .ingress → o.name = Topology.ingressName) {o : Object}
    (ho : o ∈ objects) : (s.createAll ns objects).objects.contains (place ns o) = true := by
  induction objects generalizing s with
  | nil => cases ho
  | cons o' objects ih =>
    have hrest := fun o ho => hname o (List.mem_cons_of_mem o' ho)
    rcases List.mem_cons.1 ho with rfl | ho
    · exact (Preserves.createAll (s.createIn ns o) hrest).contains (contains_createIn ns s o)
    · exact ih _ hrest ho

/-- Requests for objects that are all there change nothing. -/
theorem createAll_of_contains {s : Store}
    (h : ∀ o ∈ objects, s.objects.contains (place ns o) = true) : s.createAll ns objects = s := by
  induction objects with
  | nil => rfl
  | cons o objects ih =>
    have hfirst : s.createIn ns o = s := createIn_of_contains (h o List.mem_cons_self)
    have hrest := ih fun o' ho' => h o' (List.mem_cons_of_mem o ho')
    unfold createAll at hrest ⊢
    rw [List.foldl_cons, hfirst, hrest]

/-- Creations that were cut short are made up for by repeating them all. -/
theorem createAll_createAll_take (s : Store)
    (hname : ∀ o ∈ objects, o.kind = .ingress → o.name = Topology.ingressName) (k : Nat) :
    (s.createAll ns (objects.take k)).createAll ns objects = s.createAll ns objects := by
  have htaken : ∀ o ∈ objects.take k,
      (s.createAll ns (objects.take k)).objects.contains (place ns o) = true :=
    fun o ho => contains_createAll s (fun o ho => hname o (List.mem_of_mem_take ho)) ho
  calc (s.createAll ns (objects.take k)).createAll ns objects
      = (s.createAll ns (objects.take k)).createAll ns (objects.take k ++ objects.drop k) := by
        rw [List.take_append_drop]
    _ = (s.createAll ns (objects.take k)).createAll ns (objects.drop k) := by
        rw [createAll_append, createAll_of_contains htaken]
    _ = s.createAll ns objects := by rw [← createAll_append, List.take_append_drop]

end CreateAll

/-- The store after an item has been made sure of. -/
def ensure (ns : String) (item : Item) (s : Store) : Store :=
  if (s.get item.kind (item.kind.keyIn ns item.name)).isOk then s
  else createAll ns item.objects s

/-- There is nothing left to create for an item. -/
def Settled (ns : String) (item : Item) (s : Store) : Prop :=
  (s.get item.kind (item.kind.keyIn ns item.name)).isOk = true ∨
    ∀ o ∈ item.objects, s.objects.contains (place ns o) = true

section Ensure

variable {ns : String} {item : Item} {s s' : Store}

theorem ingress_name_of_mem_objects {o : Object} (ho : o ∈ item.objects)
    (hkind : o.kind = .ingress) : o.name = Topology.ingressName := by
  obtain ⟨hname, hitem | ⟨hother, _⟩⟩ := Item.of_mem_objects ho
  · rw [hname]
    rw [hkind] at hitem
    cases item <;> first | rfl | cases hitem
  · rw [hkind] at hother
    cases hother

theorem preserves_ensure (ns : String) (item : Item) (s : Store) :
    s.Preserves ns (s.ensure ns item) := by
  unfold ensure
  split
  · exact .refl ns s
  · exact .createAll s fun _ => ingress_name_of_mem_objects

theorem settled_ensure (ns : String) (item : Item) (s : Store) :
    (s.ensure ns item).Settled ns item := by
  unfold ensure
  split
  next h => exact .inl h
  next => exact .inr fun _ => contains_createAll s fun _ => ingress_name_of_mem_objects

theorem Settled.ensure_eq (h : s.Settled ns item) : s.ensure ns item = s := by
  unfold ensure
  split
  next => rfl
  next hmissing => exact createAll_of_contains (h.resolve_left hmissing)

theorem Settled.preserves (h : s.Settled ns item) (hs : s.Preserves ns s') :
    s'.Settled ns item :=
  h.imp (fun hget => hs.isOk_get hget) fun hall o ho => hs.contains (hall o ho)

/-- An item that has been made sure of is there. -/
theorem Settled.contains (h : s.Settled ns item) :
    s.objects.contains ⟨item.kind, item.kind.keyIn ns item.name⟩ = true := by
  rcases h with hget | hall
  · exact contains_of_isOk_get hget
  · cases item with
    | deployment w => exact hall _ (List.mem_cons_of_mem _ List.mem_cons_self)
    | _ => exact hall _ List.mem_cons_self

/-- A service account does not hide that its deployment is missing. -/
theorem isOk_get_createIn_serviceAccount (ns name : String) (s : Store) (key : ObjectKey) :
    ((s.createIn ns (Manifest.serviceAccount name)).get .deployment key).isOk =
      (s.get .deployment key).isOk := by
  cases hthere : s.objects.contains (place ns (Manifest.serviceAccount name)) with
  | true => rw [createIn_of_contains hthere]
  | false =>
    have hsame : (s.createIn ns (Manifest.serviceAccount name)).objects.get? ⟨.deployment, key⟩ =
        s.objects.get? ⟨.deployment, key⟩ := by
      rw [createIn_objects_of_not_contains hthere]
      refine get?_added_of_ne s _ _ (fun h => ?_) (fun h => ?_)
      · cases congrArg Place.kind h
      · cases h
    rw [Bool.eq_iff_iff, isOk_get_deployment, isOk_get_deployment, hsame]

/-- An item whose creation was cut short is made sure of as if it had not been begun. -/
theorem ensure_createAll_take (k : Nat)
    (hmissing : (s.get item.kind (item.kind.keyIn ns item.name)).isOk = false) :
    (s.createAll ns (item.objects.take k)).ensure ns item = s.ensure ns item := by
  have hwhole : s.ensure ns item = s.createAll ns item.objects := by
    simp only [ensure, hmissing, Bool.false_eq_true, if_false]
  have hall : ∀ n, item.objects.length ≤ n →
      (s.createAll ns (item.objects.take n)).ensure ns item = s.ensure ns item := by
    intro n hn
    rw [List.take_of_length_le hn, ← hwhole]
    exact (settled_ensure ns item s).ensure_eq
  have hpart : ∀ n, ((s.createAll ns (item.objects.take n)).get item.kind
      (item.kind.keyIn ns item.name)).isOk = false →
      (s.createAll ns (item.objects.take n)).ensure ns item = s.ensure ns item := by
    intro n hn
    rw [hwhole, ← createAll_createAll_take s (fun _ => ingress_name_of_mem_objects) n]
    simp only [ensure, hn, Bool.false_eq_true, if_false]
  match item, k with
  | _, 0 => exact hpart 0 hmissing
  | .deployment w, 1 =>
    refine hpart 1 ?_
    exact (isOk_get_createIn_serviceAccount ns w.name s _).trans hmissing
  | .deployment w, k + 2 => exact hall (k + 2) (Nat.le_add_left 2 k)
  | .space name, k + 1 | .dnsConfigMap, k + 1 | .service d, k + 1 | .daemonSet w, k + 1
  | .ingress, k + 1 => exact hall (k + 1) (Nat.le_add_left 1 k)

end Ensure

end Store

end Reachability.Simulation
