import Reachability.Proofs.Provision.Transcript
import Reachability.Proofs.Wait.Turns

namespace Reachability

open Manifest (Kind Object)
open Reachability.Topology (Item Side)
open Wait (Server)

/-- An object that a plan may ask for. -/
def Manifest.Object.IsPlanned (o : Object) : Prop := ∃ item : Item, o ∈ item.objects

/-- The item can be found on the cluster. -/
def Finds (server : Server clusterApi) (ns : String) (s : server.State) (cluster : Cluster)
    (item : Item) : Prop :=
  (server.answer s ⟨cluster, item.lookup ns⟩).2.isOk = true

instance (server : Server clusterApi) (ns : String) (s : server.State) (cluster : Cluster)
    (item : Item) : Decidable (Finds server ns s cluster item) :=
  inferInstanceAs (Decidable (_ = true))

/-- Objects are stored under their kinds and names: they are found there, and made unless they are
there. `there` says what is stored. -/
structure Keyed (server : Server clusterApi) (ns : String)
    (there : server.State → Cluster → Kind → String → Prop) : Prop where
  /-- A look-up changes nothing. -/
  lookup_state (s : server.State) (cluster : Cluster) (item : Item) :
    (server.answer s ⟨cluster, item.lookup ns⟩).1 = s
  /-- A look-up fails only because there is nothing to be found. -/
  lookup_error {s : server.State} {cluster : Cluster} {item : Item} {f : Failure}
    (h : (server.answer s ⟨cluster, item.lookup ns⟩).2 = .error f) : f.isNotFound = true
  /-- What is there is not made again. -/
  creation_there {s : server.State} {cluster : Cluster} {o : Object} (ho : o.IsPlanned)
    (h : there s cluster o.kind o.name) : (server.answer s ⟨cluster, o.creation ns⟩).1 = s ∧
      ∃ f, (server.answer s ⟨cluster, o.creation ns⟩).2 = .error f ∧ f.isAlreadyExists = true
  /-- What is not there is made. -/
  creation_new {s : server.State} {cluster : Cluster} {o : Object} (ho : o.IsPlanned)
    (h : ¬ there s cluster o.kind o.name) :
    (server.answer s ⟨cluster, o.creation ns⟩).2 = .ok () ∧
      there (server.answer s ⟨cluster, o.creation ns⟩).1 cluster o.kind o.name
  /-- What is there stays there. -/
  there_creation {s : server.State} {cluster cluster' : Cluster} {kind : Kind} {name : String}
    {o : Object} (ho : o.IsPlanned) (h : there s cluster' kind name) :
    there (server.answer s ⟨cluster, o.creation ns⟩).1 cluster' kind name
  /-- What can be found can still be found. -/
  finds_creation {s : server.State} {cluster cluster' : Cluster} {item : Item} {o : Object}
    (ho : o.IsPlanned) (h : Finds server ns s cluster' item) :
    Finds server ns (server.answer s ⟨cluster, o.creation ns⟩).1 cluster' item
  /-- A deployment is not found for its service account. -/
  finds_account {s : server.State} {cluster : Cluster} {w : Topology.Workload}
    (h : Finds server ns (server.answer s
      ⟨cluster, (Manifest.serviceAccount w.name).creation ns⟩).1 cluster (.deployment w)) :
    Finds server ns s cluster (.deployment w)

/-- Wherever the nodes of a cluster are listed, the same zone is chosen. -/
def ListsZone (server : Server clusterApi) (cluster : Cluster) (zone : String) : Prop :=
  ∀ s, ∃ nodes : List Manifest.Node,
    server.answer s ⟨cluster, .listNodes⟩ = (s, .ok nodes) ∧ Topology.selectZone nodes = zone

/-- The state after a request for an object on a cluster. -/
def makeOn (server : Server clusterApi) (ns : String) (s : server.State) (x : Cluster × Object) :
    server.State :=
  (server.answer s ⟨x.1, x.2.creation ns⟩).1

/-- The state after requests for all of some objects. -/
def makeAllOn (server : Server clusterApi) (ns : String) (s : server.State)
    (objects : List (Cluster × Object)) : server.State :=
  objects.foldl (makeOn server ns) s

/-- The state after requests for the first `k` of some objects. -/
def ascent (server : Server clusterApi) (ns : String) (initial : server.State)
    (objects : List (Cluster × Object)) (k : Nat) : server.State :=
  makeAllOn server ns initial (objects.take k)

/-- The objects of an item, for a cluster. -/
def objectsOn (cluster : Cluster) (item : Item) : List (Cluster × Object) :=
  item.objects.map fun o => (cluster, o)

/-- All objects of a plan, in order. -/
def plannedObjects (clients : Clients) (steps : List (Side × Item)) : List (Cluster × Object) :=
  steps.flatMap fun (side, item) => objectsOn (clients.get side) item

/-- What there is to make for an item. -/
def missing (server : Server clusterApi) (ns : String) (s : server.State) (cluster : Cluster)
    (item : Item) : List (Cluster × Object) :=
  if Finds server ns s cluster item then [] else objectsOn cluster item

/-- What there is to make for the steps of a plan, in order. -/
def needed (server : Server clusterApi) (clients : Clients) (ns : String) :
    List (Side × Item) → server.State → List (Cluster × Object)
  | [], _ => []
  | (side, item) :: steps, s =>
    let first := missing server ns s (clients.get side) item
    first ++ needed server clients ns steps (makeAllOn server ns s first)

variable {server : Server clusterApi} {ns : String}
  {there : server.State → Cluster → Kind → String → Prop} {initial : server.State}

theorem makeAllOn_append (s : server.State) (objects objects' : List (Cluster × Object)) :
    makeAllOn server ns s (objects ++ objects') =
      makeAllOn server ns (makeAllOn server ns s objects) objects' :=
  List.foldl_append

theorem missing_sublist (s : server.State) (cluster : Cluster) (item : Item) :
    (missing server ns s cluster item).Sublist (objectsOn cluster item) := by
  unfold missing
  split
  · exact List.nil_sublist _
  · exact List.Sublist.refl _

/-- Nothing is made that is not planned, and all in the order of the plan. -/
theorem needed_sublist (clients : Clients) (steps : List (Side × Item)) (s : server.State) :
    (needed server clients ns steps s).Sublist (plannedObjects clients steps) := by
  induction steps generalizing s with
  | nil => exact List.Sublist.refl _
  | cons step steps ih =>
    obtain ⟨side, item⟩ := step
    exact (missing_sublist s _ item).append (ih _)

theorem isPlanned_of_mem {clients : Clients} {steps : List (Side × Item)} {x : Cluster × Object}
    (hx : x ∈ plannedObjects clients steps) : x.2.IsPlanned := by
  obtain ⟨⟨side, item⟩, -, hx⟩ := List.mem_flatMap.1 hx
  obtain ⟨o, ho, rfl⟩ := List.mem_map.1 hx
  exact ⟨item, ho⟩

section Ascent

variable {objects : List (Cluster × Object)} {j k q : Nat}

theorem ascent_succ {x : Cluster × Object} (hx : objects[q]? = some x) :
    ascent server ns initial objects (q + 1) =
      makeOn server ns (ascent server ns initial objects q) x := by
  unfold ascent
  rw [List.take_add_one, makeAllOn_append, hx]
  rfl

theorem ascent_succ_of_none (hq : objects[q]? = none) :
    ascent server ns initial objects (q + 1) = ascent server ns initial objects q := by
  unfold ascent
  rw [List.take_add_one, hq, Option.toList_none, List.append_nil]

theorem ascent_of_length_le (hk : objects.length ≤ k) :
    ascent server ns initial objects k = makeAllOn server ns initial objects := by
  unfold ascent
  rw [List.take_of_length_le hk]

/-- Beyond a first part, the places are those of the rest. -/
theorem ascent_append (pre rest : List (Cluster × Object)) (k : Nat) :
    ascent server ns initial (pre ++ rest) (pre.length + k) =
      ascent server ns (makeAllOn server ns initial pre) rest k := by
  unfold ascent
  rw [List.take_length_add_append, makeAllOn_append]

/-- What creations keep holds from some place on. -/
theorem ascent_keeps (P : server.State → Prop) (hplanned : ∀ x ∈ objects, x.2.IsPlanned)
    (hkeeps : ∀ s (x : Cluster × Object), x.2.IsPlanned → P s → P (makeOn server ns s x))
    (hle : j ≤ k) (h : P (ascent server ns initial objects j)) :
    P (ascent server ns initial objects k) := by
  induction hle with
  | refl => exact h
  | @step k _ ih =>
    cases hx : objects[k]? with
    | none =>
      rw [Nat.succ_eq_add_one, ascent_succ_of_none hx]
      exact ih
    | some x =>
      rw [Nat.succ_eq_add_one, ascent_succ hx]
      exact hkeeps _ x (hplanned x (List.mem_of_getElem? hx)) ih

namespace Keyed

variable (h : Keyed server ns there)
include h

/-- After a request for it an object is there, whether it was there before or not. -/
theorem there_makeOn (s : server.State) {x : Cluster × Object} (hx : x.2.IsPlanned) :
    there (makeOn server ns s x) x.1 x.2.kind x.2.name := by
  by_cases hthere : there s x.1 x.2.kind x.2.name
  · rw [makeOn, (h.creation_there hx hthere).1]
    exact hthere
  · exact (h.creation_new hx hthere).2

/-- A request for an object is not taken for a failure. -/
theorem created_creation (s : server.State) (cluster : Cluster) {o : Object} (ho : o.IsPlanned) :
    created (server.answer s ⟨cluster, o.creation ns⟩).2 = .ok () := by
  by_cases hthere : there s cluster o.kind o.name
  · obtain ⟨-, f, hf, hexists⟩ := h.creation_there ho hthere
    rw [hf]
    exact if_pos hexists
  · rw [(h.creation_new ho hthere).1]
    rfl

theorem there_ascent (hplanned : ∀ x ∈ objects, x.2.IsPlanned) {x : Cluster × Object}
    (hx : objects[q]? = some x) (hq : q < k) :
    there (ascent server ns initial objects k) x.1 x.2.kind x.2.name := by
  have hmade : there (ascent server ns initial objects (q + 1)) x.1 x.2.kind x.2.name := by
    rw [ascent_succ hx]
    exact h.there_makeOn _ (hplanned x (List.mem_of_getElem? hx))
  exact ascent_keeps (there · x.1 x.2.kind x.2.name) hplanned
    (fun _ _ => h.there_creation) hq hmade

theorem finds_ascent (hplanned : ∀ x ∈ objects, x.2.IsPlanned) {cluster : Cluster} {item : Item}
    (hle : j ≤ k) (hfinds : Finds server ns (ascent server ns initial objects j) cluster item) :
    Finds server ns (ascent server ns initial objects k) cluster item :=
  ascent_keeps (Finds server ns · cluster item) hplanned (fun _ _ => h.finds_creation) hle hfinds

/-- An item is not found before all of its objects have been made. -/
theorem finds_of_part {s : server.State} {cluster : Cluster} {item : Item}
    {rest : List (Cluster × Object)} (hk : k < item.objects.length)
    (hfinds : Finds server ns
      (ascent server ns s (objectsOn cluster item ++ rest) k) cluster item) :
    Finds server ns s cluster item := by
  match item, k with
  | _, 0 => exact hfinds
  | .deployment w, 1 => exact h.finds_account hfinds
  | .deployment w, k + 2 =>
    simp only [Item.objects, List.length_cons, List.length_nil] at hk
    omega
  | .space name, k + 1 | .dnsConfigMap, k + 1 | .service d, k + 1 | .daemonSet w, k + 1
  | .ingress, k + 1 =>
    simp only [Item.objects, List.length_cons, List.length_nil] at hk
    omega

end Keyed

end Ascent

/-- What a call has made. -/
def newlyMade : (c : Call) → Except Failure c.request.Answer → List (Cluster × Object)
  | ⟨cluster, .create _ o⟩, .ok _ => [(cluster, o)]
  | _, _ => []

/-- The clusters with a record of what has been made, in order. -/
abbrev Wait.Server.recorded (server : Server clusterApi) : Server clusterApi where
  State := server.State × List (Cluster × Object)
  answer s c :=
    let next := server.answer s.1 c
    ((next.1, s.2 ++ newlyMade c next.2), next.2)

/-- What an object is told apart by. -/
def keyOn (x : Cluster × Object) : Cluster × Kind × String := (x.1, x.2.kind, x.2.name)

theorem recorded_lookup (s : server.State) (made : List (Cluster × Object)) (cluster : Cluster)
    (item : Item) : server.recorded.answer (s, made) ⟨cluster, item.lookup ns⟩ =
      (((server.answer s ⟨cluster, item.lookup ns⟩).1, made),
        (server.answer s ⟨cluster, item.lookup ns⟩).2) := by
  simp [Server.recorded, newlyMade, Item.lookup]

theorem newlyMade_creation (ns : String) (x : Cluster × Object)
    (answer : Except Failure (x.2.creation ns).Answer) :
    newlyMade ⟨x.1, x.2.creation ns⟩ answer = if answer.isOk then [x] else [] := by
  cases answer <;> rfl

theorem makeOn_recorded (s : server.State) (made : List (Cluster × Object))
    (x : Cluster × Object) : makeOn server.recorded ns (s, made) x =
      (makeOn server ns s x,
        made ++ if (server.answer s ⟨x.1, x.2.creation ns⟩).2.isOk then [x] else []) := by
  have hmade := newlyMade_creation ns x (server.answer s ⟨x.1, x.2.creation ns⟩).2
  exact Prod.ext rfl (congrArg (made ++ ·) hmade)

namespace Keyed

variable (h : Keyed server ns there)
include h

theorem recorded : Keyed server.recorded ns fun s => there s.1 where
  lookup_state := by
    rintro ⟨s, made⟩ cluster item
    rw [recorded_lookup, h.lookup_state]
  lookup_error herror := h.lookup_error herror
  creation_there := by
    rintro ⟨s, made⟩ cluster o ho hthere
    obtain ⟨hstate, f, hf, hexists⟩ := h.creation_there ho hthere
    refine ⟨(makeOn_recorded s made (cluster, o)).trans ?_, f, hf, hexists⟩
    rw [makeOn, hstate, hf]
    simp [Except.isOk, Except.toBool]
  creation_new ho hthere := h.creation_new ho hthere
  there_creation ho hthere := h.there_creation ho hthere
  finds_creation ho hfinds := h.finds_creation ho hfinds
  finds_account hfinds := h.finds_account hfinds

/-- A request changes nothing, or makes an object that was not there. -/
theorem makeOn_recorded_cases (s : server.State) (made : List (Cluster × Object))
    {x : Cluster × Object} (hx : x.2.IsPlanned) :
    (there s x.1 x.2.kind x.2.name ∧ makeOn server.recorded ns (s, made) x = (s, made)) ∨
      (¬ there s x.1 x.2.kind x.2.name ∧
        makeOn server.recorded ns (s, made) x = (makeOn server ns s x, made ++ [x])) := by
  by_cases hthere : there s x.1 x.2.kind x.2.name
  · exact .inl ⟨hthere, (h.recorded.creation_there (s := (s, made)) hx hthere).1⟩
  · refine .inr ⟨hthere, ?_⟩
    rw [makeOn_recorded, (h.creation_new hx hthere).1]
    rfl

/-- Only what was not there is made, in order, and nothing is made twice. -/
theorem makeAllOn_recorded {objects : List (Cluster × Object)}
    (hplanned : ∀ x ∈ objects, x.2.IsPlanned) (s : server.State)
    (made : List (Cluster × Object)) : ∃ more,
      makeAllOn server.recorded ns (s, made) objects =
        (makeAllOn server ns s objects, made ++ more) ∧
      more.Sublist objects ∧ (more.map keyOn).Nodup ∧
      ∀ x ∈ more, ¬ there s x.1 x.2.kind x.2.name := by
  induction objects generalizing s made with
  | nil => exact ⟨[], by simp [makeAllOn], .slnil, List.nodup_nil, List.forall_mem_nil _⟩
  | cons x objects ih =>
    obtain ⟨hx, hrest⟩ := List.forall_mem_cons.1 hplanned
    have hcons (s' : server.recorded.State) :
        makeAllOn server.recorded ns s' (x :: objects) =
          makeAllOn server.recorded ns (makeOn server.recorded ns s' x) objects := rfl
    have hcons' : makeAllOn server ns s (x :: objects) =
        makeAllOn server ns (makeOn server ns s x) objects := rfl
    rcases h.makeOn_recorded_cases s made hx with ⟨hthere, hsame⟩ | ⟨hnew, hmade⟩
    · obtain ⟨more, hmore, hsublist, hnodup, hmissing⟩ := ih hrest s made
      have hstate : makeOn server ns s x = s := (h.creation_there hx hthere).1
      refine ⟨more, ?_, hsublist.cons x, hnodup, hmissing⟩
      rw [hcons, hsame, hmore, hcons', hstate]
    · obtain ⟨more, hmore, hsublist, hnodup, hmissing⟩ :=
        ih hrest (makeOn server ns s x) (made ++ [x])
      refine ⟨x :: more, ?_, hsublist.cons_cons x, ?_, ?_⟩
      · rw [hcons, hmade, hmore, hcons', List.append_assoc]
        rfl
      · refine List.nodup_cons.2 ⟨fun hmem => ?_, hnodup⟩
        obtain ⟨y, hy, hkey⟩ := List.mem_map.1 hmem
        have hsame : y.1 = x.1 ∧ y.2.kind = x.2.kind ∧ y.2.name = x.2.name := by
          simpa [keyOn] using hkey
        have hthere := h.there_makeOn s hx
        rw [← hsame.1, ← hsame.2.1, ← hsame.2.2] at hthere
        exact hmissing y hy hthere
      · refine List.forall_mem_cons.2 ⟨hnew, fun y hy hthere => ?_⟩
        exact hmissing y hy (h.there_creation hx hthere)

end Keyed

end Reachability
