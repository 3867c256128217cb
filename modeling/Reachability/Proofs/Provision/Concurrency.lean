import Reachability.Proofs.Cluster.Turns
import Reachability.Proofs.Provision.Ascent
import Reachability.Proofs.Provision.Resumption
import Reachability.Proofs.Simulation.Server

namespace Reachability

open Manifest (Kind Object)
open Reachability.Topology (Item Plan Side)
open Wait (Fleet Instant Moment Procedure Server)

variable {server : Server clusterApi} {clients : Clients} {ns : String}
  {there : server.State → Cluster → Kind → String → Prop} {initial : server.State}

section Steps

variable {objects : List (Cluster × Object)} (h : Keyed server ns there)
  (hplanned : ∀ x ∈ objects, x.2.IsPlanned)
include h hplanned

/-- A request for an object leads one place further, unless others have been faster. -/
theorem createObject_climbs {x : Cluster × Object} {q n k : Nat} (hx : objects[q]? = some x)
    (hk : q ≤ k) : (createObject x.1 ns x.2).Climbs (ascent server ns initial objects) (n + 1) k
      fun _ n' k' => n' = n ∧ q + 1 ≤ k' := by
  have hobject := hplanned x (List.mem_of_getElem? hx)
  have hattempt : (Survey.attempt (Check.request (x.2.kind.phrase ++ " creation") x.1
      (x.2.creation ns))).Climbs (ascent server ns initial objects) (n + 1) k
        fun answer n' k' => created answer = .ok () ∧ n' = n ∧ q + 1 ≤ k' := by
    refine .attempt fun j hj => ?_
    have hcreated := h.created_creation (ascent server ns initial objects j) x.1 hobject
    rcases Nat.eq_or_lt_of_le (Nat.le_trans hk hj) with rfl | hlt
    · exact ⟨q + 1, Nat.le_succ q, Nat.le_refl _, (ascent_succ hx).symm, hcreated, rfl,
        Nat.le_refl _⟩
    · have hthere : there (ascent server ns initial objects j) x.1 x.2.kind x.2.name :=
        h.there_ascent hplanned hx hlt
      exact ⟨j, Nat.le_refl j, Nat.le_succ j, (h.creation_there hobject hthere).1, hcreated, rfl,
        hlt⟩
  refine hattempt.bind ?_
  rintro answer n' k' ⟨hcreated, hend⟩
  exact .ofExcept hcreated hend

/-- Requests for the objects of an item lead past them all. -/
theorem creations_climb (cluster : Cluster) {made : List Object}
    {pre rest : List (Cluster × Object)} {n k : Nat}
    (hobjects : objects = pre ++ (made.map fun o => (cluster, o)) ++ rest) (hk : pre.length ≤ k) :
    Survey.Climbs (ascent server ns initial objects) (made.forM (createObject cluster ns))
      (n + made.length) k fun _ n' k' => n' = n ∧ pre.length + made.length ≤ k' := by
  induction made generalizing pre k with
  | nil => exact .pure ⟨rfl, hk⟩
  | cons o made ih =>
    have hx : objects[pre.length]? = some (cluster, o) := by
      rw [hobjects]
      simp
    have hfirst : (createObject cluster ns o).Climbs (ascent server ns initial objects)
        (n + made.length + 1) k fun _ n' k' => n' = n + made.length ∧ pre.length + 1 ≤ k' :=
      createObject_climbs h hplanned (x := (cluster, o)) hx hk
    refine hfirst.bind ?_
    rintro _ n' k' ⟨rfl, hk'⟩
    have hrest : objects = (pre ++ [(cluster, o)]) ++ (made.map fun o => (cluster, o)) ++ rest := by
      rw [hobjects]
      simp
    refine (ih hrest (by simpa using hk')).mono ?_
    rintro _ n' k' ⟨rfl, hend⟩
    refine ⟨rfl, ?_⟩
    simp only [List.length_append, List.length_cons, List.length_nil] at hend ⊢
    omega

theorem make_climbs (cluster : Cluster) {item : Item} {pre rest : List (Cluster × Object)}
    {n k : Nat} (hobjects : objects = pre ++ objectsOn cluster item ++ rest)
    (hk : pre.length ≤ k) :
    (make cluster ns item).Climbs (ascent server ns initial objects) (n + item.objects.length) k
      fun _ n' k' => n' = n ∧ pre.length + item.objects.length ≤ k' := by
  refine (creations_climb h hplanned cluster hobjects hk).bind ?_
  intro _ n' k' hend
  split
  · exact .record hend
  · exact .pure hend

/-- The look-up of an item tells whether it had been found before anything was made for it, or has
been made since. -/
theorem lookup_tells (cluster : Cluster) {item : Item} {pre rest : List (Cluster × Object)}
    {j : Nat}
    (hobjects : objects =
      pre ++ missing server ns (makeAllOn server ns initial pre) cluster item ++ rest)
    (hj : pre.length ≤ j) :
    let base := makeAllOn server ns initial pre
    ∃ missed, absent (server.answer (ascent server ns initial objects j)
        ⟨cluster, item.lookup ns⟩).2 = .ok missed ∧
      (missed = false → pre.length + (missing server ns base cluster item).length ≤ j) ∧
      (missed = true → missing server ns base cluster item = objectsOn cluster item) := by
  intro base
  have hbase : ascent server ns initial objects pre.length = base := by
    rw [hobjects, List.append_assoc]
    exact ascent_append pre _ 0
  cases hanswer : (server.answer (ascent server ns initial objects j)
      ⟨cluster, item.lookup ns⟩).2 with
  | ok found =>
    refine ⟨false, rfl, fun _ => ?_, nofun⟩
    have hfinds : Finds server ns (ascent server ns initial objects j) cluster item := by
      rw [Finds, hanswer]
      rfl
    by_cases hfound : Finds server ns base cluster item
    · rw [missing, if_pos hfound]
      exact hj
    · -- It has been made since, so all of its objects have.
      rw [missing, if_neg hfound] at hobjects ⊢
      by_contra hlt
      rw [hobjects, List.append_assoc, ← Nat.add_sub_cancel' hj, ascent_append] at hfinds
      refine hfound (h.finds_of_part ?_ hfinds)
      simp only [objectsOn, List.length_map] at hlt
      omega
  | error f =>
    refine ⟨true, if_pos (h.lookup_error hanswer), nofun, fun _ => if_neg fun hfound => ?_⟩
    rw [← hbase] at hfound
    have hfinds := h.finds_ascent hplanned hj hfound
    rw [Finds, hanswer] at hfinds
    cases hfinds

/-- A step leads past all that there is to make for it. -/
theorem ensure_climbs (cluster : Cluster) {item : Item} {pre rest : List (Cluster × Object)}
    {n k : Nat}
    (hobjects : objects =
      pre ++ missing server ns (makeAllOn server ns initial pre) cluster item ++ rest)
    (hk : pre.length ≤ k) :
    (ensure cluster ns item).Climbs (ascent server ns initial objects)
      (n + item.objects.length + 1) k fun _ n' k' => n ≤ n' ∧
        pre.length + (missing server ns (makeAllOn server ns initial pre) cluster item).length ≤
          k' := by
  have hlookup : (Survey.attempt (Check.request (item.kind.phrase ++ " lookup") cluster
      (item.lookup ns))).Climbs (ascent server ns initial objects)
        (n + item.objects.length + 1) k fun lookup n' k' => n' = n + item.objects.length ∧
          pre.length ≤ k' ∧ ∃ missed, absent lookup = .ok missed ∧
            (missed = false → pre.length +
              (missing server ns (makeAllOn server ns initial pre) cluster item).length ≤ k') ∧
            (missed = true → missing server ns (makeAllOn server ns initial pre) cluster item =
              objectsOn cluster item) := by
    refine .attempt fun j hj => ⟨j, Nat.le_refl j, Nat.le_succ j, h.lookup_state _ _ _, rfl, ?_⟩
    have hj := Nat.le_trans hk hj
    exact ⟨hj, lookup_tells h hplanned cluster hobjects hj⟩
  refine hlookup.bind ?_
  rintro lookup n' k' ⟨rfl, hk', missed, habsent, hfound, hmissed⟩
  have hjudged : (Survey.ofExcept (absent lookup)).Climbs (ascent server ns initial objects)
      (n + item.objects.length) k' fun a n' k'' => a = missed ∧ n' = n + item.objects.length ∧
        k'' = k' := .ofExcept habsent ⟨rfl, rfl, rfl⟩
  refine hjudged.bind ?_
  rintro _ _ _ ⟨rfl, rfl, rfl⟩
  split
  next hmade =>
    rw [hmissed hmade] at hobjects ⊢
    refine (make_climbs h hplanned cluster hobjects hk').mono ?_
    rintro _ n' k'' ⟨rfl, hend⟩
    rw [objectsOn, List.length_map]
    exact ⟨Nat.le_refl _, hend⟩
  next hthere => exact .pure ⟨Nat.le_add_right _ _, hfound (Bool.eq_false_iff.2 hthere)⟩

/-- All that may be asked for the steps of a plan. -/
def stepRequests (ns : String) (steps : List (Side × Item)) : List (Side × Request) :=
  steps.flatMap fun (side, item) => (item.requests ns).map fun r => (side, r)

omit h hplanned in
theorem length_stepRequests_cons (ns : String) (side : Side) (item : Item)
    (steps : List (Side × Item)) : (stepRequests ns ((side, item) :: steps)).length =
      (stepRequests ns steps).length + item.objects.length + 1 := by
  simp [stepRequests, Item.requests]
  omega

/-- The steps of a plan lead past all that there is to make for them. -/
theorem takeSteps_climbs {steps : List (Side × Item)} (pre : List (Cluster × Object)) {n k : Nat}
    (hobjects : objects =
      pre ++ needed server clients ns steps (makeAllOn server ns initial pre))
    (hk : pre.length ≤ k) :
    (takeSteps clients ns steps).Climbs (ascent server ns initial objects)
      (n + (stepRequests ns steps).length) k fun _ n' k' => n ≤ n' ∧ objects.length ≤ k' := by
  induction steps generalizing pre n k with
  | nil =>
    refine .pure ⟨Nat.le_refl n, ?_⟩
    rw [hobjects, needed, List.append_nil]
    exact hk
  | cons step steps ih =>
    obtain ⟨side, item⟩ := step
    rw [needed, ← List.append_assoc, ← makeAllOn_append] at hobjects
    rw [length_stepRequests_cons, ← Nat.add_assoc, ← Nat.add_assoc]
    refine (ensure_climbs h hplanned (clients.get side) hobjects hk).bind ?_
    rintro _ n' k' ⟨hn', hk'⟩
    obtain ⟨extra, rfl⟩ := Nat.exists_eq_add_of_le hn'
    rw [← List.length_append] at hk'
    have hbudget : n + (stepRequests ns steps).length + extra =
        n + extra + (stepRequests ns steps).length := by
      omega
    rw [hbudget]
    refine (ih _ hobjects hk').mono ?_
    rintro _ n' k'' ⟨hn'', hend⟩
    exact ⟨Nat.le_trans (Nat.le_add_right n extra) hn'', hend⟩

end Steps

/-- The plan of a run that finds its zone among the nodes of the cluster, if it needs one. -/
def planIn (settings : Settings) (features : FeatureSet) (zone : String) : Plan :=
  Topology.plan settings features (if settings.performance then zone else "")

section Deployments

variable {settings : Settings} {features : FeatureSet} {zone : String}
  (hzone : ListsZone server clients.source zone)
include hzone

theorem chooseZone_climbs {chain : Nat → server.State} {n k : Nat} :
    (chooseZone clients settings).Climbs chain
      (n + (if settings.performance then 1 else 0)) k
      fun chosen n' k' =>
        chosen = (if settings.performance then zone else "") ∧ n' = n ∧ k ≤ k' := by
  unfold chooseZone
  cases settings.performance with
  | false => exact .pure ⟨rfl, rfl, Nat.le_refl k⟩
  | true =>
    have hlist : (Survey.request "node list" clients.source .listNodes).Climbs chain (n + 1) k
        fun (nodes : List Manifest.Node) n' k' =>
          Topology.selectZone nodes = zone ∧ n' = n ∧ k ≤ k' := by
      refine .request fun j hj => ?_
      obtain ⟨nodes, hanswer, hchosen⟩ := hzone (chain j)
      exact ⟨j, nodes, Nat.le_refl j, Nat.le_succ j, hanswer, hchosen, rfl, hj⟩
    refine hlist.bind ?_
    rintro nodes n' k' ⟨rfl, hend⟩
    exact .pure ⟨rfl, hend⟩

/-- A deployment leads past all that there is to make for its plan. -/
theorem deploy_climbs (h : Keyed server settings.testNamespace there)
    (hforce : settings.forceDeploy = false) :
    let plan := planIn settings features zone
    let objects := needed server clients settings.testNamespace plan.steps initial
    (deploy clients settings features).Climbs
      (ascent server settings.testNamespace initial objects)
      (plannedRequests settings plan).length 0
      fun result _ k => result = plan ∧ objects.length ≤ k := by
  intro plan objects
  have hplanned : ∀ x ∈ objects, x.2.IsPlanned := fun x hx =>
    isPlanned_of_mem ((needed_sublist clients plan.steps initial).mem hx)
  have hrequests : (plannedRequests settings plan).length =
      0 + (stepRequests settings.testNamespace plan.steps).length +
        (if settings.performance then 1 else 0) := by
    unfold plannedRequests stepRequests
    split <;> simp
  rw [deploy_eq, hforce, hrequests]
  refine (chooseZone_climbs hzone).bind ?_
  rintro _ n k ⟨rfl, rfl, -⟩
  have htake : (takeSteps clients settings.testNamespace plan.steps).Climbs
      (ascent server settings.testNamespace initial objects)
      (0 + (stepRequests settings.testNamespace plan.steps).length) k
      fun _ n' k' => 0 ≤ n' ∧ objects.length ≤ k' :=
    takeSteps_climbs h hplanned [] rfl (Nat.zero_le k)
  refine htake.bind ?_
  rintro _ n' k' ⟨-, hend⟩
  exact .pure ⟨rfl, hend⟩

end Deployments

/-- Deployments that begin together on the same clusters, of which a record is kept. -/
def deployments {ι : Type} (server : Server clusterApi) (clients : Clients) (settings : Settings)
    (features : FeatureSet) (inventories : ι → Inventory) (initial : server.State) :
    Fleet server.recorded ι (Except Failure Plan × Inventory) where
  state := (initial, [])
  procedures i := (deploy clients settings features).run.run (inventories i)

/-- What deployments come to that take turns in some order. -/
structure Concurs {ι : Type} [DecidableEq ι] (clients : Clients) (settings : Settings) (plan : Plan)
    (there : server.State → Cluster → Kind → String → Prop) (initial : server.State)
    (single : server.State × List (Cluster × Object)) (schedule : List ι)
    (fleet : Fleet server.recorded ι (Except Failure Plan × Inventory)) : Prop where
  /-- None of them fails. -/
  succeeds {i : ι} {r : Except Failure Plan × Inventory}
    (h : (fleet.procedures i).result? = some r) : r.1 = .ok plan
  /-- A deployment comes to its end with as many turns as there are calls to be made. -/
  finishes {i : ι} (h : (plannedRequests settings plan).length ≤ schedule.count i) :
    ((fleet.procedures i).result?).isSome = true
  /-- Objects are made in the order of the plan. -/
  ordered : fleet.state.2.Sublist (plannedObjects clients plan.steps)
  /-- No object is made twice. -/
  once : (fleet.state.2.map keyOn).Nodup
  /-- No object is made that was there beforehand. -/
  missing {x : Cluster × Object} (h : x ∈ fleet.state.2) :
    ¬ there initial x.1 x.2.kind x.2.name
  /-- The next turn, whoever takes it, changes nothing or makes an object that is not there. -/
  turn (i : ι) : (fleet.turn i).state = fleet.state ∨
    ∃ x : Cluster × Object, ¬ there fleet.state.1 x.1 x.2.kind x.2.name ∧
      (fleet.turn i).state =
        (makeOn server settings.testNamespace fleet.state.1 x, fleet.state.2 ++ [x])
  /-- Once one of them has come to its end, nothing is left to be made. -/
  agrees {i : ι} (h : ((fleet.procedures i).result?).isSome = true) : fleet.state = single

section Places

variable {objects : List (Cluster × Object)} (h : Keyed server ns there)
  (hplanned : ∀ x ∈ objects, x.2.IsPlanned)
include h hplanned

/-- At every place, what has been made is recorded in order, once, and was not there beforehand. -/
theorem record_ascent (initial : server.State) (k : Nat) :
    let state := ascent server.recorded ns (initial, []) objects k
    state.2.Sublist objects ∧ (state.2.map keyOn).Nodup ∧
      ∀ x ∈ state.2, ¬ there initial x.1 x.2.kind x.2.name := by
  intro state
  have hfirst : ∀ x ∈ objects.take k, x.2.IsPlanned :=
    fun x hx => hplanned x (List.mem_of_mem_take hx)
  obtain ⟨more, hmore, hsublist, hnodup, hmissing⟩ := h.makeAllOn_recorded hfirst initial []
  have hstate : state.2 = more := congrArg Prod.snd hmore
  rw [hstate]
  exact ⟨hsublist.trans (List.take_sublist k objects), hnodup, hmissing⟩

/-- From one place to the next, nothing changes or an object is made that is not there. -/
theorem ascent_step {j k : Nat} (hle : j ≤ k) (hstep : k ≤ j + 1) :
    let state := ascent server.recorded ns (initial, []) objects j
    let next := ascent server.recorded ns (initial, []) objects k
    next = state ∨ ∃ x : Cluster × Object, ¬ there state.1 x.1 x.2.kind x.2.name ∧
      next = (makeOn server ns state.1 x, state.2 ++ [x]) := by
  intro state next
  rcases Nat.eq_or_lt_of_le hle with rfl | hlt
  · exact .inl rfl
  · obtain rfl : k = j + 1 := Nat.le_antisymm hstep hlt
    cases hx : objects[j]? with
    | none => exact .inl (ascent_succ_of_none hx)
    | some x =>
      have hnext : next = makeOn server.recorded ns state x := ascent_succ hx
      have hobject := hplanned x (List.mem_of_getElem? hx)
      rcases h.makeOn_recorded_cases state.1 state.2 hobject with ⟨-, hsame⟩ | ⟨hnew, hmade⟩
      · exact .inl (hnext.trans hsame)
      · exact .inr ⟨x, hnew, hnext.trans hmade⟩

end Places

/-- Without teardowns beforehand, deployments of one plan may take turns on the same clusters in any
order. None of them fails, each object is made once at most and in the order of the plan, nothing
that is there is replaced, and the clusters are left as a single deployment leaves them. -/
theorem deploys_agree (server : Server clusterApi) (clients : Clients) (settings : Settings)
    (features : FeatureSet) (hforce : settings.forceDeploy = false)
    (there : server.State → Cluster → Kind → String → Prop)
    (hkeyed : Keyed server settings.testNamespace there) (zone : String)
    (hzone : ListsZone server clients.source zone)
    (initial : server.State) (inventory : Inventory) (patience : Nat) (t : Instant) :
    let plan := planIn settings features zone
    ∃ (inventory' : Inventory) (m : Moment server.recorded.world),
      ((deploy clients settings features).run.run inventory).run server.recorded.world patience {}
          ⟨t, (initial, []), []⟩ = (.returned (.ok plan, inventory'), m) ∧
        ∀ {ι : Type} [DecidableEq ι] (inventories : ι → Inventory) (schedule : List ι),
          Concurs clients settings plan there initial m.state schedule
            ((deployments server clients settings features inventories initial).run schedule) := by
  intro plan
  have hlists : ListsZone server.recorded clients.source zone := by
    rintro ⟨s, made⟩
    obtain ⟨nodes, hanswer, hchosen⟩ := hzone s
    refine ⟨nodes, ?_, hchosen⟩
    simp [Server.recorded, newlyMade, hanswer]
  let objects :=
    needed server.recorded clients settings.testNamespace plan.steps (initial, [])
  have hsublist : objects.Sublist (plannedObjects clients plan.steps) :=
    needed_sublist ..
  have hplanned : ∀ x ∈ objects, x.2.IsPlanned := fun x hx => isPlanned_of_mem (hsublist.mem hx)
  let chain := ascent server.recorded settings.testNamespace (initial, []) objects
  have hclimbs : (deploy clients settings features).Climbs chain
      (plannedRequests settings plan).length 0
      fun result _ k => result = plan ∧ objects.length ≤ k :=
    deploy_climbs hlists hkeyed.recorded hforce
  obtain ⟨⟨_, inventory'⟩, _, k, m, hrun, hstate, _, rfl, rfl, hk⟩ :=
    (hclimbs inventory).run patience t []
  refine ⟨inventory', m, hrun, fun {ι} _ inventories schedule => ?_⟩
  -- All fleets are on the same chain.
  let ends (r : Except Failure Plan × Inventory) (k : Nat) := r.1 = .ok plan ∧ objects.length ≤ k
  have hends : ∀ r k j, k ≤ j → ends r k → ends r j :=
    fun r k j hle hr => ⟨hr.1, Nat.le_trans hr.2 hle⟩
  have hinitial : (deployments server clients settings features inventories initial).Climbs chain
      ends (fun _ => (plannedRequests settings plan).length) 0 := by
    refine ⟨rfl, fun i => (hclimbs (inventories i)).imp ?_⟩
    rintro r n k ⟨_, hr, rfl, hk⟩
    exact ⟨hr, hk⟩
  obtain ⟨j, hfleet⟩ := hinitial.run hends schedule
  obtain ⟨hordered, honce, hmissing⟩ := record_ascent hkeyed hplanned initial j
  have hat : _ = chain j := hfleet.state
  refine ⟨fun hr => (hfleet.result hr).1, fun hcount => ?_, ?_, ?_, ?_, fun i => ?_,
    fun hdone => ?_⟩
  · exact hfleet.finished (Nat.sub_eq_zero_of_le hcount)
  · rw [hat]
    exact hordered.trans hsublist
  · rw [hat]
    exact honce
  · rw [hat]
    exact hmissing _
  · obtain ⟨j', hle, hstep, hturn⟩ := hfleet.turn hends i
    rw [hturn.state, hat]
    exact ascent_step hkeyed hplanned hle hstep
  · obtain ⟨r, hr⟩ := Option.isSome_iff_exists.1 hdone
    have hj := (hfleet.result hr).2
    rw [hat, hstate]
    exact (ascent_of_length_le hj).trans (ascent_of_length_le hk).symm

/-- Two deployments that keep step with each other make five objects, each of them once. -/
theorem storeServer_deploys_agree :
    let settings : Settings := { performance := true, singleNode := true }
    let clients : Clients := .single ⟨0, "kind"⟩
    let initial : Nat → Simulation.Store := fun _ => .fresh "kind"
    let fleet := (deployments Simulation.storeServer clients settings ∅ (fun _ : Bool => ∅)
      initial).run (List.replicate 9 [false, true]).flatten
    (∀ i, ((fleet.procedures i).result?).isSome = true) ∧
      fleet.state.2.map (fun x => (x.2.kind, x.2.name)) =
        [(.space, "cilium-test"), (.serviceAccount, "perf-client"), (.deployment, "perf-client"),
          (.serviceAccount, "perf-server"), (.deployment, "perf-server")] ∧
      ∃ (inventory : Inventory) (m : Moment Simulation.storeServer.recorded.world),
        ((deploy clients settings ∅).run.run ∅).run Simulation.storeServer.recorded.world 0 {}
            ⟨0, (initial, []), []⟩ = (.returned (.ok (planIn settings ∅ "zone-a"), inventory), m) ∧
          fleet.state = m.state := by
  intro settings clients initial fleet
  obtain ⟨inventory, m, hrun, hconcurs⟩ := deploys_agree Simulation.storeServer clients settings ∅
    rfl (Simulation.StoredIn settings.testNamespace) (Simulation.storeServer_keyed _) "zone-a"
    (Simulation.storeServer_listsZone _) initial ∅ 0 0
  have hboth := hconcurs (fun _ : Bool => ∅) (List.replicate 9 [false, true]).flatten
  have hdone : ∀ i, ((fleet.procedures i).result?).isSome = true := by
    intro i
    refine hboth.finishes ?_
    cases i <;> decide +kernel
  refine ⟨hdone, ?_, inventory, m, hrun, hboth.agrees (hdone true)⟩
  decide +kernel

end Reachability
