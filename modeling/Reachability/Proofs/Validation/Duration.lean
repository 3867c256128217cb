import Reachability.Proofs.Cluster.Duration
import Reachability.Proofs.Dict
import Reachability.Proofs.Validation.Allotment
import Reachability.Proofs.Validation.Discovery

namespace Reachability

open Reachability.Topology (WorkloadKind nameSelector)
open Wait (Instant Limits Moment Procedure World after?)

variable {α β γ : Type} {w : World clusterApi}

/-- How many pods an answer lists, if it is one to this request. -/
def Exchange.podsListed (ns selector : String) : Exchange → Nat
  | ⟨⟨_, .listPods ns' selector'⟩, .ok pods⟩ =>
    if ns' = ns ∧ selector' = selector then (pods : List Manifest.Pod).length else 0
  | _ => 0

/-- How many pods have been listed on these requests. -/
def podsListed (ns selector : String) : List Exchange → Nat
  | [] => 0
  | e :: exchanges => e.podsListed ns selector + podsListed ns selector exchanges

theorem podsListed_append (ns selector : String) (exchanges exchanges' : List Exchange) :
    podsListed ns selector (exchanges ++ exchanges') =
      podsListed ns selector exchanges + podsListed ns selector exchanges' := by
  induction exchanges with
  | nil => simp [podsListed]
  | cons e exchanges ih => simp [podsListed, ih, Nat.add_assoc]

theorem podsListed_answer (cluster : Cluster) (ns selector : String)
    (objects : List Manifest.Pod) :
    podsListed ns selector [⟨⟨cluster, .listPods ns selector⟩, .ok objects⟩] = objects.length := by
  simp [podsListed, Exchange.podsListed]

namespace Inventory

/-- The agents whose nodes have an address. -/
def agentsWithNode (i : Inventory) : Nat := i.agentPods.values.countP (·.hostIP.isSome)

/-- What happens to an inventory once the agents are there. -/
structure GrowsTo (i i' : Inventory) : Prop where
  agentPods : i'.agentPods = i.agentPods
  echoServices : i.echoServices.size ≤ i'.echoServices.size

theorem GrowsTo.of_eq {i i' : Inventory} (hagents : i'.agentPods = i.agentPods)
    (hservices : i'.echoServices = i.echoServices) : i.GrowsTo i' :=
  ⟨hagents, hservices ▸ Nat.le_refl _⟩

theorem GrowsTo.refl (i : Inventory) : i.GrowsTo i := .of_eq rfl rfl

theorem GrowsTo.trans {i i' i'' : Inventory} (h : i.GrowsTo i') (h' : i'.GrowsTo i'') :
    i.GrowsTo i'' :=
  ⟨h'.agentPods.trans h.agentPods, Nat.le_trans h.echoServices h'.echoServices⟩

end Inventory

/-- A bound on the time that a survey takes, after what it has been told and what it has found. The
bound only grows as the survey goes on. -/
structure Cost where
  time : List Exchange → Inventory → Nat
  time_le_of_goes_on {before : List Exchange} {i i' : Inventory} (after : List Exchange)
    (h : i.GrowsTo i') : time before i ≤ time (before ++ after) i'
  time_le_of_before (before after : List Exchange) (i : Inventory) :
    time after i ≤ time (before ++ after) i

namespace Cost

def fixed (time : Nat) : Cost where
  time _ _ := time
  time_le_of_goes_on _ _ := Nat.le_refl time
  time_le_of_before _ _ _ := Nat.le_refl time

/-- So much for every pod that is listed. -/
def perPod (time : Nat) (ns selector : String) : Cost where
  time exchanges _ := time * podsListed ns selector exchanges
  time_le_of_goes_on after _ := by
    rw [podsListed_append]
    exact Nat.mul_le_mul_left time (Nat.le_add_right _ _)
  time_le_of_before before after _ := by
    rw [podsListed_append]
    exact Nat.mul_le_mul_left time (Nat.le_add_left _ _)

/-- So much for every echo service. -/
def perService (time : Nat) : Cost where
  time _ i := time * i.echoServices.size
  time_le_of_goes_on _ h := Nat.mul_le_mul_left time h.echoServices
  time_le_of_before _ _ _ := Nat.le_refl _

/-- So much for every echo service at every node that runs an agent. -/
def perNodeService (time : Nat) : Cost where
  time _ i := time * (i.echoServices.size * i.agentsWithNode)
  time_le_of_goes_on _ h := by
    rw [Inventory.agentsWithNode, Inventory.agentsWithNode, h.agentPods]
    exact Nat.mul_le_mul_left time (Nat.mul_le_mul_right _ h.echoServices)
  time_le_of_before _ _ _ := Nat.le_refl _

instance : Zero Cost := ⟨fixed 0⟩

instance : Add Cost where
  add c c' :=
    { time := fun exchanges i => c.time exchanges i + c'.time exchanges i
      time_le_of_goes_on := fun after h =>
        Nat.add_le_add (c.time_le_of_goes_on after h) (c'.time_le_of_goes_on after h)
      time_le_of_before := fun before after i =>
        Nat.add_le_add (c.time_le_of_before before after i) (c'.time_le_of_before before after i) }

/-- One bound is no tighter than another. -/
instance : LE Cost := ⟨fun c c' => ∀ exchanges i, c.time exchanges i ≤ c'.time exchanges i⟩

variable (c c' : Cost) (exchanges : List Exchange) (i : Inventory)

@[simp] theorem time_fixed (time : Nat) : (fixed time).time exchanges i = time := rfl

@[simp] theorem time_zero : (0 : Cost).time exchanges i = 0 := rfl

@[simp] theorem time_add : (c + c').time exchanges i = c.time exchanges i + c'.time exchanges i :=
  rfl

@[simp] theorem time_perPod (time : Nat) (ns selector : String) :
    (perPod time ns selector).time exchanges i = time * podsListed ns selector exchanges :=
  rfl

@[simp] theorem time_perService (time : Nat) :
    (perService time).time exchanges i = time * i.echoServices.size :=
  rfl

@[simp] theorem time_perNodeService (time : Nat) :
    (perNodeService time).time exchanges i = time * (i.echoServices.size * i.agentsWithNode) :=
  rfl

end Cost

namespace Survey

/-- The survey makes no waits: it does not stall, and no time passes. -/
structure Idle (w : World clusterApi) (s : Survey α) : Prop where
  takes (i : Inventory) : (s.run.run i).Takes w 0

namespace Idle

theorem pure (a : α) : Idle w (Pure.pure a : Survey α) := ⟨fun _ => .done _ 0⟩

theorem record (f : Inventory → Inventory) : (Survey.record f).Idle w := ⟨fun _ => .done _ 0⟩

theorem bind {s : Survey α} {f : α → Survey β} (hs : s.Idle w) (hf : ∀ a, (f a).Idle w) :
    Idle w (s >>= f) := by
  refine ⟨fun i => ?_⟩
  change Procedure.Takes w _ (0 + 0)
  refine Procedure.Takes.bind (hs.takes i) fun r => ?_
  obtain ⟨r, i'⟩ := r
  cases r with
  | error e => exact .done _ 0
  | ok a => exact (hf a).takes i'

theorem check {c : Check α} (hc : c.Takes w 0) : (Survey.check c).Idle w :=
  ⟨fun _ => hc.takes.bind fun _ => .done _ 0⟩

theorem forM {f : γ → Survey Unit} (hf : ∀ a, (f a).Idle w) (l : List γ) : (l.forM f).Idle w := by
  induction l with
  | nil => exact pure ()
  | cons a l ih => exact bind (hf a) fun _ => ih

end Idle

/-- From an inventory, the survey does not stall. If it returns, then the agents are still there,
and it has taken no longer than its cost. -/
structure Costs (w : World clusterApi) (s : Survey α) (i : Inventory) (c : Cost) : Prop where
  not_stalled (patience : Nat) (l : Limits) (m : Moment w.recorded) :
    ((s.run.run i).run w.recorded patience l m).1 ≠ .stalled
  returns {patience : Nat} {l : Limits} {m m' : Moment w.recorded} {r : Except Failure α}
    {i' : Inventory} {more : List Exchange}
    (h : (s.run.run i).run w.recorded patience l m = (.returned (r, i'), m'))
    (hmore : m'.record = m.record ++ more) :
    i.GrowsTo i' ∧ m'.now ≤ m.now + c.time more i'

/-- Nothing in particular. -/
theorem Gathers.anything {s : Survey α} {i : Inventory} : s.Gathers i fun _ _ _ => True :=
  ⟨fun _ => trivial⟩

namespace Costs

variable {i : Inventory} {c c' : Cost}

theorem mono {s : Survey α} (hs : s.Costs w i c)
    (hle : ∀ exchanges i', i.GrowsTo i' → c.time exchanges i' ≤ c'.time exchanges i') :
    s.Costs w i c' := by
  refine ⟨hs.not_stalled, fun h hmore => ?_⟩
  obtain ⟨hgrows, hnow⟩ := hs.returns h hmore
  exact ⟨hgrows, Nat.le_trans hnow (Nat.add_le_add_left (hle _ _ hgrows) _)⟩

/-- A single step is all that there is to account for. -/
theorem of_takes {s : Survey α} {time : Nat} (hs : (s.run.run i).Takes w.recorded time)
    (hgrows : ∀ exchanges r i', (s.run.run i).Admits exchanges (r, i') → i.GrowsTo i') :
    s.Costs w i (.fixed time) := by
  refine ⟨fun patience l m => (hs.overBy patience l m).1, fun {patience l m m' r i'} _ h _ => ?_⟩
  obtain ⟨more, hadmits, -⟩ := Procedure.exists_record_eq h
  have hnow := (hs.overBy patience l m).2
  rw [h] at hnow
  exact ⟨hgrows _ _ _ hadmits, hnow⟩

theorem pure (a : α) : Costs w (Pure.pure a) i 0 := by
  refine .of_takes (.done _ 0) fun _ _ _ h => ?_
  cases h.2
  exact .refl i

theorem throw (f : Failure) : Costs w (MonadExcept.throw f : Survey α) i 0 := by
  refine .of_takes (.done _ 0) fun _ _ _ h => ?_
  cases h.2
  exact .refl i

theorem record {f : Inventory → Inventory} (hf : i.GrowsTo (f i)) :
    (Survey.record f).Costs w i 0 := by
  refine .of_takes (.done _ 0) fun _ _ _ h => ?_
  cases h.2
  exact hf

theorem check {check : Check α} {time : Nat} (hcheck : check.Takes w.recorded time) :
    (Survey.check check).Costs w i (.fixed time) := by
  refine .of_takes (.bind hcheck.takes fun _ => .done _ 0) fun _ r i' h => ?_
  obtain ⟨-, -, r', -, -, -, hr⟩ := Procedure.Admits.of_bind (p := check.run) h
  cases hr
  exact .refl i

theorem request (hlists : w.ListsAtOnce) {r : Request} (hr : r.Lists) (what : String)
    (cluster : Cluster) : (Survey.request what cluster r).Costs w i 0 :=
  .check (.request hlists.recorded hr what cluster)

theorem inventory {f : Inventory → Survey α} (hf : (f i).Costs w i c) :
    (Survey.inventory >>= f).Costs w i c :=
  ⟨hf.not_stalled, hf.returns⟩

/-- The cost of two parts, where that of the second depends on what the first has gathered. -/
theorem bind_gathers {s : Survey α} {f : α → Survey β}
    {post : List Exchange → α → Inventory → Prop} {total : Cost} (next : α → Cost)
    (hs : s.Costs w i c) (hgathers : s.Gathers i post)
    (hf : ∀ before a i', post before a i' → (f a).Costs w i' (next a))
    (hfails : ∀ exchanges i', c.time exchanges i' ≤ total.time exchanges i')
    (hgoes : ∀ before a i' after i'', post before a i' → i'.GrowsTo i'' →
      c.time before i' + (next a).time after i'' ≤ total.time (before ++ after) i'') :
    (s >>= f).Costs w i total := by
  constructor
  · intro patience l m
    rw [run_bind]
    have hstalled := hs.not_stalled patience l m
    rcases hfirst : (s.run.run i).run w.recorded patience l m with ⟨⟨e | a, i'⟩ | _ | _, m'⟩
    · simp [Wait.andThen]
    · obtain ⟨before, hadmits, -⟩ := Procedure.exists_record_eq hfirst
      exact (hf _ _ _ (hgathers.holds hadmits)).not_stalled patience l m'
    · exact absurd (congrArg Prod.fst hfirst) hstalled
    · simp [Wait.andThen]
  · intro patience l m m'' r i'' more h hmore
    rw [run_bind] at h
    rcases hfirst : (s.run.run i).run w.recorded patience l m with ⟨⟨e | a, i'⟩ | _ | _, m'⟩ <;>
      rw [hfirst] at h
    · cases h
      obtain ⟨hgrows, hnow⟩ := hs.returns hfirst hmore
      exact ⟨hgrows, Nat.le_trans hnow (Nat.add_le_add_left (hfails _ _) _)⟩
    · obtain ⟨before, hadmits, hbefore⟩ := Procedure.exists_record_eq hfirst
      obtain ⟨after, -, hafter⟩ := Procedure.exists_record_eq h
      obtain rfl : more = before ++ after := by
        rw [hafter, hbefore, List.append_assoc] at hmore
        exact (List.append_cancel_left hmore).symm
      have hpost := hgathers.holds hadmits
      obtain ⟨hgrows, hnow⟩ := hs.returns hfirst hbefore
      obtain ⟨hgrows', hnow'⟩ := (hf _ _ _ hpost).returns h hafter
      have hcost := hgoes before a i' after i'' hpost hgrows'
      exact ⟨hgrows.trans hgrows', by lia⟩
    · cases h
    · cases h

theorem bind {s : Survey α} {f : α → Survey β} (hs : s.Costs w i c)
    (hf : ∀ a i', (f a).Costs w i' c') : (s >>= f).Costs w i (c + c') := by
  refine bind_gathers (fun _ => c') hs .anything (fun _ a i' _ => hf a i') ?_ ?_
  · exact fun exchanges i' => Nat.le_add_right _ _
  · exact fun before _ i' after i'' _ hgrows => Nat.add_le_add
      (c.time_le_of_goes_on after hgrows) (c'.time_le_of_before before after i'')

/-- A first part that costs nothing. -/
theorem bind_free {s : Survey α} {f : α → Survey β} (hs : s.Costs w i 0)
    (hf : ∀ a i', (f a).Costs w i' c) : (s >>= f).Costs w i c :=
  (hs.bind hf).mono fun _ _ _ => by simp

/-- A last part that costs nothing. -/
theorem bind_then_free {s : Survey α} {f : α → Survey β} (hs : s.Costs w i c)
    (hf : ∀ a i', (f a).Costs w i' 0) : (s >>= f).Costs w i c :=
  (hs.bind hf).mono fun _ _ _ => by simp

/-- A part that is left out under some condition. -/
theorem ite_bind {q : Prop} [Decidable q] {s : Survey Unit} {f : Unit → Survey β}
    (hs : q → s.Costs w i c) (hf : ∀ a i', (f a).Costs w i' c') :
    Costs w (if q then s >>= f else f ()) i (c + c') := by
  split
  next hq => exact (hs hq).bind hf
  next => exact (hf () i).mono fun _ _ _ => by simp

/-- A loop in which some elements cost the same, and the others nothing. -/
theorem forM_some {f : γ → Survey Unit} (p : γ → Bool) (time : Nat)
    (hf : ∀ a i, (f a).Costs w i (.fixed (if p a then time else 0))) (l : List γ) :
    (l.forM f).Costs w i (.fixed (time * l.countP p)) := by
  induction l generalizing i with
  | nil => exact (pure ()).mono fun _ _ _ => by simp
  | cons a l ih =>
    refine ((hf a i).bind fun _ i' => ih (i := i')).mono fun _ _ _ => ?_
    by_cases ha : p a
    · simp [ha, Nat.mul_add, Nat.add_comm]
    · simp [ha]

/-- A loop in which every element costs the same. -/
theorem forM {f : γ → Survey Unit} (time : Nat) (hf : ∀ a i, (f a).Costs w i (.fixed time))
    (l : List γ) : (l.forM f).Costs w i (.fixed (time * l.length)) := by
  simpa using forM_some (fun _ => true) time (by simpa using hf) l

/-- A loop in which every element costs nothing. -/
theorem forM_free {f : γ → Survey Unit} (hf : ∀ a i, (f a).Costs w i 0) (l : List γ) :
    (l.forM f).Costs w i 0 :=
  (forM 0 hf l).mono fun _ _ _ => by simp

/-- A loop in which every element costs so much for every pod that is listed for it. -/
theorem forM_perPod {f : γ → Survey Unit} {time : Nat} {ns selector : String}
    (hf : ∀ a i, (f a).Costs w i (.perPod time ns selector)) (l : List γ) :
    (l.forM f).Costs w i (.perPod time ns selector) := by
  induction l generalizing i with
  | nil => exact (pure ()).mono fun _ _ _ => Nat.zero_le _
  | cons a l ih =>
    refine bind_gathers (fun _ => .perPod time ns selector) (hf a i) .anything
      (fun _ _ i' _ => ih) ?_ ?_
    · exact fun _ _ => Nat.le_refl _
    · intro before _ _ after _ _ _
      simp [podsListed_append, Nat.mul_add]

end Costs

section Steps

variable {i : Inventory} (clients : Clients) (settings : Settings) (features : FeatureSet)

theorem deployments_costs (cluster : Cluster) (names : List String) :
    (deployments cluster settings names).Costs w i (.fixed settings.podReadyTime) := by
  unfold deployments
  split
  · exact (Costs.pure ()).mono fun _ _ _ => Nat.zero_le _
  · exact .check (Check.deployments_takes ..)

theorem endpoint_costs (pod : Pod) :
    (endpoint settings pod).Costs w i (.fixed settings.endpointTime) :=
  .check (Check.endpoint_takes ..)

theorem podNames_costs (target : Pod) :
    (podNames settings target).Costs w i (.fixed settings.identityTime) :=
  .inventory <| .check <| .within (.forM (fun source => Check.podNames_pauses source target) _) _

theorem clusterNames_costs :
    (clusterNames settings).Costs w i (.fixed settings.identityTime) :=
  .inventory <| .check <| .within (.forM (fun source => Check.clusterNames_pauses source) _) _

theorem resolvedServices_costs :
    (resolvedServices settings).Costs w i (.perService settings.serviceReadyTime) := by
  refine .inventory <| (Costs.forM settings.serviceReadyTime
    (fun s _ => .check (Check.service_takes ..)) _).mono fun _ i' hgrows => ?_
  simpa using Nat.mul_le_mul_left settings.serviceReadyTime hgrows.echoServices

theorem nodePorts_costs :
    (nodePorts settings).Costs w i (.perNodeService settings.serviceReadyTime) := by
  refine .inventory <| (Costs.forM_some (fun agent : Pod => agent.hostIP.isSome)
    (settings.serviceReadyTime * i.echoServices.size) (fun agent i' => ?_) _).mono
    fun _ i' hgrows => ?_
  · cases agent.hostIP with
    | none => exact .pure ()
    | some nodeIP =>
      refine (Costs.forM _ (fun s _ => .check (Check.nodePorts_takes ..)) _).mono fun _ _ _ => ?_
      simp
  · simp only [Cost.time_fixed, Cost.time_perNodeService, Inventory.agentsWithNode,
      hgrows.agentPods, Nat.mul_assoc]
    exact Nat.mul_le_mul_left _ (Nat.mul_le_mul_right _ hgrows.echoServices)

theorem identities_costs :
    (identities settings).Costs w i (.fixed settings.identityTime) :=
  .inventory <| .check <| .within (.forM (fun agent => Check.identities_pauses agent _ i) _) _

/-- Adding services, whichever of two with one name stays, loses no names. -/
theorem size_le_addServices (keepFirst : Bool) (d : Dict String Manifest.Service)
    (services : List Manifest.Service) : d.size ≤ (addServices keepFirst d services).size := by
  induction services generalizing d with
  | nil => exact Nat.le_refl _
  | cons s services ih =>
    refine Nat.le_trans ?_ (ih _)
    dsimp only
    split
    · exact Nat.le_refl _
    · exact Dict.size_le_size_insert ..

variable (hlists : w.ListsAtOnce)
include hlists

/-- The agents are listed in no time. -/
theorem agentPods_idle : (agentPods clients settings).Idle w :=
  .forM (fun _ => .bind (.bind (.check (.request hlists (by trivial) ..)) fun _ => .pure _)
    fun _ => .record _) _

theorem listPods_costs (what : String) (cluster : Cluster) (ns selector : String) :
    (listPods what cluster ns selector).Costs w i 0 :=
  .bind_free (.request hlists (by trivial) ..) fun _ _ => .pure _

/-- After a list, so much for every pod on it. -/
theorem listPods_bind_costs {what : String} {cluster : Cluster} {ns selector : String}
    {f : List Pod → Survey Unit} {time : Nat}
    (hf : ∀ pods i', (f pods).Costs w i' (.fixed (time * pods.length))) :
    (listPods what cluster ns selector >>= f).Costs w i (.perPod time ns selector) := by
  refine .bind_gathers (fun pods => .fixed (time * pods.length)) (listPods_costs hlists ..)
    (.listPods what cluster ns selector) (fun _ pods i' _ => hf pods i') ?_ ?_
  · exact fun _ _ => Nat.zero_le _
  · rintro _ _ i' after i'' ⟨objects, rfl, rfl, rfl⟩ -
    have hlisted := podsListed_append ns selector
      [⟨⟨cluster, .listPods ns selector⟩, .ok objects⟩] after
    rw [podsListed_answer] at hlisted
    simp only [Cost.time_zero, Cost.time_fixed, Cost.time_perPod, List.length_map, Nat.zero_add]
    exact Nat.mul_le_mul_left time (hlisted ▸ Nat.le_add_right ..)

theorem performancePods_costs : (performancePods clients settings).Costs w i
    (.perPod settings.endpointTime settings.testNamespace WorkloadKind.performance.selector) := by
  refine listPods_bind_costs hlists fun pods i' => ?_
  refine (Costs.forM settings.endpointTime (fun pod i => ?_) _).mono fun _ _ _ => ?_
  · refine (Costs.ite_bind (fun _ => endpoint_costs settings pod) fun _ _ =>
      .record ?_).mono fun _ _ _ => by simp
    dsimp only
    split <;> exact .of_eq rfl rfl
  · exact Nat.mul_le_mul_left _ (List.length_filter_le ..)

/-- Pods of a list are recorded once their endpoints are there. -/
theorem endpoints_costs {add : Pod → Inventory → Inventory}
    (hadd : ∀ (pod : Pod) (i : Inventory), i.GrowsTo (add pod i)) {what : String}
    {cluster : Cluster} {ns selector : String} :
    (listPods what cluster ns selector >>= fun pods => pods.forM fun pod => do
      endpoint settings pod
      record (add pod)).Costs w i (.perPod settings.endpointTime ns selector) :=
  listPods_bind_costs hlists fun pods _ => .forM _ (fun pod _ =>
    .bind_then_free (endpoint_costs settings pod) fun _ i => .record (hadd pod i)) pods

theorem clientPods_costs : (clientPods clients settings).Costs w i
    (.perPod settings.endpointTime settings.testNamespace WorkloadKind.client.selector) :=
  endpoints_costs settings hlists fun _ _ => .of_eq (by rfl) (by rfl)

theorem echoPods_costs : (echoPods clients settings).Costs w i
    (.perPod settings.endpointTime settings.testNamespace WorkloadKind.echo.selector) :=
  .forM_perPod
    (fun _ _ => endpoints_costs settings hlists fun _ _ => .of_eq (by rfl) (by rfl)) _

theorem echoPodNames_costs (cluster : Cluster) (deployment what : String) :
    (echoPodNames cluster settings deployment what).Costs w i (.fixed settings.identityTime) := by
  refine .bind_free (.bind_free (listPods_costs hlists ..) fun pods _ => ?_) fun target _ =>
    podNames_costs settings target
  split
  · exact .pure _
  · exact .throw _

theorem externalEchoPods_costs : (externalEchoPods clients settings).Costs w i 0 :=
  .bind_free (listPods_costs hlists ..) fun _ _ => .record (.of_eq rfl rfl)

theorem listServices_costs (what : String) (cluster : Cluster) (ns selector : String) :
    (listServices what cluster ns selector).Costs w i 0 :=
  .request hlists (by trivial) ..

theorem echoServices_costs : (echoServices clients settings).Costs w i 0 := by
  refine .forM_free (fun cluster i => ?_) _
  refine .bind_free (listServices_costs hlists ..) fun services i => .record ⟨rfl, ?_⟩
  exact size_le_addServices ..

theorem ingressServices_costs : (ingressServices clients settings).Costs w i 0 :=
  .bind_free (listServices_costs hlists ..) fun _ _ => .record (.of_eq rfl rfl)

theorem hostNetworkPods_costs : (hostNetworkPods clients settings).Costs w i 0 :=
  .bind_free (listPods_costs hlists ..) fun _ _ => .record (.of_eq rfl rfl)

theorem externalWorkloads_costs : (externalWorkloads clients).Costs w i 0 := by
  refine .forM_free (fun cluster i => .bind_free
    (.check (.attempt (.request hlists.recorded (by trivial) ..))) fun answer i => ?_) _
  split
  · exact .record (.of_eq rfl rfl)
  · split
    · exact .pure ()
    · exact .throw _

end Steps

/-- What connectivity costs, apart from the node ports. -/
def connectivityCost (settings : Settings) : Cost :=
  .perPod settings.endpointTime settings.testNamespace WorkloadKind.client.selector +
    .perPod settings.endpointTime settings.testNamespace WorkloadKind.echo.selector +
    .fixed (4 * settings.identityTime) + .perService settings.serviceReadyTime

/-- What the node ports cost, which are not tried between clusters. -/
def nodePortsCost (settings : Settings) : Cost :=
  if settings.isMultiCluster then 0 else .perNodeService settings.serviceReadyTime

theorem connectivity_costs (hlists : w.ListsAtOnce) (clients : Clients) (settings : Settings)
    (features : FeatureSet) (i : Inventory) :
    (connectivity clients settings features).Costs w i
      (connectivityCost settings + nodePortsCost settings) := by
  have hnodePorts (i : Inventory) (h : (!settings.isMultiCluster) = true) :
      (nodePorts settings).Costs w i (nodePortsCost settings) := by
    rw [nodePortsCost, if_neg (by simpa using h)]
    exact nodePorts_costs settings
  have hlast (i : Inventory) : Costs w
      (if !settings.skipIdentityCheck then identities settings else pure ()) i
      (.fixed settings.identityTime) := by
    split
    · exact identities_costs settings
    · exact (Costs.pure ()).mono fun _ _ _ => Nat.zero_le _
  have hchain : (connectivity clients settings features).Costs w i _ :=
    .bind (clientPods_costs clients settings hlists) fun _ _ =>
    .bind (echoPodNames_costs settings hlists ..) fun _ _ =>
    .ite_bind (fun _ => echoPodNames_costs settings hlists ..) fun _ _ =>
    .ite_bind (fun _ => externalEchoPods_costs clients settings hlists) fun _ _ =>
    .bind (clusterNames_costs settings) fun _ _ =>
    .bind (echoPods_costs clients settings hlists) fun _ _ =>
    .bind (echoServices_costs clients settings hlists) fun _ _ =>
    .bind (resolvedServices_costs settings) fun _ _ =>
    .ite_bind (fun _ => ingressServices_costs clients settings hlists) fun _ _ =>
    .ite_bind (hnodePorts _) fun _ _ =>
    .bind (hostNetworkPods_costs clients settings hlists) fun _ _ =>
    .bind (externalWorkloads_costs clients hlists) fun _ i' => hlast i'
  refine hchain.mono fun exchanges i' _ => ?_
  simp only [connectivityCost, Cost.time_add, Cost.time_fixed, Cost.time_zero]
  lia

/-- What all costs that follows the list of agents. -/
def inspectionCost (settings : Settings) : Cost :=
  .fixed (2 * settings.podReadyTime) +
    if settings.performance then
      .perPod settings.endpointTime settings.testNamespace WorkloadKind.performance.selector
    else connectivityCost settings + nodePortsCost settings

theorem inspection_costs (hlists : w.ListsAtOnce) (clients : Clients) (settings : Settings)
    (features : FeatureSet) (i : Inventory) :
    (inspection clients settings features).Costs w i (inspectionCost settings) := by
  have hrest (i : Inventory) : Costs w
      (if settings.performance then performancePods clients settings
        else connectivity clients settings features) i
      (if settings.performance then
        .perPod settings.endpointTime settings.testNamespace WorkloadKind.performance.selector
      else connectivityCost settings + nodePortsCost settings) := by
    split
    · exact performancePods_costs clients settings hlists
    · exact connectivity_costs hlists clients settings features i
  have hchain : (inspection clients settings features).Costs w i _ :=
    .bind (deployments_costs settings ..) fun _ _ =>
    .bind (deployments_costs settings ..) fun _ i' => hrest i'
  refine hchain.mono fun exchanges i' _ => ?_
  simp only [inspectionCost, Cost.time_add, Cost.time_fixed]
  lia

/-- Agents that are found have been listed in as many exchanges as there are clusters, and in no
time. -/
theorem agentPods_returns (hlists : w.ListsAtOnce) (clients : Clients) (settings : Settings)
    (i : Inventory) (patience : Nat) (l : Limits) (m : Moment w.recorded) :
    ∃ o m', ((agentPods clients settings).run.run i).run w.recorded patience l m = (o, m') ∧
      m'.now ≤ m.now ∧ o ≠ .stalled ∧
      ∀ a i', o = .returned (.ok a, i') → ∃ listed,
        listed.length = clients.distinct.length ∧ m'.record = m.record ++ listed := by
  obtain ⟨hstalled, hnow⟩ :=
    ((agentPods_idle clients settings hlists.recorded).takes i).overBy patience l m
  refine ⟨_, _, (Prod.eta _).symm, hnow, hstalled, fun a i' hreturns => ?_⟩
  obtain ⟨listed, hadmits, hrecord⟩ := Procedure.exists_record_eq (Prod.ext hreturns rfl)
  obtain ⟨agents, hclusters, rfl, -⟩ := (agentPods_gathers clients settings i).holds hadmits
  exact ⟨_, by simp [listings, ← hclusters], hrecord⟩

end Survey

/-- What the settings allow a validation that has been told and has found so much. -/
def Settings.allowance (settings : Settings) (exchanges : List Exchange) (i : Inventory) : Nat :=
  let listed (kind : WorkloadKind) := podsListed settings.testNamespace kind.selector exchanges
  let agents := if settings.isMultiCluster then 0 else i.agentsWithNode
  if settings.performance then
    2 * settings.podReadyTime + settings.endpointTime * listed .performance
  else
    2 * settings.podReadyTime + settings.endpointTime * (listed .client + listed .echo) +
      4 * settings.identityTime + settings.serviceReadyTime * (i.echoServices.size * (1 + agents))

theorem Survey.time_inspectionCost (settings : Settings) (exchanges : List Exchange)
    (i : Inventory) :
    (inspectionCost settings).time exchanges i = settings.allowance exchanges i := by
  unfold inspectionCost Settings.allowance
  split
  · simp
  · cases hmulti : settings.isMultiCluster <;>
      simp [connectivityCost, nodePortsCost, hmulti, Nat.mul_add, Nat.add_assoc]

/-- The same for the world that keeps a record of what is exchanged. -/
theorem validate_recorded_returns (hlists : w.ListsAtOnce) {clients : Clients}
    {settings : Settings} {features : FeatureSet} {patience : Nat} {l : Limits}
    {m : Moment w.recorded} (hempty : m.record = [])
    (hcrashed : (((validate clients settings features).run.run ∅).run w.recorded patience l m).1 ≠
      .crashed) :
    ∃ r i m', ((validate clients settings features).run.run ∅).run w.recorded patience l m =
        (.returned (r, i), m') ∧
      m'.now ≤ m.now + settings.allowance (m'.record.drop clients.distinct.length) i := by
  obtain ⟨o, m₁, hagents, hnow₁, hstalled, hlisted⟩ :=
    Survey.agentPods_returns hlists clients settings ∅ patience l m
  rw [validate_eq, Survey.run_bind, hagents] at hcrashed ⊢
  match o with
  | .stalled => exact absurd rfl hstalled
  | .crashed => exact absurd rfl hcrashed
  | .returned (.error e, i) =>
    exact ⟨.error e, i, m₁, rfl, Nat.le_trans hnow₁ (Nat.le_add_right ..)⟩
  | .returned (.ok a, i) =>
    obtain ⟨listed, hlength, hrecord⟩ := hlisted a i rfl
    have hcosts := Survey.inspection_costs hlists clients settings features i
    obtain ⟨⟨r, i'⟩, hreturned⟩ :=
      Wait.returned_of_ne (hcosts.not_stalled patience l m₁) hcrashed
    obtain ⟨more, -, hmore⟩ := Procedure.exists_record_eq hreturned
    obtain ⟨-, hnow⟩ := hcosts.returns hreturned hmore
    refine ⟨r, i', _, hreturned, ?_⟩
    have hdrop : (m₁.record ++ more).drop clients.distinct.length = more := by
      simp [hrecord, hempty, ← hlength]
    rw [hmore, hdrop, ← Survey.time_inspectionCost]
    lia

/-- The replicas that are left over can be counted in every deployment that the clusters tell of, as
in all those that do not ask for a negative number of them (`Uncountable.desired_neg`). -/
def Wait.World.Countable (w : World clusterApi) : Prop :=
  ∀ (s s' : w.State) (c : Call) (delay : Nat)
    (finish : w.State → w.State × Except Failure c.request.Answer),
    w.start s c = (s', some (delay, finish)) → ∀ s, ¬ FindsUncountable c (finish s).2

/-- A network that has gone silent: lists are answered at once and deployments after a while, but no
endpoint is ever there, and no command comes to an end. -/
def silentNetwork : World clusterApi where
  State := Unit
  start _ c := ((),
    match c.request with
    | .getEndpoint _ | .exec .. => none
    | .get .. => some (1000, fun _ => ((), calmAnswer c.request))
    | _ => some (0, fun _ => ((), calmAnswer c.request)))
  choose _ _ := ((), ⟨0, Nat.succ_pos _⟩)

theorem silentNetwork_listsAtOnce : silentNetwork.ListsAtOnce := by
  rintro s ⟨cluster, r⟩ hr
  cases r with
  | listPods | listServices | listNodes | listExternalWorkloads => exact ⟨(), _, rfl⟩
  | get | create | delete | getEndpoint | exec => cases hr

theorem silentNetwork_countable : silentNetwork.Countable := by
  rintro s s' ⟨cluster, r⟩ delay finish hstart -
  cases r with
  | get kind key =>
    cases hstart
    cases kind with
    | deployment => exact show calmDeployment.readiness ≠ none by decide
    | _ => exact id
  | _ => exact id

end Reachability
