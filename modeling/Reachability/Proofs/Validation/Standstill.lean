import Reachability.Proofs.Lookup
import Reachability.Proofs.Provision.Standstill
import Reachability.Proofs.Simulation.Answers
import Reachability.Proofs.Validation.Discovery

namespace Reachability

open Reachability.Topology (Side WorkloadKind nameSelector)
open Simulation
open Wait (Instant Procedure)

variable {α : Type} {σ : Standstill} {clients : Clients} {stores : Side → Store}
  {machines : List Machine} {i : Inventory} {ns : String} {settings : Settings}

/-- The sides of a run that are clusters of their own, the source first. -/
def Clients.sides (c : Clients) : List Side :=
  if c.source.id = c.destination.id then [.source] else [.source, .destination]

/-- The clusters of a run have these stores, and answer by themselves. -/
structure Stocked (clients : Clients) (stores : Side → Store) (machines : List Machine) : Prop where
  quiet : Quiet machines
  there (side : Side) : machines[(clients.get side).id]? = some { store := stores side }

namespace Stocked

theorem answered (h : Stocked clients stores machines) (side : Side) {r : Request} (hr : r.Reads) :
    answered machines ⟨clients.get side, r⟩ =
      (machines, ((stores side).answer (shownPod r) r).2) := by
  rw [answered_of_getElem? (c := ⟨clients.get side, r⟩) (h.there side)]
  refine congrArg (·, _) (updateStore_eq_self fun m _ => ?_)
  exact answer_of_reads hr m.store _

theorem request (h : Stocked clients stores machines) (side : Side) {r : Request} (hr : r.Reads)
    {a : r.Answer} (ha : ((stores side).answer (shownPod r) r).2 = .ok a) (what : String) :
    (Check.request what (clients.get side) r).Yields σ machines fun a' machines' =>
      a' = a ∧ machines' = machines := by
  have hanswered := h.answered side hr
  have hanswer : (Reachability.answered machines ⟨clients.get side, r⟩).2 = .ok a := by
    rw [hanswered]
    exact ha
  refine (Check.Yields.request (c := ⟨clients.get side, r⟩) h.quiet hanswer).mono ?_
  rintro _ _ ⟨rfl, rfl⟩
  exact ⟨rfl, congrArg Prod.fst hanswered⟩

theorem poll (h : Stocked clients stores machines) (side : Side) {r : Request} (hr : r.Reads)
    (judge : Except Failure r.Answer → Option (Except Failure α)) {a : α}
    (ha : judge ((stores side).answer (shownPod r) r).2 = some (.ok a)) {pacing : Nat}
    (hpacing : pacing ≤ Wait.endpointPacing) (what : String) :
    (Check.poll pacing what ((probe (clients.get side) r).judged judge)).Yields σ.timed machines
      fun a' machines' => a' = a ∧ machines' = machines := by
  have hanswered := h.answered side hr
  have hjudge : judge (Reachability.answered machines ⟨clients.get side, r⟩).2 =
      some (.ok a) := by
    rw [hanswered]
    exact ha
  refine (Check.Yields.poll (c := ⟨clients.get side, r⟩) h.quiet hpacing hjudge).mono ?_
  rintro _ _ ⟨rfl, rfl⟩
  exact ⟨rfl, congrArg Prod.fst hanswered⟩

end Stocked

/-- A pod that stands on the cluster of a side as it was found. -/
structure Pod.Stands (clients : Clients) (stores : Side → Store) (side : Side) (pod : Pod) :
    Prop where
  cluster : pod.cluster = clients.get side
  stored : (stores side).pods.get? pod.key = some pod.object

theorem Pod.Stands.contains {side : Side} {pod : Pod} (h : pod.Stands clients stores side) :
    (stores side).pods.contains pod.key = true := by
  rw [Dict.contains, h.stored]
  rfl

/-- A time that is not nothing, and can be reckoned from some instant on. -/
structure Wait.Fits (now : Instant) (timeout : Nat) : Prop where
  positive : 0 < timeout
  reckoned : Wait.after? now timeout ≠ none

/-- All times that a validation gives its parts fit, and so does the longest of its pauses. -/
structure Settings.Timely (settings : Settings) (now : Instant) : Prop where
  pause : Wait.after? now Wait.endpointPacing ≠ none
  podReady : Wait.Fits now settings.podReadyTime
  endpoint : Wait.Fits now settings.endpointTime
  identity : Wait.Fits now settings.identityTime
  serviceReady : Wait.Fits now settings.serviceReadyTime

/-- There are client pods, and they stand in the namespace on the source cluster. -/
structure Inventory.Manned (clients : Clients) (stores : Side → Store) (ns : String)
    (i : Inventory) : Prop where
  some : i.clientPods.values ≠ []
  stands {pod : Pod} (h : pod ∈ i.clientPods.values) : pod.Stands clients stores .source
  space {pod : Pod} (h : pod ∈ i.clientPods.values) : pod.space = ns

/-- From the pods of a namespace, the name server says of a service what it should. -/
def Simulation.Store.Resolves (s : Store) (ns : String) (service : Manifest.Service) : Prop :=
  ∀ pod : ObjectKey, s.pods.contains pod = true → pod.space = ns → ∃ output,
    s.exec pod pod ["nslookup", service.metadata.title] = .ok output ∧
      verifyLookup service output = .ok ()

namespace Check

theorem deployments_yields (h : Stocked clients stores machines) (side : Side)
    {names : List String} {timeout : Nat} (hfits : Wait.Fits σ.now timeout)
    (hready : ∀ name ∈ names, ∃ d, (stores side).get .deployment ⟨ns, name⟩ = .ok d ∧
      d.readiness = some (.ok ())) :
    (deployments (clients.get side) ns names timeout).Yields σ machines fun _ machines' =>
      machines' = machines := by
  refine .within (.forM fun name hname => ?_) hfits.positive hfits.reckoned
  obtain ⟨d, hd, hreadiness⟩ := hready name hname
  refine (h.poll (a := ()) side (r := .get .deployment ⟨ns, name⟩) trivial _ ?_ (by decide)
    _).mono ?_
  · rw [show ((stores side).answer _ (.get .deployment ⟨ns, name⟩)).2 = .ok d from hd]
    exact congrArg (Option.map (Except.mapError Failure.notReady)) hreadiness
  · exact fun _ _ => And.right

theorem endpoint_yields (h : Stocked clients stores machines) {side : Side} {pod : ObjectKey}
    {timeout : Nat} (hfits : Wait.Fits σ.now timeout)
    (hpod : (stores side).getEndpoint pod = .ok ()) :
    (endpoint (clients.get side) pod timeout).Yields σ machines fun _ machines' =>
      machines' = machines := by
  refine .within ?_ hfits.positive hfits.reckoned
  exact (h.poll side (r := .getEndpoint pod) trivial some (congrArg some hpod) (Nat.le_refl _)
    _).mono fun _ _ => And.right

/-- A command in a pod whose output is judged well. -/
theorem command_yields (h : Stocked clients stores machines) {side : Side} {pod : Pod}
    (hpod : pod.Stands clients stores side) {words : List String} {output : String}
    (houtput : (stores side).exec pod.key pod.key words = .ok output)
    (judge : Except Failure String → Option (Except Failure α)) {a : α}
    (ha : judge (.ok output) = some (.ok a)) (container : String) (what : String) :
    (poll Wait.defaultPacing what ((command pod container words).judged judge)).Yields σ.timed
      machines fun a' machines' => a' = a ∧ machines' = machines := by
  have hanswer : judge ((stores side).answer pod.key (.exec pod.key container words)).2 =
      some (.ok a) :=
    (congrArg judge houtput).trans ha
  rw [command, hpod.cluster]
  exact h.poll side (r := .exec pod.key container words) trivial judge hanswer (by decide) what

theorem podNames_yields (h : Stocked clients stores machines) {side : Side} {source : Pod}
    (hsource : source.Stands clients stores side) (target : Pod) :
    (podNames source target).Yields σ.timed machines fun _ machines' => machines' = machines := by
  have houtput := Store.exec_localhost source.key hsource.contains (target.address .any)
  refine .bind (command_yields h hsource houtput some rfl "" _) ?_
  rintro _ _ ⟨-, rfl⟩
  exact .pure rfl

theorem clusterNames_yields (h : Stocked clients stores machines) {side : Side} {pod : Pod}
    (hpod : pod.Stands clients stores side) :
    (clusterNames pod).Yields σ.timed machines fun _ machines' => machines' = machines := by
  have houtput := Store.exec_clusterName pod.key hpod.contains
  refine .bind (command_yields h hpod houtput some rfl "" _) ?_
  rintro _ _ ⟨-, rfl⟩
  exact .pure rfl

/-- There is a client pod to try something from. -/
theorem vantagePod_yields (hclients : i.clientPods.values ≠ []) :
    (vantagePod i).Yields σ machines fun pod machines' =>
      pod ∈ i.clientPods.values ∧ machines' = machines := by
  refine .bind (.choose? hclients) ?_
  rintro _ _ ⟨⟨pod, hpod, rfl⟩, rfl⟩
  exact .pure ⟨hpod, rfl⟩

theorem service_yields (h : Stocked clients stores machines) (hi : i.Manned clients stores ns)
    {s : Manifest.Service} (hs : (stores .source).Resolves ns s) {timeout : Nat}
    (hfits : Wait.Fits σ.now timeout) :
    (service i s timeout).Yields σ machines fun _ machines' => machines' = machines := by
  refine .bind (vantagePod_yields hi.some) ?_
  rintro pod _ ⟨hpod, rfl⟩
  have hstands := hi.stands hpod
  obtain ⟨output, houtput, hverified⟩ := hs pod.key hstands.contains (hi.space hpod)
  refine .within ?_ hfits.positive hfits.reckoned
  exact (command_yields h hstands houtput _
    (congrArg (some <| Except.mapError Failure.invalid ·) hverified) _ _).mono
      fun _ _ => And.right

theorem nodePorts_yields (h : Stocked clients stores machines) (hi : i.Manned clients stores ns)
    (nodeIP : String) (s : Manifest.Service) {timeout : Nat} (hfits : Wait.Fits σ.now timeout) :
    (nodePorts i nodeIP s timeout).Yields σ machines fun _ machines' => machines' = machines := by
  refine .bind (vantagePod_yields hi.some) ?_
  rintro pod _ ⟨hpod, rfl⟩
  have hstands := hi.stands hpod
  refine .within (.forM fun port _ => ?_) hfits.positive hfits.reckoned
  have houtput := Store.exec_port pod.key hstands.contains nodeIP (toString port)
  refine .bind (command_yields h hstands houtput some rfl _ _) ?_
  rintro _ _ ⟨-, rfl⟩
  exact .pure rfl

theorem identities_yields (h : Stocked clients stores machines) {side : Side} {agent : Pod}
    (hagent : agent.Stands clients stores side) {i : Inventory}
    (hcache : judgeCache i (stores side).identityDump = .ok ()) (container : String) :
    (identities agent container i).Yields σ.timed machines fun _ machines' =>
      machines' = machines := by
  have houtput := Store.exec_cache agent.key hagent.contains
  exact (command_yields h hagent houtput (some <| · >>= judgeCache i) (congrArg some hcache)
    container _).mono
    fun _ _ => And.right

end Check

/-- The clusters of a run hold these items, each its own. -/
structure Furnished (clients : Clients) (stores : Side → Store) (ns : String)
    (items : Side → List Topology.Item) (machines : List Machine) : Prop
    extends Stocked clients stores machines where
  hosts (side : Side) : (stores side).Hosts (clients.get side).name ns (items side)

/-- The pods that the cluster of a side lists. -/
def listedOn (clients : Clients) (stores : Side → Store) (ns selector : String) (side : Side) :
    List Pod :=
  ((stores side).listPods ns selector).map fun object => { cluster := clients.get side, object }

namespace Furnished

variable {items : Side → List Topology.Item} {side : Side} {selector : String} {pod : Pod}

theorem stands (h : Furnished clients stores ns items machines)
    {space : String} (hpod : pod ∈ listedOn clients stores space selector side) :
    pod.Stands clients stores side := by
  obtain ⟨object, hobject, rfl⟩ := List.mem_map.1 hpod
  exact ⟨rfl, (h.hosts side).get?_own hobject⟩

theorem space (h : Furnished clients stores ns items machines)
    (hpod : pod ∈ listedOn clients stores ns selector side) : pod.space = ns := by
  obtain ⟨object, hobject, rfl⟩ := List.mem_map.1 hpod
  exact (h.hosts side).space_of_mem hobject

theorem names_nodup (h : Furnished clients stores ns items machines) (selector : String)
    (side : Side) : ((listedOn clients stores ns selector side).map Pod.name).Nodup := by
  rw [listedOn, List.map_map]
  exact (h.hosts side).names_nodup selector

/-- A pod on a network of its own has an endpoint. -/
theorem getEndpoint (h : Furnished clients stores ns items machines)
    (hpod : pod ∈ listedOn clients stores ns selector side) (hnetwork : pod.hostNetwork = false) :
    (stores side).getEndpoint ⟨ns, pod.name⟩ = .ok () := by
  have hstored := (h.stands hpod).stored
  rw [Pod.key, h.space hpod] at hstored
  rw [Store.getEndpoint, hstored]
  exact if_neg (Bool.eq_false_iff.1 hnetwork)

end Furnished

/-- A part of the inventory that can be changed by itself. -/
structure Inventory.Part (δ : Type) where
  get : Inventory → δ
  put : δ → Inventory → Inventory
  put_get (i : Inventory) : put (get i) i = i
  get_put (d : δ) (i : Inventory) : get (put d i) = d
  put_put (d d' : δ) (i : Inventory) : put d' (put d i) = put d' i

namespace Inventory.Part

def ofAgentPods : Part (Dict String Pod) :=
  ⟨agentPods, fun d i => { i with agentPods := d }, fun _ => rfl, fun _ _ => rfl, fun _ _ _ => rfl⟩

def ofClientPods : Part (Dict String Pod) :=
  ⟨clientPods, fun d i => { i with clientPods := d }, fun _ => rfl, fun _ _ => rfl,
    fun _ _ _ => rfl⟩

def ofEchoPods : Part (Dict String Pod) :=
  ⟨echoPods, fun d i => { i with echoPods := d }, fun _ => rfl, fun _ _ => rfl, fun _ _ _ => rfl⟩

def ofExternalEchoPods : Part (Dict String Pod) :=
  ⟨externalEchoPods, fun d i => { i with externalEchoPods := d }, fun _ => rfl, fun _ _ => rfl,
    fun _ _ _ => rfl⟩

def ofIngressServices : Part (Dict String Manifest.Service) :=
  ⟨ingressServices, fun d i => { i with ingressServices := d }, fun _ => rfl, fun _ _ => rfl,
    fun _ _ _ => rfl⟩

def ofEchoServices : Part (Dict String Manifest.Service) :=
  ⟨echoServices, fun d i => { i with echoServices := d }, fun _ => rfl, fun _ _ => rfl,
    fun _ _ _ => rfl⟩

theorem foldl_put {δ γ : Type} (p : Part δ) (step : δ → γ → δ) (l : List γ) (i : Inventory) :
    l.foldl (fun i a => p.put (step (p.get i) a) i) i = p.put (l.foldl step (p.get i)) i := by
  induction l generalizing i with
  | nil => exact (p.put_get i).symm
  | cons a l ih => rw [List.foldl_cons, ih, p.get_put, p.put_put, List.foldl_cons]

end Inventory.Part

namespace Survey

/-- A loop that changes one part of the inventory step by step. -/
theorem Yields.forM_part {δ γ : Type} (p : Inventory.Part δ) (step : δ → γ → δ)
    {f : γ → Survey Unit} {l : List γ}
    (hf : ∀ a ∈ l, ∀ i, (f a).Yields σ i machines fun _ i' machines' =>
      i' = p.put (step (p.get i) a) i ∧ machines' = machines) :
    (l.forM f).Yields σ i machines fun _ i' machines' =>
      i' = p.put (l.foldl step (p.get i)) i ∧ machines' = machines := by
  refine (Yields.forM hf).mono ?_
  rintro _ _ _ ⟨rfl, rfl⟩
  exact ⟨p.foldl_put step l i, rfl⟩

/-- A step that changes one part of the inventory under some condition. -/
theorem Yields.ite_part {q : Prop} [Decidable q] {δ : Type} (p : Inventory.Part δ) {d : δ}
    {s : Survey Unit} {f : Unit → Survey α} {post : α → Inventory → List Machine → Prop}
    (hs : q → s.Yields σ i machines fun _ i' machines' =>
      i' = p.put d i ∧ machines' = machines)
    (hf : (f ()).Yields σ (p.put (if q then d else p.get i) i) machines post) :
    Yields σ (if q then s >>= f else f ()) i machines post := by
  split
  next hq =>
    rw [if_pos hq] at hf
    refine .bind (hs hq) ?_
    rintro _ _ _ ⟨rfl, rfl⟩
    exact hf
  next hq => rwa [if_neg hq, p.put_get] at hf

/-- A step that is made under some condition and leaves all as it is. -/
theorem Yields.ite_same {q : Prop} [Decidable q] {s : Survey Unit} {f : Unit → Survey α}
    {post : α → Inventory → List Machine → Prop}
    (hs : q → s.Yields σ i machines fun _ i' machines' => i' = i ∧ machines' = machines)
    (hf : (f ()).Yields σ i machines post) :
    Yields σ (if q then s >>= f else f ()) i machines post := by
  refine .ite_bind hs (fun _ => ⟨rfl, rfl⟩) ?_
  rintro _ _ ⟨rfl, rfl⟩
  exact hf

/-- A loop that leaves all as it is. -/
theorem Yields.forM_same {γ : Type} {f : γ → Survey Unit} {l : List γ}
    (hf : ∀ a ∈ l, (f a).Yields σ i machines fun _ i' machines' =>
      i' = i ∧ machines' = machines) :
    (l.forM f).Yields σ i machines fun _ i' machines' => i' = i ∧ machines' = machines := by
  induction l with
  | nil => exact .pure ⟨rfl, rfl⟩
  | cons a l ih =>
    obtain ⟨ha, hl⟩ := List.forall_mem_cons.1 hf
    refine .bind ha ?_
    rintro _ _ _ ⟨rfl, rfl⟩
    exact ih hl

/-- The same for every cluster of its own. -/
theorem Yields.forM_distinct {δ : Type} (p : Inventory.Part δ) (step : δ → Side → δ)
    {f : Cluster → Survey Unit}
    (hf : ∀ side i, (f (clients.get side)).Yields σ i machines fun _ i' machines' =>
      i' = p.put (step (p.get i) side) i ∧ machines' = machines) :
    (clients.distinct.forM f).Yields σ i machines fun _ i' machines' =>
      i' = p.put (clients.sides.foldl step (p.get i)) i ∧ machines' = machines := by
  have hsides : clients.distinct.forM f = clients.sides.forM fun side => f (clients.get side) := by
    unfold Clients.distinct Clients.sides
    split <;> rfl
  rw [hsides]
  exact .forM_part p step fun side _ => hf side

theorem listPods_yields (h : Stocked clients stores machines) (what : String) (side : Side)
    (ns selector : String) :
    (listPods what (clients.get side) ns selector).Yields σ i machines fun pods i' machines' =>
      pods = listedOn clients stores ns selector side ∧ i' = i ∧ machines' = machines := by
  refine .bind (.check (h.request side (r := .listPods ns selector) trivial rfl what)) ?_
  rintro _ _ _ ⟨⟨rfl, rfl⟩, rfl⟩
  exact .pure ⟨rfl, rfl, rfl⟩

theorem listServices_yields (h : Stocked clients stores machines) (what : String) (side : Side)
    (ns selector : String) :
    (listServices what (clients.get side) ns selector).Yields σ i machines
      fun services i' machines' =>
        services = (stores side).listServices ns selector ∧ i' = i ∧ machines' = machines := by
  refine (Yields.check (h.request side (r := .listServices ns selector) trivial rfl what)).mono ?_
  rintro _ _ _ ⟨⟨rfl, rfl⟩, rfl⟩
  exact ⟨rfl, rfl, rfl⟩

/-- The pods that are listed on every cluster, the source first. -/
def listed (clients : Clients) (stores : Side → Store) (ns selector : String) : List Pod :=
  clients.sides.flatMap (listedOn clients stores ns selector)

theorem foldl_addPods {γ : Type} (d : Dict String Pod) (pods : γ → List Pod) (l : List γ) :
    l.foldl (fun d a => addPods d (pods a)) d = addPods d (l.flatMap pods) :=
  List.foldl_flatMap.symm

theorem agentPods_yields (h : Stocked clients stores machines) :
    (agentPods clients settings).Yields σ i machines fun _ i' machines' =>
      i' = { i with
        agentPods := addPods i.agentPods
          (listed clients stores settings.agentNamespace settings.agentSelector) } ∧
      machines' = machines := by
  refine (Yields.forM_distinct .ofAgentPods (fun d side => addPods d
    (listedOn clients stores settings.agentNamespace settings.agentSelector side))
    fun side i => ?_).mono ?_
  · refine .bind (listPods_yields h _ side _ _) ?_
    rintro _ _ _ ⟨rfl, rfl, rfl⟩
    exact .record _
  · rintro _ _ _ ⟨rfl, rfl⟩
    rw [foldl_addPods]
    exact ⟨rfl, rfl⟩

theorem deployments_yields (h : Stocked clients stores machines) (side : Side)
    {names : List String} (htime : settings.Timely σ.now)
    (hready : ∀ name ∈ names, ∃ d,
      (stores side).get .deployment ⟨settings.testNamespace, name⟩ = .ok d ∧
        d.readiness = some (.ok ())) :
    (deployments (clients.get side) settings names).Yields σ i machines fun _ i' machines' =>
      i' = i ∧ machines' = machines := by
  unfold deployments
  split
  next => exact .pure ⟨rfl, rfl⟩
  next => exact .check_same (Check.deployments_yields h side htime.podReady hready)

variable {items : Side → List Topology.Item}

theorem endpoint_yields (h : Furnished clients stores settings.testNamespace items machines)
    (htime : settings.Timely σ.now) {side : Side} {selector : String} {pod : Pod}
    (hpod : pod ∈ listedOn clients stores settings.testNamespace selector side)
    (hnetwork : pod.hostNetwork = false) :
    (endpoint settings pod).Yields σ i machines fun _ i' machines' =>
      i' = i ∧ machines' = machines := by
  have hendpoint := h.getEndpoint hpod hnetwork
  rw [endpoint, (h.stands hpod).cluster]
  exact .check_same (Check.endpoint_yields h.toStocked htime.endpoint hendpoint)

/-- Records a pod of a performance run by its role. -/
def recordPerformance (i : Inventory) (pod : Pod) : Inventory :=
  if (pod.label? "server").isSome then
    let pod := pod.withPort Topology.performancePort
    { i with performanceServers := i.performanceServers.insert pod.name pod }
  else { i with performanceClients := i.performanceClients.insert pod.name pod }

theorem performancePods_yields
    (h : Furnished clients stores settings.testNamespace items machines)
    (htime : settings.Timely σ.now) :
    (performancePods clients settings).Yields σ i machines fun _ i' machines' =>
      i' = ((listedOn clients stores settings.testNamespace WorkloadKind.performance.selector
        .source).filter (·.hostNetwork == settings.performanceHostNetwork)).foldl
          recordPerformance i ∧
      machines' = machines := by
  refine .bind (listPods_yields h.toStocked _ .source _ _) ?_
  rintro _ _ _ ⟨rfl, rfl, rfl⟩
  refine .forM fun pod hpod i => ?_
  obtain ⟨hpod, hsame⟩ := List.mem_filter.1 hpod
  refine .ite_bind (fun hown => endpoint_yields h htime hpod ?_) (fun _ => ⟨rfl, rfl⟩) ?_
  · simpa [beq_iff_eq.1 hsame] using hown
  · rintro _ _ ⟨rfl, rfl⟩
    exact .record _

theorem clientPods_yields (h : Furnished clients stores settings.testNamespace items machines)
    (htime : settings.Timely σ.now)
    (hnetwork : ∀ pod ∈ listedOn clients stores settings.testNamespace
      WorkloadKind.client.selector .source, pod.hostNetwork = false) :
    (clientPods clients settings).Yields σ i machines fun _ i' machines' =>
      i' = { i with
        clientPods := addPods i.clientPods
          (listedOn clients stores settings.testNamespace WorkloadKind.client.selector .source) } ∧
      machines' = machines := by
  refine .bind (listPods_yields h.toStocked _ .source _ _) ?_
  rintro _ _ _ ⟨rfl, rfl, rfl⟩
  refine .forM_part .ofClientPods (fun d pod => d.insert pod.name pod) fun pod hpod i => ?_
  refine .bind (endpoint_yields h htime hpod (hnetwork pod hpod)) ?_
  rintro _ _ _ ⟨rfl, rfl⟩
  exact .record _

theorem podNames_yields (h : Stocked clients stores machines) (htime : settings.Timely σ.now)
    (hi : i.Manned clients stores ns) (target : Pod) :
    (podNames settings target).Yields σ i machines fun _ i' machines' =>
      i' = i ∧ machines' = machines := by
  refine .inventory_bind (.check_same ?_)
  refine .within (.forM fun source hsource => ?_) htime.identity.positive htime.identity.reckoned
  exact Check.podNames_yields h (hi.stands hsource) target

/-- An echo deployment of which just one pod is listed. -/
theorem echoPodNames_yields (h : Stocked clients stores machines) (htime : settings.Timely σ.now)
    (hi : i.Manned clients stores ns) {side : Side} {deployment : String}
    (hone : (listedOn clients stores settings.testNamespace (nameSelector deployment) side).length
      = 1) (what : String) :
    (echoPodNames (clients.get side) settings deployment what).Yields σ i machines
      fun _ i' machines' => i' = i ∧ machines' = machines := by
  obtain ⟨pod, hpod⟩ := List.length_eq_one_iff.1 hone
  have hsingle : (singleEchoPod (clients.get side) settings deployment what).Yields σ i machines
      fun _ i' machines' => i' = i ∧ machines' = machines := by
    refine .bind (listPods_yields h what side _ _) ?_
    rintro _ _ _ ⟨rfl, rfl, rfl⟩
    rw [hpod]
    exact .pure ⟨rfl, rfl⟩
  refine .bind hsingle ?_
  rintro target _ _ ⟨rfl, rfl⟩
  exact podNames_yields h htime hi target

theorem clusterNames_yields (h : Stocked clients stores machines) (htime : settings.Timely σ.now)
    (hi : i.Manned clients stores ns) :
    (clusterNames settings).Yields σ i machines fun _ i' machines' =>
      i' = i ∧ machines' = machines := by
  refine .inventory_bind (.check_same ?_)
  refine .within (.forM fun pod hpod => ?_) htime.identity.positive htime.identity.reckoned
  exact Check.clusterNames_yields h (hi.stands hpod)

theorem externalEchoPods_yields (h : Stocked clients stores machines) :
    (externalEchoPods clients settings).Yields σ i machines fun _ i' machines' =>
      i' = { i with
        externalEchoPods := addPods i.externalEchoPods
          ((listedOn clients stores settings.testNamespace
            (nameSelector Topology.echoExternalNodeName) .destination).map
              (·.withEndpoint "http" Topology.echoPort)) } ∧
      machines' = machines := by
  refine .bind (listPods_yields h _ .destination _ _) ?_
  rintro _ _ _ ⟨rfl, rfl, rfl⟩
  exact .record _

theorem echoPods_yields (h : Furnished clients stores settings.testNamespace items machines)
    (htime : settings.Timely σ.now)
    (hnetwork : ∀ side, ∀ pod ∈ listedOn clients stores settings.testNamespace
      WorkloadKind.echo.selector side, pod.hostNetwork = false) :
    (echoPods clients settings).Yields σ i machines fun _ i' machines' =>
      i' = { i with
        echoPods := addPods i.echoPods
          ((listed clients stores settings.testNamespace WorkloadKind.echo.selector).map
            (·.withEndpoint "http" Topology.echoPort)) } ∧
      machines' = machines := by
  refine (Yields.forM_distinct .ofEchoPods (fun d side => addPods d
    ((listedOn clients stores settings.testNamespace WorkloadKind.echo.selector side).map
      (·.withEndpoint "http" Topology.echoPort))) fun side i => ?_).mono ?_
  · refine .bind (listPods_yields h.toStocked _ side _ _) ?_
    rintro _ _ _ ⟨rfl, rfl, rfl⟩
    rw [addPods, List.foldl_map]
    refine .forM_part .ofEchoPods (fun d (pod : Pod) =>
      d.insert pod.name (pod.withEndpoint "http" Topology.echoPort)) fun pod hpod i => ?_
    refine .bind (endpoint_yields h htime hpod (hnetwork side pod hpod)) ?_
    rintro _ _ _ ⟨rfl, rfl⟩
    exact .record _
  · rintro _ _ _ ⟨rfl, rfl⟩
    rw [foldl_addPods, listed, List.map_flatMap]
    exact ⟨rfl, rfl⟩

/-- Services with names of their own that are all new are all added. -/
theorem addServices_of_nodup (keepFirst : Bool) {d : Dict String Manifest.Service}
    {services : List Manifest.Service} (hnodup : (services.map (·.metadata.title)).Nodup)
    (hnew : ∀ s ∈ services, d.contains s.metadata.title = false) :
    addServices keepFirst d services =
      d.insertAll (services.map fun s => (s.metadata.title, s)) := by
  induction services generalizing d with
  | nil => rfl
  | cons s services ih =>
    obtain ⟨hs, hservices⟩ := List.forall_mem_cons.1 hnew
    obtain ⟨hother, hnodup⟩ := List.nodup_cons.1 hnodup
    have hstep : addServices keepFirst d (s :: services) =
        addServices keepFirst (d.insert s.metadata.title s) services := by
      simp [addServices, hs]
    refine hstep.trans (ih hnodup fun s' hs' => ?_)
    rw [Bool.eq_false_iff, ne_eq, Dict.contains_insert, not_or]
    refine ⟨fun htitle => hother (List.mem_map.2 ⟨s', hs', htitle⟩), ?_⟩
    exact Bool.eq_false_iff.1 (hservices s' hs')

/-- Where the first one stays, services whose names are known are not added. -/
theorem addServices_of_contains {d : Dict String Manifest.Service}
    {services : List Manifest.Service} (h : ∀ s ∈ services, d.contains s.metadata.title = true) :
    addServices true d services = d := by
  induction services with
  | nil => rfl
  | cons s services ih =>
    obtain ⟨hs, hservices⟩ := List.forall_mem_cons.1 h
    have hstep : addServices true d (s :: services) = addServices true d services := by
      simp [addServices, hs]
    exact hstep.trans (ih hservices)

theorem contains_addServices (keepFirst : Bool) {d : Dict String Manifest.Service}
    {services : List Manifest.Service} {name : String} :
    (addServices keepFirst d services).contains name = true ↔
      d.contains name = true ∨ name ∈ services.map (·.metadata.title) := by
  induction services generalizing d with
  | nil => simp [addServices]
  | cons s services ih =>
    refine ih.trans ?_
    rw [List.map_cons, List.mem_cons, ← or_assoc]
    refine or_congr_left ?_
    dsimp only
    split
    next hkept =>
      have hthere : d.contains s.metadata.title = true := (Bool.and_eq_true_iff.1 hkept).2
      refine ⟨.inl, ?_⟩
      rintro (hname | rfl)
      · exact hname
      · exact hthere
    next => exact Dict.contains_insert.trans or_comm

/-- The echo services that are kept of those that the clusters list. -/
def servicesKept (clients : Clients) (stores : Side → Store) (settings : Settings) :
    Dict String Manifest.Service :=
  clients.sides.foldl (fun d side => addServices settings.isMultiCluster d
    ((stores side).listServices settings.testNamespace WorkloadKind.echo.selector)) ∅

theorem echoServices_yields (h : Stocked clients stores machines) (hi : i.echoServices = ∅) :
    (echoServices clients settings).Yields σ i machines fun _ i' machines' =>
      i' = { i with echoServices := servicesKept clients stores settings } ∧
      machines' = machines := by
  refine (Yields.forM_distinct .ofEchoServices (fun d side => addServices settings.isMultiCluster d
    ((stores side).listServices settings.testNamespace WorkloadKind.echo.selector))
    fun side i => ?_).mono ?_
  · refine .bind (listServices_yields h _ side _ _) ?_
    rintro _ _ _ ⟨rfl, rfl, rfl⟩
    exact .record _
  · rintro _ _ _ ⟨rfl, rfl⟩
    rw [show Inventory.Part.ofEchoServices.get i = ∅ from hi]
    exact ⟨rfl, rfl⟩

theorem resolvedServices_yields (h : Stocked clients stores machines)
    (htime : settings.Timely σ.now) (hi : i.Manned clients stores ns)
    (hresolves : ∀ s ∈ i.echoServices.values, (stores .source).Resolves ns s) :
    (resolvedServices settings).Yields σ i machines fun _ i' machines' =>
      i' = i ∧ machines' = machines := by
  refine .inventory_bind (.forM_same fun s hs => .check_same ?_)
  exact Check.service_yields h hi (hresolves s hs) htime.serviceReady

theorem ingressServices_yields (h : Stocked clients stores machines) :
    (ingressServices clients settings).Yields σ i machines fun _ i' machines' =>
      i' = { i with
        ingressServices := addServices false i.ingressServices
          ((stores .source).listServices settings.testNamespace "cilium.io/ingress=true") } ∧
      machines' = machines := by
  refine .bind (listServices_yields h _ .source _ _) ?_
  rintro _ _ _ ⟨rfl, rfl, rfl⟩
  exact .record _

theorem nodePorts_yields (h : Stocked clients stores machines) (htime : settings.Timely σ.now)
    (hi : i.Manned clients stores ns) :
    (nodePorts settings).Yields σ i machines fun _ i' machines' =>
      i' = i ∧ machines' = machines := by
  refine .inventory_bind (.forM_same fun agent _ => ?_)
  split
  next => exact .pure ⟨rfl, rfl⟩
  next nodeIP _ =>
    exact .forM_same fun s _ => .check_same
      (Check.nodePorts_yields h hi nodeIP s htime.serviceReady)

theorem hostNetworkPods_yields (h : Stocked clients stores machines) :
    (hostNetworkPods clients settings).Yields σ i machines fun _ i' machines' =>
      i' = { i with
        hostNetworkPods := i.hostNetworkPods.insertAll
          ((listedOn clients stores settings.testNamespace WorkloadKind.hostNetwork.selector
            .destination).map fun pod => (pod.nodeName.getD "", pod)) } ∧
      machines' = machines := by
  refine .bind (listPods_yields h _ .destination _ _) ?_
  rintro _ _ _ ⟨rfl, rfl, rfl⟩
  rw [Dict.insertAll, List.foldl_map]
  exact .record _

/-- The clusters know of no external workloads. -/
theorem externalWorkloads_yields (h : Furnished clients stores ns items machines) :
    (externalWorkloads clients).Yields σ i machines fun _ i' machines' =>
      i' = i ∧ machines' = machines := by
  refine .forM_same fun cluster hcluster => ?_
  obtain ⟨side, rfl⟩ := Clients.exists_of_mem_distinct hcluster
  have hanswered := h.answered side (r := .listExternalWorkloads) trivial
  have hmissing : (stores side).listExternalWorkloads =
      .error (.notFound "customresourcedefinition" "ciliumexternalworkloads.cilium.io") := by
    rw [Store.listExternalWorkloads, (h.hosts side).allowed, (h.hosts side).externalWorkloads]
    rfl
  refine .bind (.check (.attempt h.quiet "external workload list"
    ⟨clients.get side, .listExternalWorkloads⟩)) ?_
  rintro _ _ _ ⟨⟨rfl, rfl⟩, rfl⟩
  rw [hanswered]
  simp only [Store.answer, hmissing]
  exact .pure ⟨rfl, rfl⟩

theorem identities_yields (h : Furnished clients stores ns items machines)
    (htime : settings.Timely σ.now)
    (hknown : ∀ agent ∈ i.agentPods.values, ∃ side, agent.Stands clients stores side ∧
      Check.judgeCache i (stores side).identityDump = .ok ()) :
    (identities settings).Yields σ i machines fun _ i' machines' =>
      i' = i ∧ machines' = machines := by
  refine .inventory_bind (.check_same ?_)
  refine .within (.forM fun agent hagent => ?_) htime.identity.positive htime.identity.reckoned
  obtain ⟨side, hstands, hcache⟩ := hknown agent hagent
  exact Check.identities_yields h.toStocked hstands hcache _

theorem mem_of_mem_values_addPods {pods : List Pod} {pod : Pod}
    (h : pod ∈ (addPods ∅ pods).values) : pod ∈ pods := by
  obtain ⟨name, hname⟩ := Dict.mem_values_iff.1 h
  rw [get?_addPods, Dict.get?_empty, Option.or_none] at hname
  exact List.mem_reverse.1 (List.mem_of_find?_eq_some hname)

/-- Pods with names of their own are all kept. -/
theorem values_addPods_perm {pods : List Pod} (h : (pods.map Pod.name).Nodup) :
    (addPods ∅ pods).values.Perm pods := by
  have hlist : addPods ∅ pods = .ofList (pods.map fun pod => (pod.name, pod)) := by
    rw [addPods, Dict.ofList, Dict.insertAll, List.foldl_map]
  have hkeys : ((pods.map fun pod => (pod.name, pod)).map Prod.fst).Nodup := by
    rwa [List.map_map]
  have hperm := (Dict.entries_ofList_perm hkeys).map Prod.snd
  rw [List.map_map] at hperm
  rw [hlist, Dict.values]
  exact hperm.trans (.of_eq (List.map_id pods))

theorem manned (h : Furnished clients stores ns items machines) {selector : String}
    (hsome : listedOn clients stores ns selector .source ≠ [])
    (hi : i.clientPods = addPods ∅ (listedOn clients stores ns selector .source)) :
    i.Manned clients stores ns := by
  have hperm : i.clientPods.values.Perm (listedOn clients stores ns selector .source) := by
    rw [hi]
    exact values_addPods_perm (h.names_nodup _ _)
  refine ⟨fun hnil => hsome ?_, fun hpod => ?_, fun hpod => ?_⟩
  · rwa [hnil, List.nil_perm] at hperm
  · exact h.stands (hperm.mem_iff.1 hpod)
  · exact h.space (hperm.mem_iff.1 hpod)

/-- What a validation of connectivity finds on clusters with these stores, if these ingress
services were expected. -/
def found (clients : Clients) (stores : Side → Store) (settings : Settings) (features : FeatureSet)
    (expected : Dict String Manifest.Service) : Inventory :=
  let ns := settings.testNamespace
  { agentPods :=
      addPods ∅ (listed clients stores settings.agentNamespace settings.agentSelector)
    clientPods := addPods ∅ (listedOn clients stores ns WorkloadKind.client.selector .source)
    echoPods :=
      addPods ∅ ((listed clients stores ns WorkloadKind.echo.selector).map
        (·.withEndpoint "http" Topology.echoPort))
    externalEchoPods :=
      if features.enabled .nodeWithoutCilium then
        addPods ∅ ((listedOn clients stores ns (nameSelector Topology.echoExternalNodeName)
          .destination).map (·.withEndpoint "http" Topology.echoPort))
      else ∅
    hostNetworkPods :=
      .ofList ((listedOn clients stores ns WorkloadKind.hostNetwork.selector .destination).map
        fun pod => (pod.nodeName.getD "", pod))
    echoServices := servicesKept clients stores settings
    ingressServices :=
      if features.enabled .ingressController then
        addServices false expected ((stores .source).listServices ns "cilium.io/ingress=true")
      else expected }

/-- What a validation of connectivity relies on: pods that are not on the networks of their nodes,
single pods for each echo deployment, services that resolve, and agents that know the pods. -/
structure Sound (clients : Clients) (stores : Side → Store) (settings : Settings)
    (features : FeatureSet) (expected : Dict String Manifest.Service) : Prop where
  clientPods :
    listedOn clients stores settings.testNamespace WorkloadKind.client.selector .source ≠ []
  clientNetworks : ∀ pod ∈ listedOn clients stores settings.testNamespace
    WorkloadKind.client.selector .source, pod.hostNetwork = false
  sameNode : (listedOn clients stores settings.testNamespace
    (nameSelector Topology.echoSameNodeName) .source).length = 1
  otherNode (h : settings.spansNodes = true) : (listedOn clients stores settings.testNamespace
    (nameSelector Topology.echoOtherNodeName) .destination).length = 1
  echoNetworks (side : Side) : ∀ pod ∈ listedOn clients stores settings.testNamespace
    WorkloadKind.echo.selector side, pod.hostNetwork = false
  services : ∀ s ∈ (servicesKept clients stores settings).values,
    (stores .source).Resolves settings.testNamespace s
  identities (h : settings.skipIdentityCheck = false) :
    ∀ agent ∈ (found clients stores settings features expected).agentPods.values,
      ∃ side, agent.Stands clients stores side ∧
        Check.judgeCache (found clients stores settings features expected)
          (stores side).identityDump = .ok ()

theorem connectivity_yields (h : Furnished clients stores settings.testNamespace items machines)
    (htime : settings.Timely σ.now) {features : FeatureSet}
    {expected : Dict String Manifest.Service}
    (hsound : Sound clients stores settings features expected) :
    (connectivity clients settings features).Yields σ
      { agentPods :=
          addPods ∅ (listed clients stores settings.agentNamespace settings.agentSelector)
        ingressServices := expected }
      machines fun _ i' machines' =>
        i' = found clients stores settings features expected ∧ machines' = machines := by
  refine .bind (clientPods_yields h htime hsound.clientNetworks) ?_
  rintro _ _ _ ⟨rfl, rfl⟩
  have hmanned {i : Inventory} (hi : i.clientPods = addPods ∅ (listedOn clients stores
      settings.testNamespace WorkloadKind.client.selector .source)) :
      i.Manned clients stores settings.testNamespace :=
    manned h hsound.clientPods hi
  have hstocked := h.toStocked
  refine .bind (echoPodNames_yields hstocked htime (hmanned (by rfl)) hsound.sameNode _) ?_
  rintro _ _ _ ⟨rfl, rfl⟩
  refine .ite_same (fun hspans => echoPodNames_yields hstocked htime (hmanned (by rfl))
    (hsound.otherNode hspans) _) ?_
  refine .ite_part .ofExternalEchoPods (fun _ => externalEchoPods_yields hstocked) ?_
  refine .bind (clusterNames_yields hstocked htime (hmanned (by rfl))) ?_
  rintro _ _ _ ⟨rfl, rfl⟩
  refine .bind (echoPods_yields h htime hsound.echoNetworks) ?_
  rintro _ _ _ ⟨rfl, rfl⟩
  refine .bind (echoServices_yields hstocked rfl) ?_
  rintro _ _ _ ⟨rfl, rfl⟩
  refine .bind (resolvedServices_yields hstocked htime (hmanned (by rfl)) hsound.services) ?_
  rintro _ _ _ ⟨rfl, rfl⟩
  refine .ite_part .ofIngressServices (fun _ => ingressServices_yields hstocked) ?_
  refine .ite_same (fun _ => nodePorts_yields hstocked htime (hmanned (by rfl))) ?_
  refine .bind (hostNetworkPods_yields hstocked) ?_
  rintro _ _ _ ⟨rfl, rfl⟩
  refine .bind (externalWorkloads_yields h) ?_
  rintro _ _ _ ⟨rfl, rfl⟩
  split
  next hchecked =>
    refine (identities_yields h htime (hsound.identities (by simpa using hchecked))).mono ?_
    rintro _ _ _ ⟨rfl, rfl⟩
    exact ⟨rfl, rfl⟩
  next => exact .pure ⟨rfl, rfl⟩

end Survey

end Reachability
