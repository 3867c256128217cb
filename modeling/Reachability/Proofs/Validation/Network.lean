import Reachability.Proofs.Cluster.Record
import Reachability.Proofs.Validation.Evidence

namespace Reachability

open Reachability.Topology (WorkloadKind echoOtherNodeName echoSameNodeName nameSelector)
open Wait (Instant Limits Moment)

/-- What a validation has exchanged, once it had listed the agents, shows that the network of its
final inventory works. -/
structure NetworkCertified (exchanges : List Exchange) (clients : Clients) (settings : Settings)
    (features : FeatureSet) (i : Inventory) : Prop where
  /-- Every deployment that the plan waits for has been ready, each on its cluster. -/
  sourceReady (zone : String) :
    ∀ name ∈ (Topology.plan settings features zone).sourceDeployments,
      DeploymentReady (· ∈ exchanges) clients.source ⟨settings.testNamespace, name⟩
  destinationReady (zone : String) :
    ∀ name ∈ (Topology.plan settings features zone).destinationDeployments,
      DeploymentReady (· ∈ exchanges) clients.destination ⟨settings.testNamespace, name⟩
  /-- Every client and echo pod has had its endpoint. -/
  endpoints : ∀ pod ∈ i.clientPods.values ++ i.echoPods.values,
    EndpointThere (· ∈ exchanges) settings.testNamespace pod
  /-- Each echo deployment has had one pod, and every client pod could use the name server beside
  it. The echo deployment on another node counts if and only if the topology spans nodes. -/
  sameNode : EchoPodNames (· ∈ exchanges) clients.source settings.testNamespace echoSameNodeName
    i.clientPods.values
  otherNode : settings.spansNodes = true → EchoPodNames (· ∈ exchanges) clients.destination
    settings.testNamespace echoOtherNodeName i.clientPods.values
  otherNodeOnly : ∀ x ∈ exchanges, ∀ space,
    x.call.request = .listPods space (nameSelector echoOtherNodeName) → settings.spansNodes = true
  /-- Every client pod could resolve names of the cluster. -/
  clusterNames : ∀ pod ∈ i.clientPods.values, ClusterNamesResolved (· ∈ exchanges) pod
  /-- Every echo service resolved to its address from some client pod. -/
  services : ∀ s ∈ i.echoServices.values,
    ∃ pod ∈ i.clientPods.values, ServiceResolvedFrom (· ∈ exchanges) s pod
  /-- In one cluster, every node port answered at every node that runs an agent. -/
  nodePorts : settings.isMultiCluster = false → ∀ agent ∈ i.agentPods.values,
    ∀ nodeIP, agent.hostIP = some nodeIP → ∀ s ∈ i.echoServices.values, ∀ port ∈ s.nodePorts,
      ∃ pod ∈ i.clientPods.values, PortReachedFrom (· ∈ exchanges) nodeIP port pod

/-- A validation that succeeds has listed the agents and then seen every part of the network work,
on whatever clusters, within whatever time and after however many failures. -/
theorem validate_certifies_network (w : Wait.World clusterApi) (clients : Clients)
    (settings : Settings) (features : FeatureSet) (hperformance : settings.performance = false)
    (patience : Nat) (l : Limits) (t : Instant) (s : w.State) {i : Inventory} {m : Moment w}
    (hrun : ((validate clients settings features).run.run ∅).run w patience l ⟨t, s, []⟩ =
      (.returned (.ok (), i), m)) :
    ∃ before after,
      ((validate clients settings features).run.run ∅).exchanges w patience l t s =
        before ++ after ∧
      (∀ x ∈ before,
        x.call.request = .listPods settings.agentNamespace settings.agentSelector) ∧
      NetworkCertified after clients settings features i := by
  obtain ⟨before, after, heq, hbefore, hinspects, hsource, hdestination, hconnected⟩ :=
    validate_shows hperformance (Wait.Procedure.admits_exchanges hrun)
  have hplan (zone : String) :
      Topology.plan settings features zone = Topology.plan settings features "" := by
    simp only [Topology.plan, hperformance, Bool.false_eq_true, if_false]
  refine ⟨before, after, heq, hbefore, {
    sourceReady := fun zone => by rwa [hplan]
    destinationReady := fun zone => by rwa [hplan]
    endpoints := List.forall_mem_append.2 ⟨hconnected.clientEndpoints, hconnected.echoEndpoints⟩
    sameNode := hconnected.sameNode
    otherNode := hconnected.otherNode
    otherNodeOnly := fun x hx space hlist => ?_
    clusterNames := hconnected.clusterNames
    services := hconnected.services
    nodePorts := hconnected.nodePorts }⟩
  have hx := hinspects x hx
  rw [hlist] at hx
  exact hx rfl

/-- A pod in a network of few. -/
def calmPod (name ip : String) : Manifest.Pod :=
  { metadata :=
      { name := some name, space := some "cilium-test", labels := .ofList [("name", name)] }
    hostIP := some "10.0.0.1"
    podIP := some ip }

/-- A service with one node port. -/
def calmService : Manifest.Service :=
  { metadata := { name := some echoSameNodeName }
    clusterIP := some "10.96.0.11"
    ports := [{ number := 80, nodePort := some 30010 }] }

/-- A deployment whose replica is ready. -/
def calmDeployment : Manifest.Deployment where
  status := some
    { replicas := some 1, updated := some 1, available := some 1, ready := some 1 }

def calmAnswer : (r : Request) → Except Failure r.Answer
  | .get .deployment _ => .ok calmDeployment
  | .get .space _ | .get .configMap _ | .get .service _ | .get .serviceAccount _
  | .get .daemonSet _ | .get .ingress _ => .ok ()
  | .create .. | .delete .. | .getEndpoint _ => .ok ()
  | .listPods _ selector =>
    .ok <|
      if selector = "k8s-app=cilium" then [calmPod "cilium" "10.0.0.1"]
      else if selector = WorkloadKind.client.selector then [calmPod "client" "10.0.1.1"]
      else if selector = nameSelector echoSameNodeName ∨ selector = WorkloadKind.echo.selector then
        [calmPod echoSameNodeName "10.0.1.2"]
      else []
  | .listServices .. => .ok [calmService]
  | .listNodes => .ok []
  | .listExternalWorkloads => .ok []
  | .exec _ _ words =>
    .ok <|
      if words = Check.cacheCommand then
        "\x7b\"10.0.1.1/32\":[\"identity=1000\"],\"10.0.1.2/32\":[\"identity=1001\"]\x7d"
      else "Address: 10.96.0.11\n"

/-- One agent, one client, one echo pod and one service, where everything works at once. -/
def calmNetwork : Wait.World clusterApi where
  State := Unit
  start _ c := ((), some (1, fun _ => ((), calmAnswer c.request)))
  choose _ _ := ((), ⟨0, Nat.succ_pos _⟩)

def calmClients : Clients := .single ⟨0, "kind"⟩

/-- All that there is to find in the calm network. -/
def calmInventory : Inventory :=
  let pod (object : Manifest.Pod) : Pod := { cluster := calmClients.source, object }
  let client := pod (calmPod "client" "10.0.1.1")
  let echo := (pod (calmPod echoSameNodeName "10.0.1.2")).withEndpoint "http" Topology.echoPort
  { agentPods := .ofList [("cilium", pod (calmPod "cilium" "10.0.0.1"))]
    clientPods := .ofList [("client", client)]
    echoPods := .ofList [(echoSameNodeName, echo)]
    echoServices := .ofList [(echoSameNodeName, calmService)] }

theorem calmNetwork_run : ∃ m : Moment calmNetwork,
    ((validate calmClients { singleNode := true } ∅).run.run ∅).run calmNetwork 0 {} ⟨0, (), []⟩ =
      (.returned (.ok (), calmInventory), m) := by
  have hsucceeds : (((validate calmClients { singleNode := true } ∅).run.run ∅).run calmNetwork 0 {}
      ⟨0, (), []⟩).1 = .returned (.ok (), calmInventory) := by decide +kernel
  rw [← hsucceeds]
  exact ⟨_, (Prod.eta _).symm⟩

/-- The one port of the one service has been reached from the one client. -/
theorem calmNetwork_certified : ∃ exchanges,
    NetworkCertified exchanges calmClients { singleNode := true } ∅ calmInventory ∧
      PortReachedFrom (· ∈ exchanges) "10.0.0.1" 30010
        ⟨calmClients.source, calmPod "client" "10.0.1.1", none, none⟩ := by
  obtain ⟨m, hrun⟩ := calmNetwork_run
  obtain ⟨before, after, -, -, hcertified⟩ := validate_certifies_network calmNetwork calmClients
    { singleNode := true } ∅ rfl 0 {} 0 () hrun
  obtain ⟨pod, hpod, hreached⟩ := hcertified.nodePorts rfl _ (.head _) "10.0.0.1" rfl calmService
    (.head _) 30010 (by decide)
  obtain rfl := List.mem_singleton.1 hpod
  exact ⟨after, hcertified, hreached⟩

end Reachability
