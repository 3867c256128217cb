import Reachability.Cluster.Checks
import Reachability.Cluster.Survey

namespace Reachability

open Reachability.Topology (WorkloadKind nameSelector)

namespace Survey

/-- Pods by their names, later ones in place of earlier ones. -/
def addPods (d : Dict String Pod) (pods : List Pod) : Dict String Pod :=
  pods.foldl (fun d p => d.insert p.name p) d

def listPods (what : String) (cluster : Cluster) (ns selector : String) : Survey (List Pod) := do
  return (← request what cluster (.listPods ns selector)).map fun object => { cluster, object }

def listServices (what : String) (cluster : Cluster) (ns selector : String) :
    Survey (List Manifest.Service) := request what cluster (.listServices ns selector)

/-- The agents of every cluster. -/
def agentPods (clients : Clients) (settings : Settings) : Survey Unit :=
  clients.distinct.forM fun cluster => do
    let pods ← listPods "agent pod list" cluster settings.agentNamespace settings.agentSelector
    record fun i => { i with agentPods := addPods i.agentPods pods }

/-- Waits for the deployments of one side, if it has any. -/
def deployments (cluster : Cluster) (settings : Settings) (names : List String) : Survey Unit :=
  if names.isEmpty then pure ()
  else check (Check.deployments cluster settings.testNamespace names settings.podReadyTime)

/-- Waits for the endpoint of a pod in the test namespace. -/
def endpoint (settings : Settings) (pod : Pod) : Survey Unit :=
  check (Check.endpoint pod.cluster ⟨settings.testNamespace, pod.name⟩ settings.endpointTime)

/-- The workloads of a performance run. Pods on the other kind of network may be left over from
another run; those on the network of their node have no endpoint. -/
def performancePods (clients : Clients) (settings : Settings) : Survey Unit := do
  let pods ← listPods "perf pod list" clients.source settings.testNamespace
    WorkloadKind.performance.selector
  (pods.filter (·.hostNetwork == settings.performanceHostNetwork)).forM fun pod => do
    if !settings.performanceHostNetwork then endpoint settings pod
    record fun i =>
      if (pod.label? "server").isSome then
        let pod := pod.withPort Topology.performancePort
        { i with performanceServers := i.performanceServers.insert pod.name pod }
      else { i with performanceClients := i.performanceClients.insert pod.name pod }

def clientPods (clients : Clients) (settings : Settings) : Survey Unit := do
  let pods ← listPods "client pod list" clients.source settings.testNamespace
    WorkloadKind.client.selector
  pods.forM fun pod => do
    endpoint settings pod
    record fun i => { i with clientPods := i.clientPods.insert pod.name pod }

/-- The one pod of an echo deployment. -/
def singleEchoPod (cluster : Cluster) (settings : Settings) (deployment what : String) :
    Survey Pod := do
  match ← listPods what cluster settings.testNamespace (nameSelector deployment) with
  | [pod] => pure pod
  | pods => throw (.unexpectedCount what pods.length)

/-- Waits until every client pod can use the name server beside a pod. -/
def podNames (settings : Settings) (target : Pod) : Survey Unit := do
  let pods := (← inventory).clientPods.values
  check <| Check.within settings.identityTime <|
    pods.forM fun source => Check.podNames source target

/-- The same for the one pod of an echo deployment. -/
def echoPodNames (cluster : Cluster) (settings : Settings) (deployment what : String) :
    Survey Unit := do
  podNames settings (← singleEchoPod cluster settings deployment what)

/-- Waits until every client pod can resolve names of the cluster. -/
def clusterNames (settings : Settings) : Survey Unit := do
  let pods := (← inventory).clientPods.values
  check <| Check.within settings.identityTime <| pods.forM Check.clusterNames

def externalEchoPods (clients : Clients) (settings : Settings) : Survey Unit := do
  let pods ← listPods "external echo pod list" clients.destination settings.testNamespace
    (nameSelector Topology.echoExternalNodeName)
  let pods := pods.map (·.withEndpoint "http" Topology.echoPort)
  record fun i => { i with externalEchoPods := addPods i.externalEchoPods pods }

def echoPods (clients : Clients) (settings : Settings) : Survey Unit :=
  clients.distinct.forM fun cluster => do
    let pods ← listPods "echo pod list" cluster settings.testNamespace WorkloadKind.echo.selector
    pods.forM fun pod => do
      endpoint settings pod
      record fun i =>
        { i with
          echoPods := i.echoPods.insert pod.name (pod.withEndpoint "http" Topology.echoPort) }

/-- Adds services by name. Between clusters the first one of a name stays, for its address is valid
where the client pods are. -/
def addServices (keepFirst : Bool) (d : Dict String Manifest.Service)
    (services : List Manifest.Service) : Dict String Manifest.Service :=
  services.foldl
    (fun d s =>
      if keepFirst && d.contains s.metadata.title then d else d.insert s.metadata.title s) d

def echoServices (clients : Clients) (settings : Settings) : Survey Unit :=
  clients.distinct.forM fun cluster => do
    let services ← listServices "echo service list" cluster settings.testNamespace
      WorkloadKind.echo.selector
    record fun i =>
      { i with echoServices := addServices settings.isMultiCluster i.echoServices services }

/-- Waits until every echo service resolves to its address. -/
def resolvedServices (settings : Settings) : Survey Unit := do
  let i ← inventory
  i.echoServices.values.forM fun s => check (Check.service i s settings.serviceReadyTime)

def ingressServices (clients : Clients) (settings : Settings) : Survey Unit := do
  let services ← listServices "ingress service list" clients.source settings.testNamespace
    "cilium.io/ingress=true"
  record fun i => { i with ingressServices := addServices false i.ingressServices services }

/-- Waits until every echo service answers at every node that runs an agent. -/
def nodePorts (settings : Settings) : Survey Unit := do
  let i ← inventory
  i.agentPods.values.forM fun agent =>
    match agent.hostIP with
    | none => pure ()
    | some nodeIP =>
      i.echoServices.values.forM fun s =>
        check (Check.nodePorts i nodeIP s settings.serviceReadyTime)

/-- The pods on the networks of their nodes, by node. -/
def hostNetworkPods (clients : Clients) (settings : Settings) : Survey Unit := do
  let pods ← listPods "host-netns pod list" clients.destination settings.testNamespace
    WorkloadKind.hostNetwork.selector
  record fun i =>
    { i with
      hostNetworkPods :=
        pods.foldl (fun d p => d.insert (p.nodeName.getD "") p) i.hostNetworkPods }

/-- The external workloads of every cluster that knows of such objects. -/
def externalWorkloads (clients : Clients) : Survey Unit :=
  clients.distinct.forM fun cluster => do
    match ← attempt (Check.request "external workload list" cluster .listExternalWorkloads) with
    | .ok workloads =>
      record fun i =>
        { i with
          externalWorkloads :=
            (workloads : List Manifest.Metadata).foldl (fun d m => d.insert m.title m)
              i.externalWorkloads }
    | .error f => if f.isNotFound then pure () else throw f

/-- Waits until every agent knows every tracked pod. -/
def identities (settings : Settings) : Survey Unit := do
  let i ← inventory
  check <| Check.within settings.identityTime <|
    i.agentPods.values.forM fun agent => Check.identities agent settings.agentContainer i

/-- What there is to validate when pods are not measured against each other. -/
def connectivity (clients : Clients) (settings : Settings) (features : FeatureSet) :
    Survey Unit := do
  clientPods clients settings
  echoPodNames clients.source settings Topology.echoSameNodeName "same node pods"
  if settings.spansNodes then
    echoPodNames clients.destination settings Topology.echoOtherNodeName "other node pods"
  if features.enabled .nodeWithoutCilium then externalEchoPods clients settings
  clusterNames settings
  echoPods clients settings
  echoServices clients settings
  resolvedServices settings
  if features.enabled .ingressController then ingressServices clients settings
  if !settings.isMultiCluster then nodePorts settings
  hostNetworkPods clients settings
  externalWorkloads clients
  if !settings.skipIdentityCheck then identities settings

end Survey

/-- Validates the topology, step by step, the source cluster first: waits for each workload and each
property of the network, and records what it finds. -/
def validate (clients : Clients) (settings : Settings) (features : FeatureSet) : Survey Unit := do
  Survey.agentPods clients settings
  let plan := Topology.plan settings features ""
  Survey.deployments clients.source settings plan.sourceDeployments
  Survey.deployments clients.destination settings plan.destinationDeployments
  if settings.performance then Survey.performancePods clients settings
  else Survey.connectivity clients settings features

end Reachability
