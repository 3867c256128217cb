import Reachability.Feature
import Reachability.Manifest.Build
import Reachability.Settings.Basic

namespace Reachability.Topology

/-- The cluster from which connections start, or the one to which they lead. -/
inductive Side where
  | source
  | destination
deriving DecidableEq, Repr

def Side.label : Side → String
  | source => "src"
  | destination => "dst"

/-- One thing that a run needs on a cluster. -/
inductive Item where
  | space (name : String)
  | dnsConfigMap
  | service (description : ServiceDescription)
  /-- The deployment of a workload and the service account of its name. -/
  | deployment (workload : Workload)
  | daemonSet (workload : Workload)
  | ingress
deriving DecidableEq

namespace Item

def kind : Item → Manifest.Kind
  | space _ => .space
  | dnsConfigMap => .configMap
  | service _ => .service
  | deployment _ => .deployment
  | daemonSet _ => .daemonSet
  | ingress => .ingress

def name : Item → String
  | space name => name
  | dnsConfigMap => dnsConfigMapName
  | service s => s.name
  | deployment w | daemonSet w => w.name
  | ingress => ingressName

/-- The objects to create for an item, in order. -/
def objects : Item → List Manifest.Object
  | space name => [Manifest.testNamespace name]
  | dnsConfigMap => [Manifest.dnsConfigMap]
  | service s => [.service (Manifest.service s)]
  | deployment w => [Manifest.serviceAccount w.name, .deployment (Manifest.deployment w)]
  | daemonSet w => [.daemonSet (Manifest.daemonSet w)]
  | ingress => [.ingress Manifest.ingress]

end Item

/-- What a run needs, in the order in which it is provisioned. -/
structure Plan where
  steps : List (Side × Item) := []
  /-- The deployments to wait for on each side. -/
  sourceDeployments : List String := []
  destinationDeployments : List String := []
deriving DecidableEq

namespace Plan

def itemsOn (p : Plan) (side : Side) : List Item :=
  (p.steps.filter (·.1 = side)).map (·.2)

/-- Side, kind and name of every step. -/
def listing (p : Plan) : List (Side × Manifest.Kind × String) :=
  p.steps.map fun (side, item) => (side, item.kind, item.name)

def contains (p : Plan) (side : Side) (kind name : String) : Bool :=
  (p.itemsOn side).any fun item => item.kind.label == kind && item.name == name

end Plan

def sleepForever : String := "sleep 10000000"

def shell (program script : String) : List String := [program, "-c", script]

def echoService (name : String) (isGlobal : Bool) : ServiceDescription :=
  { name
    selector := .ofList [("name", name)]
    labels := .ofList [("kind", WorkloadKind.echo.label)]
    portName := "http"
    port := echoPort
    isGlobal }

/-- A workload of a performance run. -/
def performanceWorkload (settings : Settings) (name : String) (port : Int) (script : String)
    (role : String) (placement : Placement) : Workload :=
  { name
    kind := some .performance
    image := settings.performanceImage
    port
    command := shell "/bin/bash" script
    labels := .ofList [(role, "role")]
    nodeSelector := settings.nodeSelector
    hostNetwork := settings.performanceHostNetwork
    placement := some placement }

/-- A client and a server on one node, and unless there is only one node a client on another. -/
def planPerformance (settings : Settings) (zone : String) : Plan :=
  let names := PerformanceNames.ofHostNetwork settings.performanceHostNetwork
  let client :=
    { performanceWorkload settings names.client 80 sleepForever "client" (.inZone zone) with
      namedPort := "http-80" }
  let server := performanceWorkload settings names.server 5001 ("netserver;" ++ sleepForever)
    "server" (.inZoneWith zone names.client)
  let across := performanceWorkload settings names.clientAcross 5001 sleepForever "client"
    (.inZoneApartFrom zone names.client)
  let far := if settings.singleNode then [] else [across]
  { steps :=
      (.source, .space settings.testNamespace) ::
        ([client, server] ++ far).map fun w => (.source, .deployment w)
    sourceDeployments := ([client, server] ++ far).map (·.name) }

/-- A server that echoes requests, with a DNS server beside it. -/
def echoWorkload (settings : Settings) (features : FeatureSet) (name label : String)
    (placement : Placement) : Workload :=
  { name
    kind := some .echo
    image := settings.jsonMockImage
    port := echoPort
    namedPort := "http-8080"
    hostPort := if features.enabled .hostPort then some (echoHostPort : Int) else none
    labels := .ofList [(label, "echo")]
    placement := some placement
    readinessProbe := some { port := echoPort, path := "/" }
    dnsServerImage := some settings.dnsTestServerImage }

/-- A workload whose pods only wait for commands. -/
def clientWorkload (settings : Settings) (name : String) : Workload :=
  { name
    kind := some .client
    image := settings.curlImage
    port := echoPort
    namedPort := "http-8080"
    command := shell "/bin/ash" sleepForever
    nodeSelector := settings.nodeSelector }

/-- One pod on the network of each node, those without the agent included. -/
def hostNetworkWorkload (settings : Settings) : Workload :=
  { name := hostNetworkName
    kind := some .hostNetwork
    image := settings.curlImage
    port := echoPort
    command := shell "/bin/ash" sleepForever
    labels := .ofList [("other", "host-netns")]
    hostNetwork := true
    toleratesAllTaints := true }

/-- An echo server on a node without the agent. -/
def externalEchoWorkload (settings : Settings) : Workload :=
  { name := echoExternalNodeName
    kind := some .echoExternalNode
    image := settings.jsonMockImage
    port := echoPort
    namedPort := "http-8080"
    hostPort := some (echoPort : Int)
    labels := .ofList [("external", "echo")]
    nodeSelector := .ofList [("cilium.io/no-schedule", "true")]
    readinessProbe := some { port := echoPort, path := "/" }
    hostNetwork := true
    toleratesAllTaints := true }

/-- Clients and an echo server on one node, an echo server on another node or cluster, and what the
enabled features add. -/
def planConnectivity (settings : Settings) (features : FeatureSet) : Plan :=
  let multi := settings.isMultiCluster
  let onBoth (item : Item) : List (Side × Item) :=
    (.source, item) :: if multi then [(.destination, item)] else []
  let sameNode := echoWorkload settings features echoSameNodeName "other" (.sameNodeAs clientName)
  let otherNode :=
    { echoWorkload settings features echoOtherNodeName "first" (.otherNodeThan clientName) with
      nodeSelector := settings.nodeSelector }
  let secondClient :=
    { clientWorkload settings secondClientName with
      labels := .ofList [("other", "client")]
      placement := some (.sameNodeAs clientName) }
  let spans := settings.spansNodes
  let external := features.enabled .nodeWithoutCilium
  { steps :=
      onBoth (.space settings.testNamespace) ++
      [(.source, .service (echoService echoSameNodeName false))] ++
      (if multi then [(.source, .service (echoService echoOtherNodeName true))] else []) ++
      onBoth .dnsConfigMap ++
      [(.source, .deployment sameNode),
        (.source, .deployment (clientWorkload settings clientName)),
        (.source, .deployment secondClient)] ++
      (if spans then
        [(.destination, .service (echoService echoOtherNodeName multi)),
          (.destination, .deployment otherNode)]
      else []) ++
      (if external then
        [(.destination, .daemonSet (hostNetworkWorkload settings)),
          (.destination, .deployment (externalEchoWorkload settings))]
      else []) ++
      (if features.enabled .ingressController then [(.source, .ingress)] else [])
    sourceDeployments := [clientName, secondClientName, echoSameNodeName]
    destinationDeployments :=
      (if spans then [echoOtherNodeName] else []) ++
      (if external then [echoExternalNodeName] else []) }

/-- The plan of a run. The zone matters to performance runs only. -/
def plan (settings : Settings) (features : FeatureSet) (zone : String) : Plan :=
  if settings.performance then planPerformance settings zone
  else planConnectivity settings features

end Reachability.Topology
