import Reachability.Dict
import Reachability.ObjectKey
import Reachability.Topology.Workload

namespace Reachability.Manifest

open Reachability.Topology (Placement ReadinessProbe)

/-- The kinds of objects that a run creates. -/
inductive Kind where
  | space
  | configMap
  | service
  | serviceAccount
  | deployment
  | daemonSet
  | ingress
deriving DecidableEq, Repr

/-- The word for the kind in plans, logs and messages. -/
def Kind.label : Kind → String
  | space => "namespace"
  | configMap => "configmap"
  | service => "service"
  | serviceAccount => "serviceaccount"
  | deployment => "deployment"
  | daemonSet => "daemonset"
  | ingress => "ingress"

structure Metadata where
  name : Option String := none
  /-- The object's namespace. -/
  space : Option String := none
  labels : Labels := ∅
  annotations : Labels := ∅
  generation : Option Int := none
deriving DecidableEq

namespace Metadata

def named (name : String) : Metadata := { name := some name }

/-- The object's name, empty if it has none. -/
def title (m : Metadata) : String := m.name.getD ""

def label? (m : Metadata) (key : String) : Option String := m.labels.get? key

end Metadata

structure ContainerPort where
  number : Int
  name : Option String := none
  hostPort : Option Int := none
  protocol : Option String := none
deriving DecidableEq

/-- A place in a container where a volume appears, to be read only. -/
structure Mount where
  volume : String
  path : String
deriving DecidableEq

structure Container where
  name : String
  image : String
  arguments : List String := []
  command : List String := []
  environment : List (String × String) := []
  ports : List ContainerPort := []
  readinessProbe : Option ReadinessProbe := none
  /-- The container may send raw packets. -/
  rawNetwork : Bool := false
  mounts : List Mount := []
deriving DecidableEq

/-- A volume with one file of a config map, under the file's own name. -/
structure Volume where
  name : String
  configMap : String
  file : String
deriving DecidableEq

structure PodSpec where
  containers : List Container := []
  volumes : List Volume := []
  placement : Option Placement := none
  nodeSelector : Labels := ∅
  hostNetwork : Bool := false
  toleratesAllTaints : Bool := false
  serviceAccount : Option String := none
deriving DecidableEq

structure PodTemplate where
  metadata : Metadata := {}
  spec : PodSpec := {}
deriving DecidableEq

structure DeploymentStatus where
  observedGeneration : Option Int := none
  replicas : Option Int32 := none
  updated : Option Int32 := none
  available : Option Int32 := none
  ready : Option Int32 := none
deriving DecidableEq

structure Deployment where
  metadata : Metadata := {}
  replicas : Option Int32 := none
  selector : Labels := ∅
  template : PodTemplate := {}
  status : Option DeploymentStatus := none
deriving DecidableEq

structure DaemonSet where
  metadata : Metadata := {}
  selector : Labels := ∅
  template : PodTemplate := {}
deriving DecidableEq

structure ServicePort where
  number : Int
  name : Option String := none
  protocol : Option String := none
  nodePort : Option Int := none
deriving DecidableEq

structure Service where
  metadata : Metadata := {}
  type : Option String := none
  clusterIP : Option String := none
  ports : List ServicePort := []
  selector : Option Labels := none
  ipFamilyPolicy : Option String := none
  /-- The addresses of the load balancer, one for each of its entries that has any. -/
  balancerIPs : List (Option String) := []
deriving DecidableEq

/-- An ingress that routes every path to one port of one service. -/
structure Ingress where
  metadata : Metadata := {}
  className : String := ""
  service : String := ""
  port : Int := 0
deriving DecidableEq

structure ConfigMap where
  metadata : Metadata := {}
  data : Labels := ∅
deriving DecidableEq

structure Pod where
  metadata : Metadata := {}
  nodeName : Option String := none
  hostNetwork : Option Bool := none
  hostIP : Option String := none
  podIP : Option String := none
  podIPs : List (Option String) := []
deriving DecidableEq

structure Node where
  metadata : Metadata := {}
deriving DecidableEq

/-- An object that a run creates. -/
inductive Object where
  | space (metadata : Metadata)
  | configMap (configMap : ConfigMap)
  | service (service : Service)
  | serviceAccount (metadata : Metadata)
  | deployment (deployment : Deployment)
  | daemonSet (daemonSet : DaemonSet)
  | ingress (ingress : Ingress)
deriving DecidableEq

namespace Object

def kind : Object → Kind
  | space _ => .space
  | configMap _ => .configMap
  | service _ => .service
  | serviceAccount _ => .serviceAccount
  | deployment _ => .deployment
  | daemonSet _ => .daemonSet
  | ingress _ => .ingress

def metadata : Object → Metadata
  | space m | serviceAccount m => m
  | configMap c => c.metadata
  | service s => s.metadata
  | deployment d => d.metadata
  | daemonSet d => d.metadata
  | ingress i => i.metadata

def name (o : Object) : String := o.metadata.title

/-- The same object in a namespace. A namespace is in none. -/
def inSpace (ns : String) : Object → Object
  | space m => space m
  | serviceAccount m => serviceAccount { m with space := some ns }
  | configMap c => configMap { c with metadata := { c.metadata with space := some ns } }
  | service s => service { s with metadata := { s.metadata with space := some ns } }
  | deployment d => deployment { d with metadata := { d.metadata with space := some ns } }
  | daemonSet d => daemonSet { d with metadata := { d.metadata with space := some ns } }
  | ingress i => ingress { i with metadata := { i.metadata with space := some ns } }

end Object

/-- The addresses of a pod: the list it reports, or else the single one of the older form. -/
def Pod.ips (p : Pod) : List String :=
  match p.podIPs.filterMap id with
  | [] => p.podIP.toList
  | ips => ips

namespace Service

def typeName (s : Service) : String := s.type.getD "ClusterIP"

/-- The address to which the service's name should resolve; empty if it has none, or none yet. -/
def expectedAddress (s : Service) : String :=
  if s.typeName = "ClusterIP" ∨ s.typeName = "NodePort" then s.clusterIP.getD ""
  else if s.typeName = "LoadBalancer" then (s.balancerIPs.head?.bind id).getD ""
  else ""

/-- The allocated node ports. -/
def nodePorts (s : Service) : List Int :=
  (s.ports.filterMap (·.nodePort)).filter (· ≠ 0)

end Service

end Reachability.Manifest
