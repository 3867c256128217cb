import Reachability.Dict
import Reachability.Topology.Names

namespace Reachability.Topology

/-- What a workload is for; its pods carry the label in `kind`. -/
inductive WorkloadKind where
  | echo
  | echoExternalNode
  | client
  | performance
  | hostNetwork
deriving DecidableEq, Repr

namespace WorkloadKind

def all : List WorkloadKind := [echo, echoExternalNode, client, performance, hostNetwork]

def label : WorkloadKind → String
  | echo => "echo"
  | echoExternalNode => "echo-external-node"
  | client => "client"
  | performance => "perf"
  | hostNetwork => "host-netns"

def ofLabel? (s : String) : Option WorkloadKind := all.find? (·.label == s)

/-- Pods of every workload of this kind. -/
def selector (k : WorkloadKind) : String := "kind=" ++ k.label

end WorkloadKind

/-- On which nodes the pods of a workload may or should run. -/
inductive Placement where
  /-- Only on a node that runs a pod of the workload. -/
  | sameNodeAs (workload : String)
  /-- Only on a node that runs no pod of the workload. -/
  | otherNodeThan (workload : String)
  /-- In the zone if possible. -/
  | inZone (zone : String)
  /-- In the zone if possible, and only on a node that runs a pod of the workload. -/
  | inZoneWith (zone workload : String)
  /-- In the zone and away from the pods of the workload, both if possible. -/
  | inZoneApartFrom (zone workload : String)
deriving DecidableEq, Repr

namespace Placement

/-- The zone that the placement prefers. -/
def zone? : Placement → Option String
  | inZone z | inZoneWith z _ | inZoneApartFrom z _ => some z
  | _ => none

/-- The workload whose node the placement requires. -/
def requiredCompanion? : Placement → Option String
  | sameNodeAs w | inZoneWith _ w => some w
  | _ => none

/-- The workload whose node the placement forbids. -/
def forbiddenCompanion? : Placement → Option String
  | otherNodeThan w => some w
  | _ => none

/-- The workload whose node the placement avoids where it can. -/
def avoidedCompanion? : Placement → Option String
  | inZoneApartFrom _ w => some w
  | _ => none

end Placement

/-- A request that a ready container answers. -/
structure ReadinessProbe where
  port : Int
  path : String
deriving DecidableEq, Repr

/-- All that a deployment or a daemon set of the run differs in. -/
structure Workload where
  name : String := ""
  kind : Option WorkloadKind := none
  image : String := ""
  /-- Zero stands for one replica. -/
  replicas : Int32 := 0
  /-- Empty stands for a name made from the port. -/
  namedPort : String := ""
  port : Int := 0
  hostPort : Option Int := none
  command : List String := []
  placement : Option Placement := none
  nodeSelector : Labels := ∅
  readinessProbe : Option ReadinessProbe := none
  /-- Labels of the pods beside `name` and `kind`. -/
  labels : Labels := ∅
  hostNetwork : Bool := false
  toleratesAllTaints : Bool := false
  /-- The image of the DNS server that runs beside the workload's own container. -/
  dnsServerImage : Option String := none
deriving DecidableEq

namespace Workload

def replicaCount (w : Workload) : Int32 := if w.replicas = 0 then 1 else w.replicas

def portName (w : Workload) : String :=
  if w.namedPort = "" then "port-" ++ toString w.port else w.namedPort

def kindLabel (w : Workload) : String := (w.kind.map (·.label)).getD ""

/-- The labels that the workload, its selector and its pods share. -/
def selectorLabels (w : Workload) : Labels :=
  .ofList [("name", w.name), ("kind", w.kindLabel)]

/-- The labels of the workload's pods. -/
def podLabels (w : Workload) : Labels := w.selectorLabels.insertAll w.labels.entries

end Workload

/-- All that the services of a run differ in. -/
structure ServiceDescription where
  name : String := ""
  selector : Labels := ∅
  labels : Labels := ∅
  portName : String := ""
  port : Int := 0
  /-- Every cluster of a mesh shares the service. -/
  isGlobal : Bool := false
deriving DecidableEq

end Reachability.Topology
