import Reachability.Address
import Reachability.Cluster.Clients
import Reachability.Failure

namespace Reachability

/-- A discovered pod and the cluster that it lives in. -/
structure Pod where
  cluster : Cluster
  object : Manifest.Pod
  /-- How the pod answers, where that is known. -/
  scheme : Option String := none
  port : Option Nat := none
deriving DecidableEq

namespace Pod

def withEndpoint (p : Pod) (scheme : String) (port : Nat) : Pod :=
  { p with scheme := some scheme, port := some port }

def withPort (p : Pod) (port : Nat) : Pod := { p with port := some port }

def name (p : Pod) : String := p.object.metadata.title

def space (p : Pod) : String := p.object.metadata.space.getD ""

def key (p : Pod) : ObjectKey := ⟨p.space, p.name⟩

def label? (p : Pod) (key : String) : Option String := p.object.metadata.label? key

def nodeName (p : Pod) : Option String := p.object.nodeName

def hostIP (p : Pod) : Option String := p.object.hostIP

def hostNetwork (p : Pod) : Bool := p.object.hostNetwork.getD false

def ips (p : Pod) : List String := p.object.ips

/-- The first address of the family, empty if there is none. -/
def address (p : Pod) (family : Family) : String := (p.ips.find? family.admits).getD ""

/-- The container that commands for a workload's pod run in. -/
def workloadContainer (p : Pod) : String := (p.label? "name").getD ""

/-- The pod with its cluster and addresses, in full. -/
def description (p : Pod) : String :=
  "Pod \x7b cluster: " ++ Text.quoted p.cluster.name ++ ", namespace: " ++ Text.quoted p.space ++
    ", name: " ++ Text.quoted p.name ++ ", ips: " ++ Text.quotedList p.ips ++ " \x7d"

end Pod

/-- What a run has discovered so far, by name; the pods on the network of their nodes by node. -/
structure Inventory where
  agentPods : Dict String Pod := ∅
  clientPods : Dict String Pod := ∅
  echoPods : Dict String Pod := ∅
  externalEchoPods : Dict String Pod := ∅
  performanceClients : Dict String Pod := ∅
  performanceServers : Dict String Pod := ∅
  hostNetworkPods : Dict String Pod := ∅
  echoServices : Dict String Manifest.Service := ∅
  ingressServices : Dict String Manifest.Service := ∅
  externalWorkloads : Dict String Manifest.Metadata := ∅
deriving DecidableEq

namespace Inventory

def empty : Inventory := { agentPods := ∅ }

instance : EmptyCollection Inventory := ⟨empty⟩
instance : Inhabited Inventory := ⟨empty⟩

/-- The echo pods of one deployment. -/
def echoPodsOf (i : Inventory) (deployment : String) : List Pod :=
  i.echoPods.values.filter fun p => p.label? "name" == some deployment

/-- The pods that every agent has to know: clients by name, then echo servers by name. -/
def trackedPods (i : Inventory) : List (Role × Pod) :=
  i.clientPods.values.map (.client, ·) ++ i.echoPods.values.map (.echo, ·)

end Inventory

end Reachability
