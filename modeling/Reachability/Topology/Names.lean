namespace Reachability.Topology

def clientName : String := "client"
def secondClientName : String := "client2"
def echoSameNodeName : String := "echo-same-node"
def echoOtherNodeName : String := "echo-other-node"
def echoExternalNodeName : String := "echo-external-node"
def hostNetworkName : String := "host-netns"

def dnsContainerName : String := "dns-test-server"
def dnsConfigMapName : String := "coredns-configmap"
def dnsVolumeName : String := "coredns-config-volume"

def ingressName : String := "ingress-service"
def ingressClassName : String := "cilium"

/-- The service that a load balancer publishes for an ingress. -/
def ingressServiceName (ingress : String) : String := "cilium-ingress-" ++ ingress

/-- The port at which echo servers answer, and the one they take on their node. -/
def echoPort : Nat := 8080
def echoHostPort : Nat := 40000

/-- The port at which performance servers answer. -/
def performancePort : Nat := 5201

/-- Pods of the workload of this name. -/
def nameSelector (name : String) : String := "name=" ++ name

/-- The deployments of a performance run. -/
structure PerformanceNames where
  client : String
  clientAcross : String
  server : String
deriving DecidableEq, Repr

/-- Workloads on the network of their node are named apart from those on the pod network, for both
may stand in one namespace. -/
def PerformanceNames.ofHostNetwork (hostNetwork : Bool) : PerformanceNames :=
  let suffix := if hostNetwork then "-host-net" else ""
  { client := "perf-client" ++ suffix
    clientAcross := "perf-client-other-node" ++ suffix
    server := "perf-server" ++ suffix }

end Reachability.Topology
