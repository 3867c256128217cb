import Reachability.Dict

namespace Reachability

namespace Settings.Default

def testNamespace : String := "cilium-test"
def curlImage : String := "quay.io/cilium/alpine-curl:v1.7.0"
def jsonMockImage : String := "quay.io/cilium/json-mock:v1.3.5"
def dnsTestServerImage : String := "docker.io/coredns/coredns:1.10.1"
def performanceImage : String :=
  "quay.io/cilium/network-perf:a816f935930cb2b40ba43230643da4d5751a5711"
def podReadyTimeout : UInt64 := 300
def endpointTimeout : UInt64 := 300
def identityTimeout : UInt64 := 60
def serviceReadyTimeout : UInt64 := 30
def agentNamespace : String := "kube-system"
def agentSelector : String := "k8s-app=cilium"
def agentContainer : String := "cilium-agent"
def logFormat : String := "text"

end Settings.Default

/-- The parameters of a run, with the values they have when nothing is set. Timeouts are seconds. -/
structure Settings where
  testNamespace : String := Settings.Default.testNamespace
  /-- The context of the source cluster; the current one if none is named. -/
  kubeContext : Option String := none
  /-- The context of the destination cluster; empty for a run on one cluster. -/
  multiCluster : String := ""
  curlImage : String := Settings.Default.curlImage
  jsonMockImage : String := Settings.Default.jsonMockImage
  dnsTestServerImage : String := Settings.Default.dnsTestServerImage
  performanceImage : String := Settings.Default.performanceImage
  performance : Bool := false
  performanceHostNetwork : Bool := false
  singleNode : Bool := false
  nodeSelector : Labels := ∅
  /-- Tear the topology down before provisioning it. -/
  forceDeploy : Bool := false
  skipIdentityCheck : Bool := false
  podReadyTimeout : UInt64 := Settings.Default.podReadyTimeout
  endpointTimeout : UInt64 := Settings.Default.endpointTimeout
  identityTimeout : UInt64 := Settings.Default.identityTimeout
  serviceReadyTimeout : UInt64 := Settings.Default.serviceReadyTimeout
  agentNamespace : String := Settings.Default.agentNamespace
  agentSelector : String := Settings.Default.agentSelector
  agentContainer : String := Settings.Default.agentContainer
  /-- Features to take as enabled or disabled, by name. -/
  features : Dict String Bool := ∅
  /-- Print the topology and touch no cluster. -/
  dryRun : Bool := false
  /-- Delete the topology after the validation. -/
  teardown : Bool := false
  logFormat : String := Settings.Default.logFormat
deriving DecidableEq

namespace Settings

instance : Inhabited Settings := ⟨{}⟩

/-- Seconds as milliseconds. -/
def milliseconds (seconds : UInt64) : Nat := seconds.toNat * 1000

/-- The timeouts in milliseconds. -/
def podReadyTime (s : Settings) : Nat := milliseconds s.podReadyTimeout
def endpointTime (s : Settings) : Nat := milliseconds s.endpointTimeout
def identityTime (s : Settings) : Nat := milliseconds s.identityTimeout
def serviceReadyTime (s : Settings) : Nat := milliseconds s.serviceReadyTimeout

def isMultiCluster (s : Settings) : Bool := s.multiCluster != ""

/-- The topology spreads over two nodes or two clusters. -/
def spansNodes (s : Settings) : Bool := !s.singleNode || s.isMultiCluster

end Settings

end Reachability
