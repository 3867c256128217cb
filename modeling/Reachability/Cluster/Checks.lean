import Reachability.Cluster.Api
import Reachability.Cluster.Readiness
import Reachability.Identity
import Reachability.Lookup

namespace Reachability.Check

open Wait (defaultPacing endpointPacing Probe)

/-- The judgement on the answer to a request for a deployment. -/
def judgeDeployment : Except Failure Manifest.Deployment → Option (Except Failure Unit)
  | .ok d => d.readiness.map (·.mapError .notReady)
  | .error f => some (.error f)

/-- Asks for a deployment and judges it. -/
def deploymentProbe (cluster : Cluster) (key : ObjectKey) : Probe clusterApi Unit :=
  (probe cluster (.get .deployment key)).judged judgeDeployment

/-- Waits for the deployments one after the other, for all of them within one timeout. -/
def deployments (cluster : Cluster) (ns : String) (names : List String) (timeout : Nat) :
    Check Unit :=
  within timeout <| names.forM fun name =>
    poll defaultPacing ("deployment " ++ name) (deploymentProbe cluster ⟨ns, name⟩)

/-- Waits for the agent to make the endpoint of a pod. -/
def endpoint (cluster : Cluster) (pod : ObjectKey) (timeout : Nat) : Check Unit :=
  within timeout <|
    poll endpointPacing ("CiliumEndpoint for pod " ++ pod.name) (probe cluster (.getEndpoint pod))

/-- Runs a command in a container of a pod. -/
def command (pod : Pod) (container : String) (words : List String) : Probe clusterApi String :=
  probe pod.cluster (.exec pod.key container words)

/-- Waits until a pod can resolve `localhost` at the name server beside another pod. -/
def podNames (source target : Pod) : Check Unit := do
  let _ ← poll defaultPacing
    ("lookup for localhost from pod " ++ source.key.toString ++ " to server on pod " ++
      target.key.toString)
    (command source "" ["nslookup", "localhost", target.address .any])

/-- Waits until a pod can resolve the name of the API server. -/
def clusterNames (pod : Pod) : Check Unit := do
  let _ ← poll defaultPacing ("lookup for kubernetes.default from pod " ++ pod.key.toString)
    (command pod "" ["nslookup", "kubernetes.default"])

/-- Any client pod, as the place from which to try something. -/
def vantagePod (i : Inventory) : Check Pod := do
  match ← choose? i.clientPods.values with
  | some pod => pure pod
  | none => throw .noClientPod

/-- Looks a service up from a pod and judges the answer. -/
def lookupProbe (pod : Pod) (s : Manifest.Service) : Probe clusterApi Unit :=
  (command pod pod.workloadContainer ["nslookup", s.metadata.title]).judged fun answer => some do
    (verifyLookup s (← answer)).mapError .invalid

/-- Waits until a client pod resolves a service to its address. -/
def service (i : Inventory) (s : Manifest.Service) (timeout : Nat) : Check Unit := do
  let pod ← vantagePod i
  within timeout <| poll defaultPacing ("service " ++ s.metadata.title) (lookupProbe pod s)

/-- Waits until every node port of a service answers at a node, for all of them within one timeout.
-/
def nodePorts (i : Inventory) (nodeIP : String) (s : Manifest.Service) (timeout : Nat) :
    Check Unit := do
  let pod ← vantagePod i
  within timeout <| s.nodePorts.forM fun port => do
    let _ ← poll defaultPacing
      ("NodePort " ++ nodeIP ++ ":" ++ toString port ++ " (" ++ s.metadata.title ++ ")")
      (command pod pod.workloadContainer ["nc", "-w", "3", "-z", nodeIP, toString port])

/-- The command by which an agent prints its identity cache. -/
def cacheCommand : List String := ["cilium", "bpf", "ipcache", "list", "-o", "json"]

/-- The judgement on one dump of an agent's identity cache: it knows every tracked pod. -/
def judgeCache (i : Inventory) (dump : String) : Except Failure Unit :=
  match IdentityCache.parse dump with
  | none => .error .unreadableCache
  | some cache => (cache.covers i).mapError .invalid

/-- Asks an agent for its identity cache and judges it. -/
def identitiesProbe (agent : Pod) (container : String) (i : Inventory) : Probe clusterApi Unit :=
  (command agent container cacheCommand).judged fun answer => some do judgeCache i (← answer)

/-- Waits until an agent knows every tracked pod. -/
def identities (agent : Pod) (container : String) (i : Inventory) : Check Unit :=
  poll defaultPacing ("pod IDs in ipcache of agent pod " ++ agent.name)
    (identitiesProbe agent container i)

end Reachability.Check
