import Reachability.Cluster.Api
import Reachability.Document.Json
import Reachability.Manifest.Document
import Reachability.Topology.Zone

namespace Reachability

namespace Manifest.Kind

def index : Kind → Nat
  | space => 0
  | configMap => 1
  | service => 2
  | serviceAccount => 3
  | deployment => 4
  | daemonSet => 5
  | ingress => 6

instance : Ord Kind := ⟨compareOn index⟩

instance : Std.TransOrd Kind := inferInstanceAs (Std.TransCmp (compareOn index))

instance : Std.LawfulEqOrd Kind where
  eq_of_compare {a b} h := by
    have h : compare (index a) (index b) = .eq := h
    have h : index a = index b := Std.LawfulEqCmp.eq_of_compare h
    revert h
    cases a <;> cases b <;> decide

end Manifest.Kind

namespace Simulation

open Manifest (Kind Object)

/-- Where an object stands in a cluster. -/
structure Place where
  kind : Kind
  key : ObjectKey
deriving DecidableEq

namespace Place

/-- By kind, then by key. -/
instance : Ord Place := ⟨compareLex (compareOn kind) (compareOn key)⟩

instance : Std.TransOrd Place :=
  inferInstanceAs (Std.TransCmp (compareLex (compareOn kind) (compareOn key)))

instance : Std.LawfulEqOrd Place where
  eq_of_compare {a b} h := by
    obtain ⟨hk, hn⟩ := compareLex_eq_eq.1 h
    cases a
    cases b
    simp only [compareOn] at hk hn
    rw [Std.LawfulEqCmp.eq_of_compare hk, Std.LawfulEqCmp.eq_of_compare hn]

end Place

/-- A node of the cluster. All nodes are in one zone. -/
structure Node where
  name : String
  hostIP : String
deriving DecidableEq

def Node.manifest (n : Node) : Manifest.Node :=
  { metadata :=
      { name := some n.name
        labels := .ofList [("topology.kubernetes.io/zone", "zone-a")] } }

/-- A cluster in memory: it keeps objects, makes pods for workloads and addresses for services, and
knows the few commands that the checks run. Workloads are ready at once. Nothing checks that the
namespace of an object exists. -/
structure Store where
  name : String
  objects : Dict Place Object := ∅
  pods : Dict ObjectKey Manifest.Pod := ∅
  /-- Successful creations, and deletions of namespaces asked for. -/
  creates : Nat := 0
  spaceDeletes : Nat := 0
  /-- So many deletions of namespaces are yet to be rejected. -/
  rejections : Nat := 0
  /-- Pods whose names start like this are missing from identity caches. -/
  omitted : List String := []
  /-- The external workloads, if the cluster knows of such objects. -/
  externalWorkloads : Option (List String) := none
  forbidsExternalWorkloads : Bool := false
  podCount : Nat := 0
  serviceCount : Nat := 0
deriving DecidableEq

/-- The namespace of the agents. -/
def agentSpace : String := "kube-system"

namespace Store

def firstNode (s : Store) : Node := ⟨s.name ++ "-worker", "172.18.0.2"⟩
def secondNode (s : Store) : Node := ⟨s.name ++ "-worker2", "172.18.0.3"⟩
def nodes (s : Store) : List Node := [s.firstNode, s.secondNode]

/-- The agent of a node, on the node's network. -/
def agentPod (number : Nat) (node : Node) : Manifest.Pod :=
  { metadata :=
      { name := some ("cilium-" ++ toString number)
        space := some agentSpace
        labels := .ofList [("k8s-app", "cilium")] }
    nodeName := some node.name
    hostNetwork := some true
    hostIP := some node.hostIP
    podIP := some node.hostIP }

/-- A cluster with an agent on each node and nothing else. -/
def fresh (name : String) : Store :=
  let s : Store := { name }
  { s with
    pods := .ofList (s.nodes.mapIdx fun i node =>
      (⟨agentSpace, "cilium-" ++ toString i⟩, agentPod i node)) }

def has (s : Store) (kind : Kind) (key : ObjectKey) : Bool := s.objects.contains ⟨kind, key⟩

/-- The names of the objects of a kind in a namespace, in order. -/
def names (s : Store) (kind : Kind) (ns : String) : List String :=
  (s.objects.keys.filter fun p => p.kind = kind ∧ p.key.space = ns).map (·.key.name)

def podNames (s : Store) (ns : String) : List String :=
  (s.pods.keys.filter (·.space = ns)).map (·.name)

/-- At least `width` hexadecimal digits. -/
def paddedHex (width n : Nat) : String :=
  let digits := Nat.toDigits 16 n
  String.ofList (List.replicate (width - digits.length) '0' ++ digits)

/-- Makes one more pod of a workload on a node. -/
def spawn (ns owner : String) (template : Manifest.PodTemplate) (node : Node) (s : Store) : Store :=
  let number := s.podCount + 1
  let name := owner ++ "-" ++ paddedHex 5 number
  let ip :=
    if template.spec.hostNetwork then node.hostIP
    else "10.0." ++ toString (number / 250) ++ "." ++ toString (number % 250 + 2)
  let pod : Manifest.Pod :=
    { metadata := { name := some name, space := some ns, labels := template.metadata.labels }
      nodeName := some node.name
      hostNetwork := if template.spec.hostNetwork then some true else none
      hostIP := some node.hostIP
      podIP := some ip
      podIPs := [some ip] }
  { s with podCount := number, pods := s.pods.insert ⟨ns, name⟩ pod }

/-- The node for the pods of a template: the second one if they must avoid another workload's. -/
def nodeFor (s : Store) (template : Manifest.PodTemplate) : Node :=
  if (template.spec.placement.bind (·.forbiddenCompanion?)).isSome then s.secondNode
  else s.firstNode

/-- Gives a service an address, and node ports if it has that type. -/
def allocate (ns : String) (service : Manifest.Service) (s : Store) : Manifest.Service × Store :=
  let number := s.serviceCount + 1
  let ports :=
    if service.type = some "NodePort" then
      service.ports.mapIdx fun i p =>
        { p with nodePort := some (30000 + (number : Int) * 10 + i) }
    else service.ports
  ({ service with
      metadata := { service.metadata with space := some ns }
      clusterIP := some ("10.96.0." ++ toString (number + 10))
      ports },
    { s with serviceCount := number })

def put (s : Store) (place : Place) (o : Object) : Store :=
  { s with objects := s.objects.insert place o }

/-- The service that the load balancer publishes for an ingress. -/
def balancerService (ingress : String) : Manifest.Service :=
  { metadata :=
      { name := some (Topology.ingressServiceName ingress)
        labels := .ofList [("cilium.io/ingress", "true")] }
    type := some "NodePort"
    ports :=
      [{ number := 80, name := some "http", protocol := some "TCP" },
        { number := 443, name := some "https", protocol := some "TCP" }] }

/-- What a new deployment becomes: its controller has seen it and all replicas are ready. -/
def settled (ns : String) (d : Manifest.Deployment) : Manifest.Deployment :=
  let replicas := d.replicas.getD 1
  { d with
    metadata := { d.metadata with space := some ns, generation := some 1 }
    status := some
      { observedGeneration := some 1
        replicas := some replicas
        updated := some replicas
        available := some replicas
        ready := some replicas } }

/-- Stores a new object with all that follows from it. -/
def added (s : Store) (ns : String) (o : Object) : Store :=
  let place : Place := ⟨o.kind, ⟨if o.kind = .space then "" else ns, o.name⟩⟩
  match o with
  | .deployment d =>
    let s := s.put place (.deployment (settled ns d))
    (List.replicate (d.replicas.getD 1).toInt.toNat ()).foldl
      (fun s _ => s.spawn ns o.name d.template (s.nodeFor d.template)) s
  | .daemonSet d =>
    let s := s.put place o
    s.nodes.foldl (fun s node => s.spawn ns o.name d.template node) s
  | .service service =>
    let (stored, s) := s.allocate ns service
    s.put place (.service stored)
  | .ingress _ =>
    let (stored, s) := (s.put place o).allocate ns (balancerService o.name)
    s.put ⟨.service, ⟨ns, Topology.ingressServiceName o.name⟩⟩ (.service stored)
  | _ => s.put place o

/-- Removes the pods that carry the workload's name. -/
def withoutPodsOf (s : Store) (ns owner : String) : Store :=
  { s with
    pods := s.pods.filter fun key pod =>
      !(key.space == ns && pod.metadata.label? "name" == some owner) }

/-- Removes a namespace and everything in it. -/
def withoutSpace (s : Store) (ns : String) : Store :=
  { s with
    objects := s.objects.filter fun place _ =>
      if place.kind = .space then place.key.name != ns else place.key.space != ns
    pods := s.pods.filter fun key _ => key.space != ns }

def create (s : Store) (ns : String) (o : Object) : Store × Except Failure Unit :=
  let key : ObjectKey := ⟨if o.kind = .space then "" else ns, o.name⟩
  if s.has o.kind key then (s, .error (.alreadyExists o.kind.label o.name))
  else ({ s.added ns o with creates := s.creates + 1 }, .ok ())

def deleteSpace (s : Store) (name : String) : Store × Except Failure Unit :=
  let s := { s with spaceDeletes := s.spaceDeletes + 1 }
  if 0 < s.rejections then
    ({ s with rejections := s.rejections - 1 }, .error (.invalid (.deletionDenied name)))
  else if s.has .space ⟨"", name⟩ then (s.withoutSpace name, .ok ())
  else (s, .error (.notFound Kind.space.label name))

def delete (s : Store) (kind : Kind) (key : ObjectKey) : Store × Except Failure Unit :=
  if kind = .space then s.deleteSpace key.name
  else if s.has kind key then
    let s := { s with objects := s.objects.erase ⟨kind, key⟩ }
    (if kind = .deployment ∨ kind = .daemonSet then s.withoutPodsOf key.space key.name else s,
      .ok ())
  else (s, .error (.notFound kind.label key.name))

def get (s : Store) : (kind : Kind) → (key : ObjectKey) → Except Failure kind.Found
  | .deployment, key =>
    match s.objects.get? ⟨.deployment, key⟩ with
    | some (.deployment d) => .ok d
    | _ => .error (.notFound Kind.deployment.label key.name)
  | .space, key => found .space key
  | .configMap, key => found .configMap key
  | .service, key => found .service key
  | .serviceAccount, key => found .serviceAccount key
  | .daemonSet, key => found .daemonSet key
  | .ingress, key => found .ingress key
where
  found (kind : Kind) (key : ObjectKey) : Except Failure Unit :=
    if s.has kind key then .ok () else .error (.notFound kind.label key.name)

/-- Labels match a selector: every term of the form `key=value`, with commas between terms. -/
def matchesSelector (labels : Labels) (selector : String) : Bool :=
  (selector.toList.splitOn ',').all fun term =>
    term.isEmpty ||
      (term.contains '=' &&
        labels.get? (String.ofList (term.takeWhile (· != '='))) ==
          some (String.ofList ((term.dropWhile (· != '=')).drop 1)))

def listPods (s : Store) (ns selector : String) : List Manifest.Pod :=
  (s.pods.entries.filter fun (key, pod) =>
    key.space = ns && matchesSelector pod.metadata.labels selector).map (·.2)

def listServices (s : Store) (ns selector : String) : List Manifest.Service :=
  s.objects.entries.filterMap fun (place, o) =>
    match o with
    | .service service =>
      if place.key.space = ns && matchesSelector service.metadata.labels selector then some service
      else none
    | _ => none

def listExternalWorkloads (s : Store) : Except Failure (List Manifest.Metadata) :=
  if s.forbidsExternalWorkloads then
    .error (.api (.refused
      { status := "Failure"
        message := "ciliumexternalworkloads.cilium.io is forbidden"
        reason := "Forbidden"
        code := 403 }))
  else
    match s.externalWorkloads with
    | some names => .ok (names.map .named)
    | none => .error (.notFound "customresourcedefinition" "ciliumexternalworkloads.cilium.io")

def getEndpoint (s : Store) (key : ObjectKey) : Except Failure Unit :=
  match s.pods.get? key with
  | some pod =>
    if pod.hostNetwork.getD false then .error (.notFound "ciliumendpoint" key.name) else .ok ()
  | none => .error (.notFound "ciliumendpoint" key.name)

/-- The addresses of the pods that agents know of, in the order of the pods. -/
def knownAddresses (s : Store) : List String :=
  (s.pods.entries.filter fun (key, _) =>
    key.space ≠ agentSpace && !s.omitted.any fun start =>
      start.toList.isPrefixOf key.name.toList).flatMap fun (_, pod) => pod.podIPs.filterMap id

/-- The identity cache of every agent. Identities are counted up from 1000. -/
def identities (s : Store) : Dict String (List String) :=
  s.knownAddresses.foldl
    (fun d ip =>
      d.insert (ip ++ "/32")
        ["identity=" ++ toString (1000 + d.size) ++ " encryptkey=0 tunnelendpoint=0.0.0.0"]) ∅

/-- The identity cache as JSON. -/
def identityDump (s : Store) : String :=
  (Document.mapping (s.identities.entries.map fun (range, lines) => (range, .texts lines))).toJson

/-- The lines of a name server's answer. -/
def serverAnswer (lineEnd server name address : String) : String :=
  "Server:\t\t" ++ server ++ lineEnd ++ "Address:\t" ++ server ++ ":53" ++ lineEnd ++ lineEnd ++
    "Name:\t" ++ name ++ lineEnd ++ "Address: " ++ address ++ lineEnd

def clusterIPOf (s : Store) (key : ObjectKey) : Option String :=
  match s.objects.get? ⟨.service, key⟩ with
  | some (.service service) => service.clusterIP
  | _ => none

/-- Runs a command in a pod, which failures name by `shown`. -/
def exec (s : Store) (pod shown : ObjectKey) (command : List String) : Except Failure String :=
  if !s.pods.contains pod then .error (.notFound "pod" shown.name)
  else
    match command with
    | ["nslookup", "localhost", _] => .ok (serverAnswer "\n" "10.0.0.5" "localhost" "127.0.0.1")
    | ["nslookup", "kubernetes.default"] =>
      .ok (serverAnswer "\n" "10.96.0.10" "kubernetes.default.svc.cluster.local" "10.96.0.1")
    | ["nslookup", service] =>
      match s.clusterIPOf ⟨pod.space, service⟩ with
      | some ip =>
        .ok (serverAnswer "\r\n" "10.96.0.10"
          (service ++ "." ++ pod.space ++ ".svc.cluster.local") ip)
      | none => .error (.exec shown command "NXDOMAIN" "")
    | ["nc", "-w", "3", "-z", _, _] => .ok ""
    | ["cilium", "bpf", "ipcache", "list", "-o", "json"] => .ok s.identityDump
    | _ => .error (.exec shown command "command not found" "")

/-- Answers a request. Failures of commands name the pod by `shown`. -/
def answer (s : Store) (shown : ObjectKey) : (r : Request) → Store × Except Failure r.Answer
  | .get kind key => (s, s.get kind key)
  | .create ns o => s.create ns o
  | .delete kind key => s.delete kind key
  | .listPods ns selector => (s, .ok (s.listPods ns selector))
  | .listServices ns selector => (s, .ok (s.listServices ns selector))
  | .listNodes => (s, .ok (s.nodes.map (·.manifest)))
  | .listExternalWorkloads => (s, s.listExternalWorkloads)
  | .getEndpoint key => (s, s.getEndpoint key)
  | .exec pod _ command => (s, s.exec pod shown command)

end Store

end Simulation

end Reachability
