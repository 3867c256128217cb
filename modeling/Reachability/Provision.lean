import Reachability.Cluster.Survey
import Reachability.Topology.Zone

namespace Reachability

open Manifest (Kind)
open Reachability.Topology (Item Plan PerformanceNames Side)

/-- The object that was looked up is missing. -/
def absent (lookup : Except Failure α) : Except Failure Bool :=
  match lookup with
  | .ok _ => .ok false
  | .error f => if f.isNotFound then .ok true else .error f

/-- The object is there, whoever created it. -/
def created (creation : Except Failure α) : Except Failure Unit :=
  match creation with
  | .ok _ => .ok ()
  | .error f => if f.isAlreadyExists then .ok () else .error f

/-- The words for a kind of object in the names of waits. -/
def Manifest.Kind.phrase : Kind → String
  | .serviceAccount => "service account"
  | k => k.label

/-- Where an object stands; a namespace stands in none. -/
def Manifest.Kind.keyIn (k : Kind) (ns name : String) : ObjectKey :=
  ⟨if k = .space then "" else ns, name⟩

/-- Creates an object unless someone else does so first. -/
def createObject (cluster : Cluster) (ns : String) (o : Manifest.Object) : Survey Unit := do
  let answer ← Survey.attempt <| Check.request (o.kind.phrase ++ " creation") cluster
    (.create (o.kind.keyIn ns o.name).space o)
  Survey.ofExcept (created answer)

/-- Creates the objects of an item. The service that a new ingress will have is not known yet: the
inventory gets a placeholder for it. -/
def make (cluster : Cluster) (ns : String) (item : Item) : Survey Unit := do
  item.objects.forM (createObject cluster ns)
  if item = .ingress then
    let placeholder := Manifest.ingressServicePlaceholder
    Survey.record fun i =>
      { i with
        ingressServices := i.ingressServices.insert placeholder.metadata.title placeholder }

/-- Creates the objects of an item, unless it is there, so that provisioning again changes nothing.
-/
def ensure (cluster : Cluster) (ns : String) (item : Item) : Survey Unit := do
  let lookup ← Survey.attempt <| Check.request (item.kind.phrase ++ " lookup") cluster
    (.get item.kind (item.kind.keyIn ns item.name))
  if ← Survey.ofExcept (absent lookup) then make cluster ns item

/-- The deployments of every plan there is. -/
def everyDeployment : List String :=
  [Topology.echoSameNodeName, Topology.echoOtherNodeName, Topology.echoExternalNodeName,
    Topology.clientName, Topology.secondClientName] ++
  [false, true].flatMap fun hostNetwork =>
    let names := PerformanceNames.ofHostNetwork hostNetwork
    [names.client, names.server, names.clientAcross]

/-- The objects that a plan may have created in the namespace, in the order of their deletion. -/
def everyObject : List (Kind × String) :=
  everyDeployment.map (.deployment, ·) ++
  everyDeployment.map (.serviceAccount, ·) ++
  [(.service, Topology.echoSameNodeName), (.service, Topology.echoOtherNodeName),
    (.daemonSet, Topology.hostNetworkName), (.ingress, Topology.ingressName),
    (.configMap, Topology.dnsConfigMapName)]

/-- Asks for the namespace to be deleted, once more, and whether it is still there. What stops the
question from being answered stops the waiting too. -/
def namespaceGone (cluster : Cluster) (ns : String) : Wait.Probe clusterApi Unit :=
  .ask (A := clusterApi) ⟨cluster, .delete .space ⟨"", ns⟩⟩ fun _ =>
    .ask (A := clusterApi) ⟨cluster, .get .space ⟨"", ns⟩⟩ fun lookup =>
      .done <|
        match lookup with
        | .ok _ => .error (.notReady (.namespacePresent ns))
        | .error _ => .ok ()

/-- Waits for a namespace to go, however long that takes, unless it is not there. -/
def awaitGone (cluster : Cluster) (ns : String) : Check Unit := do
  match ← Check.attempt <| Check.request "namespace lookup" cluster (.get .space ⟨"", ns⟩) with
  | .ok _ =>
    Check.poll Wait.defaultPacing ("namespace " ++ ns ++ " deletion") (namespaceGone cluster ns)
  | .error f => if f.endsWait then throw f else pure ()

/-- Deletes the topology from one cluster and waits for its namespace to go. Deletions that fail are
passed over; the deletion of the namespace is asked for again and again. -/
def teardown (cluster : Cluster) (ns : String) : Check Unit := do
  (everyObject ++ [(Kind.space, ns)]).forM fun (kind, name) => do
    let _ ← Check.attempt <| Check.request (kind.phrase ++ " deletion") cluster
      (.delete kind (kind.keyIn ns name))
  awaitGone cluster ns

/-- The zone for the workloads of a performance run; other runs need none. -/
def chooseZone (clients : Clients) (settings : Settings) : Survey String :=
  if settings.performance then
    Topology.selectZone <$> Survey.request "node list" clients.source .listNodes
  else pure ""

/-- Takes the steps of a plan in order. -/
def takeSteps (clients : Clients) (ns : String) (steps : List (Side × Item)) : Survey Unit :=
  steps.forM fun (side, item) => ensure (clients.get side) ns item

/-- Provisions what the run needs, after a teardown if that is asked for, and returns the plan. -/
def deploy (clients : Clients) (settings : Settings) (features : FeatureSet) : Survey Plan := do
  let ns := settings.testNamespace
  if settings.forceDeploy then
    clients.distinct.forM fun cluster => Survey.check (teardown cluster ns)
  let plan := Topology.plan settings features (← chooseZone clients settings)
  takeSteps clients ns plan.steps
  return plan

end Reachability
