import Reachability.Json
import Reachability.Manifest.Object

namespace Reachability

namespace Json

def at? (path : List String) (v : Json) : Option Json := path.foldlM (fun v k => v.member? k) v

def textAt? (path : List String) (v : Json) : Option String := (v.at? path).bind text?

def intAt? (path : List String) (v : Json) : Option Int :=
  match v.at? path with
  | some (number n) => n.toInt?
  | _ => none

def truthAt? (path : List String) (v : Json) : Option Bool :=
  match v.at? path with
  | some (boolean b) => some b
  | _ => none

def itemsAt (path : List String) (v : Json) : List Json := ((v.at? path).map items).getD []

/-- A table of texts; members that are no texts are passed over. -/
def labels : Json → Labels
  | object members =>
    .ofList (members.filterMap fun (k, v) => do return (← k, ← v.text?))
  | _ => ∅

def labelsAt (path : List String) (v : Json) : Labels := ((v.at? path).map labels).getD ∅

def textsAt (path : List String) (v : Json) : List String := (v.itemsAt path).filterMap text?

end Json

namespace Manifest

/-- The metadata of an object as the API server writes it. Fields that a run has no use for are
passed over, and so are fields of the wrong form. -/
def Metadata.ofJson (v : Json) : Metadata :=
  { name := v.textAt? ["metadata", "name"]
    space := v.textAt? ["metadata", "namespace"]
    labels := v.labelsAt ["metadata", "labels"]
    annotations := v.labelsAt ["metadata", "annotations"]
    generation := v.intAt? ["metadata", "generation"] }

def Pod.ofJson (v : Json) : Pod :=
  { metadata := .ofJson v
    nodeName := v.textAt? ["spec", "nodeName"]
    hostNetwork := v.truthAt? ["spec", "hostNetwork"]
    hostIP := v.textAt? ["status", "hostIP"]
    podIP := v.textAt? ["status", "podIP"]
    podIPs := (v.itemsAt ["status", "podIPs"]).map (·.textAt? ["ip"]) }

def Node.ofJson (v : Json) : Node := { metadata := .ofJson v }

def ServicePort.ofJson (v : Json) : ServicePort :=
  { number := (v.intAt? ["port"]).getD 0
    name := v.textAt? ["name"]
    protocol := v.textAt? ["protocol"]
    nodePort := v.intAt? ["nodePort"] }

def Service.ofJson (v : Json) : Service :=
  { metadata := .ofJson v
    type := v.textAt? ["spec", "type"]
    clusterIP := v.textAt? ["spec", "clusterIP"]
    ports := (v.itemsAt ["spec", "ports"]).map .ofJson
    selector := (v.at? ["spec", "selector"]).map Json.labels
    ipFamilyPolicy := v.textAt? ["spec", "ipFamilyPolicy"]
    balancerIPs := (v.itemsAt ["status", "loadBalancer", "ingress"]).map (·.textAt? ["ip"]) }

def replicasAt? (path : List String) (v : Json) : Option Int32 := (v.intAt? path).map Int32.ofInt

def DeploymentStatus.ofJson (v : Json) : DeploymentStatus :=
  { observedGeneration := v.intAt? ["observedGeneration"]
    replicas := replicasAt? ["replicas"] v
    updated := replicasAt? ["updatedReplicas"] v
    available := replicasAt? ["availableReplicas"] v
    ready := replicasAt? ["readyReplicas"] v }

def PodTemplate.ofJson (v : Json) : PodTemplate :=
  { metadata := .ofJson v
    spec :=
      { hostNetwork := (v.truthAt? ["spec", "hostNetwork"]).getD false
        serviceAccount := v.textAt? ["spec", "serviceAccountName"] } }

/-- An object member, unless it is left out or null. -/
def presentAt? (path : List String) (v : Json) : Option Json :=
  match v.at? path with
  | some .null => none
  | found => found

def Deployment.ofJson (v : Json) : Deployment :=
  { metadata := .ofJson v
    replicas := replicasAt? ["spec", "replicas"] v
    selector := v.labelsAt ["spec", "selector", "matchLabels"]
    template := ((v.at? ["spec", "template"]).map .ofJson).getD {}
    status := (presentAt? ["status"] v).map .ofJson }

end Manifest

end Reachability
