import Reachability.Cluster.Api
import Reachability.Manifest.Document

namespace Reachability.Wire

open Manifest (Kind)

inductive Method where
  | get
  | post
  | delete
deriving DecidableEq, Repr

def Method.word : Method → String
  | get => "GET"
  | post => "POST"
  | delete => "DELETE"

/-- A request to an API server over HTTP. -/
structure Message where
  method : Method
  path : String
  query : List (String × String) := []
  body : Option Document := none

/-- The path of the namespaced objects that a group of the API holds under a word. -/
def inNamespace (group ns word : String) : String := group ++ "/namespaces/" ++ ns ++ "/" ++ word

def core : String := "/api/v1"

/-- The group of the agent's own objects. -/
def agentGroup : String := "/apis/cilium.io/v2"

/-- The path of all objects of a kind in a namespace. -/
def collection (ns : String) : Kind → String
  | .space => core ++ "/namespaces"
  | .configMap => inNamespace core ns "configmaps"
  | .service => inNamespace core ns "services"
  | .serviceAccount => inNamespace core ns "serviceaccounts"
  | .deployment => inNamespace "/apis/apps/v1" ns "deployments"
  | .daemonSet => inNamespace "/apis/apps/v1" ns "daemonsets"
  | .ingress => inNamespace "/apis/networking.k8s.io/v1" ns "ingresses"

/-- The path of one object. -/
def path (kind : Kind) (key : ObjectKey) : String := collection key.space kind ++ "/" ++ key.name

/-- A selector by labels; an empty one is left out. -/
def selection (selector : String) : List (String × String) :=
  if selector.isEmpty then [] else [("labelSelector", selector)]

/-- Asks for both output streams of a command, in a container if one is named. -/
def attachment (container : String) (command : List String) : List (String × String) :=
  command.map (("command", ·)) ++ (if container.isEmpty then [] else [("container", container)]) ++
    [("stderr", "true"), ("stdout", "true")]

/-- The message that makes a request. -/
def message : Request → Message
  | .get kind key => { method := .get, path := path kind key }
  | .create ns object =>
    { method := .post, path := collection ns object.kind, body := some object.document }
  | .delete kind key => { method := .delete, path := path kind key, body := some (.mapping []) }
  | .listPods ns selector =>
    { method := .get, path := inNamespace core ns "pods", query := selection selector }
  | .listServices ns selector =>
    { method := .get, path := inNamespace core ns "services", query := selection selector }
  | .listNodes => { method := .get, path := core ++ "/nodes" }
  | .listExternalWorkloads =>
    { method := .get, path := agentGroup ++ "/ciliumexternalworkloads" }
  | .getEndpoint pod =>
    { method := .get, path := inNamespace agentGroup pod.space "ciliumendpoints/" ++ pod.name }
  | .exec pod container command =>
    { method := .get
      path := inNamespace core pod.space "pods/" ++ pod.name ++ "/exec"
      query := attachment container command }

end Reachability.Wire
