import Reachability.Inventory
import Reachability.Wait.Procedure

namespace Reachability

open Manifest (Kind Object)

/-- A request to the API server of a cluster. The namespace of a cluster-wide object is empty. -/
inductive Request where
  | get (kind : Kind) (key : ObjectKey)
  | create (space : String) (object : Object)
  | delete (kind : Kind) (key : ObjectKey)
  | listPods (space selector : String)
  | listServices (space selector : String)
  | listNodes
  | listExternalWorkloads
  /-- The endpoint that the agent makes for a pod. -/
  | getEndpoint (pod : ObjectKey)
  /-- Runs a command in a container of a pod; an empty name leaves the choice to the server. -/
  | exec (pod : ObjectKey) (container : String) (command : List String)
deriving DecidableEq

/-- What is read of an object of some kind: a deployment in full, of others that they exist. -/
def Manifest.Kind.Found : Kind → Type
  | .deployment => Manifest.Deployment
  | _ => Unit

/-- The answer to a successful request. -/
def Request.Answer : Request → Type
  | get kind _ => kind.Found
  | create .. | delete .. | getEndpoint _ => Unit
  | listPods .. => List Manifest.Pod
  | listServices .. => List Manifest.Service
  | listNodes => List Manifest.Node
  | listExternalWorkloads => List Manifest.Metadata
  | exec .. => String

/-- A request to one of the clusters. -/
structure Call where
  cluster : Cluster
  request : Request
deriving DecidableEq

def clusterApi : Wait.Api := ⟨Call, fun c => c.request.Answer⟩

/-- What a run does on its clusters. -/
abbrev Task : Type → Type 1 := Wait.Procedure clusterApi

/-- A task that may fail. -/
abbrev Check : Type → Type 1 := ExceptT Failure Task

namespace Check

variable {α : Type}

/-- Makes one request, unless the wait ends first. -/
def request (what : String) (cluster : Cluster) (r : Request) : Check r.Answer :=
  ExceptT.mk (Wait.Procedure.request (A := clusterApi) what ⟨cluster, r⟩)

/-- Tries a probe until it succeeds or fails for good. -/
def poll (pacing : Nat) (what : String) (probe : Wait.Probe clusterApi α) : Check α :=
  ExceptT.mk (.poll pacing what probe .done)

/-- Gives a check so many milliseconds. -/
def within (timeout : Nat) (check : Check α) : Check α :=
  ExceptT.mk (.within timeout check.run .done)

/-- The outcome of a check, failure included. -/
def attempt (check : Check α) : Check (Except Failure α) := ExceptT.mk do return .ok (← check.run)

/-- Chooses one of the elements, if there are any. -/
def choose? (l : List α) : Check (Option α) :=
  match l with
  | [] => pure none
  | a :: rest => ExceptT.mk (.draw rest.length fun i => .done (.ok (a :: rest)[i]))

end Check

/-- A probe that makes one request to a cluster. -/
def probe (cluster : Cluster) (r : Request) : Wait.Probe clusterApi r.Answer :=
  .call (A := clusterApi) ⟨cluster, r⟩

end Reachability
