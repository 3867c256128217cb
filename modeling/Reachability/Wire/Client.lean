import Reachability.Wire.Reply

namespace Reachability.Wire

/-- The contexts that a user has configured. -/
structure Contexts where
  names : List String
  current : Option String := none

/-- The name of the cluster under a context, or under the current one if none is given. -/
def Contexts.cluster (c : Contexts) (context : Option String) : Except Failure String :=
  match context, c.current with
  | some name, _ => if name ∈ c.names then .ok name else .error (.invalid (.unusableContext name))
  | none, none => .error (.invalid .noCurrentContext)
  | none, some name =>
    if name ∈ c.names then .ok name else .error (.invalid (.unusableContext name))

/-- Sends messages to a cluster and waits for what comes back. -/
abbrev Transport := Message → Reply

/-- The reply of a host without a network. -/
def unreachable : Reply :=
  .lost "error trying to connect: tcp connect error: Network is unreachable (os error 101)"

/-- The transport of a host without a network. -/
def Transport.none : Transport := fun _ => unreachable

/-- Makes a request over a transport. -/
def perform (send : Transport) (r : Request) : Except Failure r.Answer :=
  answer r (send (message r))

/-- Makes the calls of a probe over the transports of the clusters. There is no result if that
crashes. -/
def performProbe (send : Cluster → Transport) :
    Wait.Probe clusterApi α → Option (Except Failure α)
  | .done result => some result
  | .crash => none
  | .ask call next => performProbe send (next (perform (send call.cluster) call.request))

end Reachability.Wire
