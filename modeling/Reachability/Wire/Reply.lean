import Reachability.Manifest.Read
import Reachability.Wire.Message
import Reachability.Wire.Status

namespace Reachability.Wire

/-- A piece of the streams of a command. -/
structure Frame where
  channel : Nat
  bytes : ByteArray

inductive Reply where
  /-- There is no connection, or it broke. -/
  | lost (text : String)
  | response (status : Nat) (body : String)
  /-- The streams of a command. -/
  | stream (frames : List Frame)

/-- A refusal as the server writes it. -/
def statedRefusal? (body : String) : Option Refusal := do
  let v ← Json.parse body
  let text (key : String) : Option String :=
    match v.member? key with
    | some v => v.text?
    | none => some ""
  let status ← (← v.member? "status").text?
  let code ← v.intAt? ["code"]
  if 0 ≤ code ∧ code < (Nat.pow 2 16 : Nat) then
    return { status, message := ← text "message", reason := ← text "reason", code := code.toNat }
  else none

/-- A refusal from a response, whatever its body is. -/
def refusal (status : Nat) (body : String) : Refusal :=
  (statedRefusal? body).getD
    { status := Status.text status
      message := Text.quoted body
      reason := "Failed to parse error data"
      code := status }

/-- The object that a reply holds. -/
def received (reply : Reply) : Except ApiFailure Json :=
  match reply with
  | .lost text => .error (.transport text)
  | .response status body =>
    if Status.isError status then .error (.refused (refusal status body))
    else
      match Json.parse body with
      | some (.object members) => .ok (.object members)
      | _ => .error .undecodable
  | .stream _ => .error .undecodable

/-- The objects of a list. -/
def receivedItems (reply : Reply) : Except ApiFailure (List Json) := do
  match (← received reply).member? "items" with
  | some (.array items) => return items
  | _ => throw .undecodable

/-- Why no streams of a command came about. -/
inductive AttachFailure where
  | request (why : ApiFailure)
  /-- The server answered with this status instead of opening the streams. -/
  | notSwitched (status : Nat)
deriving DecidableEq

def AttachFailure.message : AttachFailure → String
  | request why => why.message
  | notSwitched status =>
    "failed to upgrade to a WebSocket connection: failed to switch protocol: " ++
      Status.text status

/-- What a client error means that the server answers instead of opening the streams. -/
def attachRefusal (status : Nat) : Refusal :=
  { status := "Failure"
    message := "exec upgrade rejected with " ++ Status.text status
    reason := (Status.phrase? status).getD ""
    code := status }

/-- The failure to attach to a pod for a command. That the server lets nobody attach is reported as
the server reports it; whatever else keeps a command from running is a failure of the command. -/
def attachFailure (pod : ObjectKey) (command : List String) : AttachFailure → Failure
  | .request (.refused r) => .ofApi "pod" pod.name (.refused r)
  | .notSwitched status =>
    if Status.isClientError status then .ofApi "pod" pod.name (.refused (attachRefusal status))
    else .exec pod command (AttachFailure.notSwitched status).message ""
  | why => .exec pod command why.message ""

/-- How a command ended, by its status frame. -/
structure ExitStatus where
  succeeded : Bool
  message : String

def exitStatus? (bytes : ByteArray) : Option ExitStatus := do
  let v ← Json.parse (← String.fromUTF8? bytes)
  match v with
  | .object _ =>
    return { succeeded := v.textAt? ["status"] == some "Success"
             message := (v.textAt? ["message"]).getD "" }
  | _ => none

/-- The bytes of a channel. -/
def channelBytes (channel : Nat) (frames : List Frame) : ByteArray :=
  (frames.filter (·.channel == channel)).foldl (fun all f => all ++ f.bytes) .empty

/-- A frame that states how the command ended. -/
def Frame.isStatus (f : Frame) : Bool := f.channel == 3 && !f.bytes.isEmpty

/-- The output of a command, if it succeeded and wrote no errors. Frames after its status do not
count. -/
def commandOutput (pod : ObjectKey) (command : List String) (frames : List Frame) :
    Except Failure String :=
  let before := frames.takeWhile (!·.isStatus)
  let status := ((frames.find? (·.isStatus)).map (·.bytes)).bind exitStatus?
  match String.fromUTF8? (channelBytes 1 before), String.fromUTF8? (channelBytes 2 before) with
  | some output, some errors =>
    match status with
    | some ⟨false, message⟩ =>
      .error (.exec pod command (if message.isEmpty then errors else message) output)
    | _ => if errors.isEmpty then .ok output else .error (.exec pod command errors output)
  | _, _ => .error (.io "stream did not contain valid UTF-8")

/-- The output of a command, or why it did not run. -/
def executed (pod : ObjectKey) (command : List String) : Reply → Except Failure String
  | .lost text => .error (attachFailure pod command (.request (.transport text)))
  | .response status _ => .error (attachFailure pod command (.notSwitched status))
  | .stream frames => commandOutput pod command frames

/-- The object of a kind in a reply. -/
def found : (kind : Manifest.Kind) → Json → kind.Found
  | .deployment, v => Manifest.Deployment.ofJson v
  | .space, _ | .configMap, _ | .service, _ | .serviceAccount, _ | .daemonSet, _ | .ingress, _ => ()

/-- The answer to a request that a reply stands for. -/
def answer : (r : Request) → Reply → Except Failure r.Answer
  | .get kind key, reply =>
    ((received reply).map (found kind)).mapError (.ofApi kind.label key.name)
  | .create _ object, reply =>
    ((received reply).map fun _ => ()).mapError (.ofApi object.kind.label object.name)
  | .delete kind key, reply =>
    ((received reply).map fun _ => ()).mapError (.ofApi kind.label key.name)
  | .listPods .., reply =>
    ((receivedItems reply).map (·.map Manifest.Pod.ofJson)).mapError .api
  | .listServices .., reply =>
    ((receivedItems reply).map (·.map Manifest.Service.ofJson)).mapError .api
  | .listNodes, reply => ((receivedItems reply).map (·.map Manifest.Node.ofJson)).mapError .api
  | .listExternalWorkloads, reply =>
    ((receivedItems reply).map (·.map Manifest.Metadata.ofJson)).mapError
      (.ofApi "ciliumexternalworkload" "")
  | .getEndpoint pod, reply =>
    ((received reply).map fun _ => ()).mapError (.ofApi "ciliumendpoint" pod.name)
  | .exec pod _ command, reply => executed pod command reply

end Reachability.Wire
