import Reachability.ObjectKey
import Reachability.Text.Quoted

namespace Reachability

/-- An answer of the API server that refuses a request. -/
structure Refusal where
  status : String
  message : String
  reason : String
  code : Nat
deriving DecidableEq, Repr

/-- Why a request to the API server gave no object. -/
inductive ApiFailure where
  | refused (refusal : Refusal)
  /-- The client's own layers gave up on the request. -/
  | service (text : String)
  /-- No connection, or one that broke. -/
  | transport (text : String)
  /-- The answer is not of the form of the object asked for. -/
  | undecodable
deriving DecidableEq, Repr

/-- Why an object does not yet count as converged. -/
inductive Unready where
  | withoutStatus (deployment : String)
  | unobserved (deployment : String) (generation observed : Int)
  | outdated (deployment : String) (updated desired : Int32)
  | terminating (deployment : String) (remaining : Int32)
  | unavailable (deployment : String) (available desired ready : Int32)
  | namespacePresent (name : String)
  | stated (text : String)
deriving DecidableEq, Repr

/-- The two kinds of pods that the identity cache has to know. -/
inductive Role where
  | client | echo
deriving DecidableEq, Repr

/-- What a check found to differ from what it expects. -/
inductive Mismatch where
  | notAnAddress (ip : String)
  | noEntry (range : String)
  | noIdentity (entry range : String)
  | malformedIdentity (entry : String)
  | withoutAddress (pod : ObjectKey)
  | untracked (role : Role) (pod : ObjectKey) (cause : Mismatch)
  | addressNotResolved (expected output : String)
  | deletionDenied (name : String)
  | unusableContext (name : String)
  | noCurrentContext
  | stated (text : String)
deriving DecidableEq, Repr

/-- Why a wait ended without any attempt to report. -/
inductive Interruption where
  | stillRunning
  | nothingCompleted
  | stated (text : String)
deriving DecidableEq, Repr

/-- What can go wrong in a run. -/
inductive Failure where
  | notFound (kind name : String)
  | alreadyExists (kind name : String)
  | unexpectedCount (what : String) (count : Nat)
  | noClientPod
  | deadlineExceeded (what : String) (source : Failure)
  | cancelled (what : String) (source : Failure)
  | interrupted (why : Interruption)
  | exec (pod : ObjectKey) (command : List String) (text stdout : String)
  | notReady (why : Unready)
  | invalid (why : Mismatch)
  | unreadableCache
  | api (why : ApiFailure)
  | settings (text : String)
  | io (text : String)
  | yaml
deriving DecidableEq, Repr, Inhabited

namespace Refusal

def display (r : Refusal) : String :=
  "ApiError: " ++ r.message ++ ": " ++ r.reason ++ " (ErrorResponse \x7b status: " ++
    Text.quoted r.status ++ ", message: " ++ Text.quoted r.message ++ ", reason: " ++
    Text.quoted r.reason ++ ", code: " ++ toString r.code ++ " \x7d)"

end Refusal

namespace ApiFailure

def message : ApiFailure → String
  | refused r => r.display
  | service text => "ServiceError: " ++ text
  | transport text => "HyperError: " ++ text
  | undecodable => "Error deserializing response"

/-- A missing object, by the server's word. -/
def isNotFound : ApiFailure → Bool
  | refused r => r.code == 404
  | _ => false

/-- A taken name, by the server's word. -/
def isAlreadyExists : ApiFailure → Bool
  | refused r => r.code == 409 && r.reason == "AlreadyExists"
  | _ => false

/-- Conflicts, throttling and faults of the server pass, and so do broken connections; a missing
object may still appear. -/
def retryable : ApiFailure → Bool
  | refused r => r.code == 404 || r.code == 409 || r.code == 429 || 500 ≤ r.code
  | _ => true

end ApiFailure

def Unready.message : Unready → String
  | withoutStatus d => "deployment " ++ d ++ " has no status yet"
  | unobserved d generation observed =>
    "deployment " ++ d ++ " update not observed yet (generation " ++ toString generation ++
      ", observed " ++ toString observed ++ ")"
  | outdated d updated desired =>
    "deployment " ++ d ++ ": " ++ toString updated.toInt ++ " of " ++ toString desired.toInt ++
      " replicas updated"
  | terminating d remaining =>
    "deployment " ++ d ++ ": " ++ toString remaining.toInt ++ " old replicas pending termination"
  | unavailable d available desired ready =>
    "deployment " ++ d ++ ": " ++ toString available.toInt ++ " of " ++ toString desired.toInt ++
      " replicas available, " ++ toString ready.toInt ++ " ready"
  | namespacePresent name => "namespace " ++ name ++ " still exists"
  | stated text => text

def Role.label : Role → String
  | client => "client"
  | echo => "echo"

def Mismatch.message : Mismatch → String
  | notAnAddress ip => "invalid pod IP " ++ Text.quoted ip
  | noEntry range => range ++ " not found in ipcache"
  | noIdentity entry range =>
    "no identity in ipcache entry " ++ Text.quoted entry ++ " for " ++ range
  | malformedIdentity entry => "malformed identity in ipcache entry " ++ Text.quoted entry
  | withoutAddress pod => "pod " ++ pod.toString ++ " has no IP yet"
  | untracked role pod cause =>
    "couldn't find " ++ role.label ++ " pod " ++ pod.toString ++ " in ipcache: " ++ cause.message
  | addressNotResolved expected output =>
    "Service IP " ++ Text.quoted expected ++ " not found in nslookup output " ++ Text.quoted output
  | deletionDenied name => "admission webhook denied deletion of namespace " ++ name
  | unusableContext name =>
    "failed to load kubeconfig: failed to load current context: " ++ name
  | noCurrentContext => "failed to load kubeconfig: failed to determine current context"
  | stated text => text

def Interruption.message : Interruption → String
  | stillRunning => "probe still running when deadline reached"
  | nothingCompleted => "cancelled before any attempt completed"
  | stated text => text

namespace Failure

def message : Failure → String
  | notFound kind name => kind ++ " " ++ name ++ " not found"
  | alreadyExists kind name => kind ++ " " ++ name ++ " already exists"
  | unexpectedCount what count => "unexpected number of " ++ what ++ ": " ++ toString count
  | noClientPod => "no client pod available"
  | deadlineExceeded what source =>
    "timeout reached waiting for " ++ what ++ " (last error: " ++ source.message ++ ")"
  | cancelled what source =>
    "waiting for " ++ what ++ " was cancelled (last error: " ++ source.message ++ ")"
  | interrupted why => why.message
  | exec pod command text _ =>
    "command " ++ Text.quotedList command ++ " in pod " ++ pod.toString ++ " failed: " ++ text
  | notReady why => why.message
  | invalid why => why.message
  | unreadableCache => "failed to unmarshal ipcache dump"
  | api why => "Kubernetes API error: " ++ why.message
  | settings text => "configuration error: " ++ text
  | io text => "I/O error: " ++ text
  | yaml => "YAML error"

/-- The failure of a request about one named object: a missing object and a taken name have causes
of their own, whatever the server wrote in the answer. -/
def ofApi (kind name : String) (why : ApiFailure) : Failure :=
  if why.isNotFound then notFound kind name
  else if why.isAlreadyExists then alreadyExists kind name
  else api why

def isNotFound : Failure → Bool
  | notFound .. => true
  | api why => why.isNotFound
  | _ => false

def isAlreadyExists : Failure → Bool
  | alreadyExists .. => true
  | api why => why.isAlreadyExists
  | _ => false

/-- A wait may try again: the probe failed, or what it looks at has not converged. Wrong counts, a
missing vantage point, an ended wait and requests that the server rejects for good end it. -/
def retryable : Failure → Bool
  | notFound .. | exec .. | notReady _ | invalid _ | unreadableCache | interrupted _ | io _ => true
  | api why => why.retryable
  | alreadyExists .. | unexpectedCount .. | noClientPod | deadlineExceeded .. | cancelled ..
  | settings _ | yaml => false

/-- The wait's own time ran out. -/
def isDeadlineExceeded : Failure → Bool
  | deadlineExceeded .. => true
  | _ => false

def isCancelled : Failure → Bool
  | cancelled .. => true
  | _ => false

/-- The wait ended, and not the probe. -/
def endsWait (f : Failure) : Bool := f.isCancelled || f.isDeadlineExceeded

end Failure

end Reachability
