import Reachability.Inventory
import Reachability.Json
import Reachability.Text.Blank

namespace Reachability

/-- The entries of a cache by address range, such as `10.0.1.5/32`. Each entry is a line of fields,
such as `identity=1234 encryptkey=0`. -/
structure IdentityCache where
  entries : Dict String (List String)

namespace IdentityCache

def empty : IdentityCache := ⟨∅⟩

def entryList? : Json → Option (List String)
  | .array items => items.mapM Json.text?
  | _ => none

/-- Reads a dump: an object whose values are lists of texts. -/
def parse (dump : String) : Option IdentityCache := do
  match ← Json.parse dump with
  | .object members =>
    return ⟨← members.foldlM (fun d (k, v) => do return d.insert (← k) (← entryList? v)) ∅⟩
  | _ => none

def size (c : IdentityCache) : Nat := c.entries.size

/-- The range that holds one address alone. -/
def rangeOf (ip : String) (address : Address) : String := ip ++ "/" ++ toString address.bits

/-- What follows `identity=` in the first field that starts so. -/
def identityField? (entry : List Char) : Option (List Char) :=
  (Text.words entry).findSome? "identity=".toList.isPrefixOf?

/-- A number of 32 bits: digits, with or without a plus sign. -/
def readIdentity? (s : List Char) : Option Nat :=
  let digits := match s with
    | '+' :: rest => rest
    | s => s
  let n := Decimal.digitsValue digits
  if digits.isEmpty ∨ !digits.all Char.isDigit ∨ Nat.pow 2 32 ≤ n then none else some n

/-- The identity of one address: a number below `2 ^ 32`, in the first field that starts with
`identity=` in the first line of the entry for that address alone. -/
def identityOf (c : IdentityCache) (ip : String) : Except Mismatch Nat :=
  match Address.ofString? ip with
  | none => .error (.notAnAddress ip)
  | some address =>
    let range := rangeOf ip address
    match (c.entries.get? range).bind List.head? with
    | none => .error (.noEntry range)
    | some entry =>
      match identityField? entry.toList with
      | none => .error (.noIdentity entry range)
      | some field =>
        match readIdentity? field with
        | none => .error (.malformedIdentity entry)
        | some n => .ok n

/-- The identity of a pod, which is that of its last address. Every address has to be known. -/
def identityOfPod (c : IdentityCache) (p : Pod) : Except Mismatch Nat := do
  let ids ← p.ips.mapM c.identityOf
  match ids.getLast? with
  | some id => .ok id
  | none => .error (.withoutAddress p.key)

/-- Every tracked pod is known. -/
def covers (c : IdentityCache) (i : Inventory) : Except Mismatch Unit :=
  i.trackedPods.forM fun (role, pod) =>
    match c.identityOfPod pod with
    | .ok _ => .ok ()
    | .error why => .error (.untracked role pod.key why)

end IdentityCache

end Reachability
