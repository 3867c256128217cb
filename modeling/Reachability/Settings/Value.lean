import Reachability.Decimal.Integer
import Reachability.Decimal.Shortest
import Reachability.Settings.Field
import Reachability.Text.Lowercase

namespace Reachability.Settings

/-- A value as a source of settings states it. -/
inductive Value where
  | nothing
  | truth (b : Bool)
  | integer (n : Int)
  | real (x : Binary64)
  | text (s : String)
  | list (items : List Value)
  | table (entries : List (String × Value))
deriving Repr, Inhabited

namespace Value

/-- What a text without a stated type is taken for: a truth value, an integer, a number, and
otherwise a text. -/
def ofText (s : String) : Value :=
  let word := Text.lowercase s
  if word = "true" then truth true
  else if word = "false" then truth false
  else
    match Decimal.integer64? s with
    | some n => integer n
    | none =>
      match Binary64.ofString? s with
      | some x => real x
      | none => text s

def text? : Value → Option String
  | text s => some s
  | truth b => some (if b then "true" else "false")
  | integer n => some (toString n)
  | real x => some x.toText
  | _ => none

def truth? : Value → Option Bool
  | truth b => some b
  | integer n => some (n != 0)
  | real x => some !x.isZero
  | text s =>
    let word := Text.lowercase s
    if word ∈ ["1", "true", "on", "yes"] then some true
    else if word ∈ ["0", "false", "off", "no"] then some false
    else none
  | _ => none

/-- Fractions are rounded, and numbers below zero or beyond 64 bits taken to the nearest end. -/
def seconds? : Value → Option UInt64
  | truth b => some (if b then 1 else 0)
  | integer n => if 0 ≤ n then some (UInt64.ofNat n.toNat) else none
  | real x => some (UInt64.ofNat (x.roundToNat (Nat.pow 2 64 - 1)))
  | text s =>
    let word := Text.lowercase s
    if word ∈ ["true", "on", "yes"] then some 1
    else if word ∈ ["false", "off", "no"] then some 0
    else Decimal.word64? s
  | _ => none

/-- A table of values of one form. -/
def table? (read : Value → Option α) : Value → Option (Dict String α)
  | table entries => entries.foldlM (fun d (k, v) => do return d.insert k (← read v)) ∅
  | _ => none

end Value

def valueReader : Reader Value
  | .text, v => v.text?
  | .optionalText, .nothing => some none
  | .optionalText, v => v.text?.map some
  | .truth, v => v.truth?
  | .seconds, v => v.seconds?
  | .texts, v => v.table? Value.text?
  | .truths, v => v.table? Value.truth?

end Reachability.Settings
