import Reachability.Decimal.Binary64

namespace Reachability

namespace Binary64

/-- The reals that round to a number, in units of `2 ^ (exponent - 2)`. -/
structure Rounding where
  low : Nat
  value : Nat
  high : Nat
  /-- The ends of the interval round to the number too. -/
  closed : Bool
deriving Repr

/-- A decimal reads back as a number if it lies between the midpoints of that and its two
neighbours; the midpoints themselves count when the significand is even, for ties go there. Below a
power of two the neighbours are half as far apart. -/
def rounding (significand : Nat) (exponent : Int) : Rounding :=
  { low :=
      if significand = Nat.pow 2 52 ∧ -1074 < exponent then 4 * significand - 1
      else 4 * significand - 2
    value := 4 * significand
    high := 4 * significand + 2
    closed := significand % 2 == 0 }

/-- `n · 2 ^ e · 10 ^ t` as a quotient of naturals. -/
def quotient (n : Nat) (e t : Int) : Nat × Nat :=
  let (num, den) := scaled n 1 e
  if 0 ≤ t then (num * Nat.pow 10 t.toNat, den) else (num, den * Nat.pow 10 (-t).toNat)

/-- The number of digits before the point, negative for zeros after it: the least `k` with
`v < 10 ^ k`. -/
def leadingExponent (significand : Nat) (exponent : Int) : Int :=
  let (n, d) := scaled significand 1 exponent
  if d ≤ n then (Nat.toDigits 10 (n / d)).length
  else
    match (List.range 400).find? fun k => d ≤ n * Nat.pow 10 (k + 1) with
    | some k => -(k : Int)
    | none => -400

/-- The decimal of `count` digits nearest to the number, if one of that length reads back: its
digits and the power of ten of the last of them. -/
def decimalOfLength? (significand : Nat) (exponent : Int) (count : Nat) : Option (Nat × Int) :=
  let r := rounding significand exponent
  let power := leadingExponent significand exponent - count
  -- in units of the last digit
  let (value, unit) := quotient r.value (exponent - 2) (-power)
  let (low, _) := quotient r.low (exponent - 2) (-power)
  let (high, _) := quotient r.high (exponent - 2) (-power)
  let below := value / unit
  let above := below + 1
  let lowFits := if r.closed then low ≤ below * unit else low < below * unit
  let highFits := if r.closed then above * unit ≤ high else above * unit < high
  if lowFits ∧ (¬highFits ∨ 2 * (value % unit) < unit) then some (below, power)
  else if highFits then some (above, power)
  else none

/-- The digits of the shortest decimal that reads back, and the power of ten of the last. -/
def shortest (significand : Nat) (exponent : Int) : Nat × Int :=
  ((List.range 17).findSome? fun n => decimalOfLength? significand exponent (n + 1)).getD
    (significand, 0)

/-- Digits and a power of ten in positional notation: no exponent, and no point unless a fraction
follows it. -/
def positional (digits : Nat) (power : Int) : String :=
  let text := Nat.toDigits 10 digits
  if 0 ≤ power then String.ofList (text ++ List.replicate power.toNat '0')
  else
    let places := (-power).toNat
    let padded := List.replicate (places + 1 - text.length) '0' ++ text
    let cut := padded.length - places
    String.ofList (padded.take cut ++ '.' :: padded.drop cut)

/-- The shortest positional text that reads back as the number. -/
def toText : Binary64 → String
  | nan => "NaN"
  | infinite negative => if negative then "-inf" else "inf"
  | finite negative significand exponent =>
    let sign := if negative then "-" else ""
    if significand = 0 then sign ++ "0"
    else
      let (digits, power) := shortest significand exponent
      sign ++ positional digits power

example : ((ofString? "0.1").map toText) = some "0.1" := by decide +kernel
example : ((ofString? "1e21").map toText) = some "1000000000000000000000" := by decide +kernel
example : ((ofString? "-2.50").map toText) = some "-2.5" := by decide +kernel

end Binary64

end Reachability
