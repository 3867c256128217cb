import Reachability.Decimal.Basic

namespace Reachability.Decimal

/-- An integer that fits into 64 bits with its sign. -/
def isInteger64 (n : Int) : Bool := -(Nat.pow 2 63 : Nat) ≤ n && n < (Nat.pow 2 63 : Nat)

/-- Digits with an optional sign, as an integer of 64 bits. -/
def integer64? (s : String) : Option Int :=
  let (negative, digits) := sign s.toList
  if digits.isEmpty ∨ !digits.all Char.isDigit then none
  else
    let n : Int := digitsValue digits
    let n := if negative then -n else n
    if isInteger64 n then some n else none

/-- Digits with an optional plus, as a natural number of 64 bits. -/
def word64? (s : String) : Option UInt64 :=
  let digits :=
    match s.toList with
    | '+' :: rest => rest
    | rest => rest
  if digits.isEmpty ∨ !digits.all Char.isDigit then none
  else
    let n := digitsValue digits
    if n < Nat.pow 2 64 then some (UInt64.ofNat n) else none

example : integer64? "-007" = some (-7) := by decide +kernel
example : integer64? "9223372036854775808" = none := by decide +kernel
example : word64? "+18446744073709551615" = some 18446744073709551615 := by decide +kernel

end Reachability.Decimal
