import Reachability.Decimal.Basic

namespace Reachability

/-- A finite number is `± significand · 2 ^ exponent` with a significand below `2 ^ 53`, which is at
least `2 ^ 52` unless the exponent is -1074. -/
inductive Binary64 where
  | nan
  | infinite (negative : Bool)
  | finite (negative : Bool) (significand : Nat) (exponent : Int)
deriving DecidableEq, Repr

namespace Binary64

def isFinite : Binary64 → Bool
  | finite .. => true
  | _ => false

def zero (negative : Bool) : Binary64 := finite negative 0 (-1074)

/-- `num / den` rounded to a whole number, a half to the even one. -/
def roundHalfEven (num den : Nat) : Nat :=
  let q := num / den
  let r := 2 * (num % den)
  if den < r || (r == den && q % 2 == 1) then q + 1 else q

/-- `num · 2 ^ shift / den` as a quotient of naturals. -/
def scaled (num den : Nat) (shift : Int) : Nat × Nat :=
  if 0 ≤ shift then (num <<< shift.toNat, den) else (num, den <<< (-shift).toNat)

/-- The number nearest to `num / den`, and of two equally near ones the one with the even
significand; infinite if that is beyond the largest finite one. -/
def nearest (negative : Bool) (num den : Nat) : Binary64 :=
  if num = 0 then zero negative
  else
    let guess : Int := (num.log2 : Int) - den.log2
    let (n, d) := scaled num den (-guess)
    let top := if n < d then guess - 1 else guess
    let exponent := max (top - 52) (-1074)
    let (n, d) := scaled num den (-exponent)
    let significand := roundHalfEven n d
    let (significand, exponent) :=
      if significand = Nat.pow 2 53 then (Nat.pow 2 52, exponent + 1) else (significand, exponent)
    if 971 < exponent then infinite negative else finite negative significand exponent

/-- The number nearest to a decimal number. Numbers beyond every exponent are cut short. -/
def ofDecimal (d : Decimal) : Binary64 :=
  let magnitude := (Nat.toDigits 10 d.significand).length + d.exponent
  if d.significand = 0 ∨ magnitude < -400 then zero d.negative
  else if 400 < magnitude then infinite d.negative
  else if 0 ≤ d.exponent then nearest d.negative (d.significand * Nat.pow 10 d.exponent.toNat) 1
  else nearest d.negative d.significand (Nat.pow 10 (-d.exponent).toNat)

/-- The value of a finite number as a quotient of naturals, without its sign. -/
def magnitude (significand : Nat) (exponent : Int) : Nat × Nat := scaled significand 1 exponent

/-- The nearest whole number, a half going away from zero, as far as it fits between zero and
`limit`; what is no number counts as zero. -/
def roundToNat (limit : Nat) : Binary64 → Nat
  | nan => 0
  | infinite negative => if negative then 0 else limit
  | finite negative significand exponent =>
    if negative then 0
    else
      let (n, d) := magnitude significand exponent
      min limit ((2 * n + d) / (2 * d))

def isZero : Binary64 → Bool
  | finite _ significand _ => significand == 0
  | _ => false

/-- Reads a number in decimal notation, or the names of infinity and of what is no number, in any
case of their letters. -/
def ofString? (s : String) : Option Binary64 :=
  let (negative, rest) := Decimal.sign s.toList
  let word := String.ofList (rest.map Char.toLower)
  if word = "inf" ∨ word = "infinity" then some (infinite negative)
  else if word = "nan" then some nan
  else (Decimal.unsigned? negative rest).map ofDecimal

example : ofString? "0.1" = some (finite false 7205759403792794 (-56)) := by decide +kernel
example : ofString? "1.7976931348623159e308" = some (infinite false) := by decide +kernel
example : ofString? "5e-324" = some (finite false 1 (-1074)) := by decide +kernel

end Binary64

end Reachability
