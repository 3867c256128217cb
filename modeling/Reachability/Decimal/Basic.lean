namespace Reachability

/-- The number `± significand · 10 ^ exponent`. -/
structure Decimal where
  negative : Bool
  significand : Nat
  exponent : Int
deriving DecidableEq, Repr

namespace Decimal

/-- The value of a run of decimal digits. -/
def digitsValue (digits : List Char) : Nat :=
  digits.foldl (fun n c => n * 10 + (c.toNat - '0'.toNat)) 0

/-- A sign, if there is one: whether it is a minus, and the rest. -/
def sign : List Char → Bool × List Char
  | '-' :: rest => (true, rest)
  | '+' :: rest => (false, rest)
  | rest => (false, rest)

/-- The exponent at the end of a number: none, or the letter `e`, a sign and digits. -/
def exponent? : List Char → Option Int
  | [] => some 0
  | c :: rest =>
    if c = 'e' ∨ c = 'E' then
      let (negative, digits) := sign rest
      if digits.isEmpty ∨ !digits.all Char.isDigit then none
      else
        let n : Int := digitsValue digits
        some (if negative then -n else n)
    else none

/-- A decimal number without its sign: digits, a point among, before or after them, and an exponent.
-/
def unsigned? (negative : Bool) (s : List Char) : Option Decimal :=
  let whole := s.takeWhile Char.isDigit
  let rest := s.dropWhile Char.isDigit
  let (fraction, rest) :=
    match rest with
    | '.' :: rest => (rest.takeWhile Char.isDigit, rest.dropWhile Char.isDigit)
    | rest => ([], rest)
  if whole.isEmpty ∧ fraction.isEmpty then none
  else (exponent? rest).map fun e =>
    { negative
      significand := digitsValue (whole ++ fraction)
      exponent := e - fraction.length }

/-- A decimal number with an optional sign. -/
def ofChars? (s : List Char) : Option Decimal :=
  let (negative, rest) := sign s
  unsigned? negative rest

def ofString? (s : String) : Option Decimal := ofChars? s.toList

example : ofString? "-12.50e-3" = some ⟨true, 1250, -5⟩ := by decide +kernel
example : ofString? "5." = some ⟨false, 5, 0⟩ := by decide +kernel
example : ofString? ".e1" = none := by decide +kernel

end Decimal

end Reachability
