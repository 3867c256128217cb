import Reachability.Decimal.Binary64
import Reachability.Json

namespace Reachability

namespace Binary64

/-- The product of a number with `10 ^ n`, each rounded. -/
def scaleUp (x : Binary64) (n : Nat) : Binary64 :=
  match x, nearest false (Nat.pow 10 n) 1 with
  | finite negative s e, finite _ s' e' =>
    let (num, den) := magnitude s e
    let (num', den') := magnitude s' e'
    nearest negative (num * num') (den * den')
  | x, _ => x

/-- The quotient of a number by `10 ^ n`, each rounded. -/
def scaleDown (x : Binary64) (n : Nat) : Binary64 :=
  match x, nearest false (Nat.pow 10 n) 1 with
  | finite negative s e, finite _ s' e' =>
    let (num, den) := magnitude s e
    let (num', den') := magnitude s' e'
    nearest negative (num * den') (den * num')
  | x, _ => x

end Binary64

namespace Numeral

/-- The value of `n` followed by digits, as far as it fits into 64 bits, and the number of digits
taken. -/
def leading (n : Nat) : List Char → Nat × Nat
  | [] => (n, 0)
  | c :: rest =>
    let next := n * 10 + (c.toNat - '0'.toNat)
    if Nat.pow 2 64 ≤ next then (n, 0)
    else
      let (value, taken) := leading next rest
      (value, taken + 1)

/-- The digits that count, and the power of ten of the last of them. -/
def scientific (n : Numeral) : Nat × Int :=
  let (whole, taken) := leading 0 n.whole
  let (digits, taken') := leading whole n.fraction
  (digits, n.exponent.getD 0 + (n.whole.length - taken : Nat) - taken')

/-- Divides by powers of ten up to `10 ^ 308` in turn. -/
def divide : Nat → Binary64 → Nat → Binary64
  | 0, x, _ => x
  | fuel + 1, x, n =>
    if x.isZero ∨ n ≤ 308 then x.scaleDown (min n 308) else divide fuel (x.scaleDown 308) (n - 308)

/-- The floating-point number, unless it is too large for one. It is taken as its leading digits, as
many as fit into 64 bits, times a power of ten. Both are rounded first and their product again, so
the result may be a neighbour of the nearest number. -/
def real? (n : Numeral) : Option Binary64 :=
  let (digits, power) := n.scientific
  let x := Binary64.nearest n.negative digits 1
  if x.isZero then some x
  else if power < 0 then some (divide 4 x (-power).toNat)
  else if 308 < power then none
  else
    match x.scaleUp power.toNat with
    | .infinite _ => none
    | x => some x

end Numeral

end Reachability
