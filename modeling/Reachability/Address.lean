namespace Reachability

inductive Address where
  | v4 (octets : List Nat)
  | v6 (groups : List Nat)
deriving DecidableEq, Repr

namespace Address

/-- The value of a digit, for bases up to sixteen. -/
def digitValue (c : Char) : Nat :=
  if c.isDigit then c.toNat - '0'.toNat
  else if 'a' ≤ c ∧ c ≤ 'f' then c.toNat - 'a'.toNat + 10
  else c.toNat - 'A'.toNat + 10

def isHexDigit (c : Char) : Bool :=
  c.isDigit || ('a' ≤ c && c ≤ 'f') || ('A' ≤ c && c ≤ 'F')

def valueOf (base : Nat) (digits : List Char) : Nat :=
  digits.foldl (fun n c => n * base + digitValue c) 0

/-- One to three decimal digits of a number below 256, the first a zero only if it stands alone. -/
def octet? (s : List Char) : Option (Nat × List Char) :=
  let digits := s.takeWhile Char.isDigit
  let value := valueOf 10 digits
  if digits.isEmpty || 3 < digits.length || (digits.head? == some '0' && 1 < digits.length) ||
      255 < value
  then none
  else some (value, s.dropWhile Char.isDigit)

/-- One to four hexadecimal digits. -/
def group? (s : List Char) : Option (Nat × List Char) :=
  let digits := s.takeWhile isHexDigit
  if digits.isEmpty || 4 < digits.length then none
  else some (valueOf 16 digits, s.dropWhile isHexDigit)

def expect? (c : Char) : List Char → Option (List Char)
  | d :: rest => if d = c then some rest else none
  | [] => none

/-- Four octets with points between them. -/
def quad? (s : List Char) : Option (List Nat × List Char) := do
  let (a, s) ← octet? s
  let (b, s) ← octet? (← expect? '.' s)
  let (c, s) ← octet? (← expect? '.' s)
  let (d, s) ← octet? (← expect? '.' s)
  return ([a, b, c, d], s)

/-- The longest run of at most `room` groups with colons between them, and whether it ends in the
form of an IPv4 address, which takes the room of two groups. -/
def groups (room : Nat) (first : Bool) (s : List Char) : List Nat × Bool × List Char :=
  match room with
  | 0 => ([], false, s)
  | room + 1 =>
    match if first then some s else expect? ':' s with
    | none => ([], false, s)
    | some t =>
      match if room = 0 then none else quad? t with
      | some ([a, b, c, d], rest) => ([a * 256 + b, c * 256 + d], true, rest)
      | _ =>
        match group? t with
        | none => ([], false, s)
        | some (g, rest) =>
          let (gs, dotted, rest) := groups room false rest
          (g :: gs, dotted, rest)

/-- Eight groups, or fewer with one `::` in place of the missing ones, of which there is at least
one. -/
def sixteenBytes? (s : List Char) : Option (List Nat × List Char) := do
  let (head, dotted, s) := groups 8 true s
  if head.length = 8 then return (head, s)
  if dotted then none
  let s ← expect? ':' (← expect? ':' s)
  let (tail, _, s) := groups (7 - head.length) true s
  return (head ++ List.replicate (8 - head.length - tail.length) 0 ++ tail, s)

def ofChars? (s : List Char) : Option Address :=
  match quad? s with
  | some (octets, []) => some (.v4 octets)
  | some _ => none
  | none =>
    match sixteenBytes? s with
    | some (groups, []) => some (.v6 groups)
    | _ => none

/-- The address that a text spells, if it spells one. An IPv4 address is four decimal octets; an
IPv6 address is eight groups of up to four hexadecimal digits, where `::` stands for one or more
groups of zeros and the last two groups may be written as an IPv4 address. Leading zeros of an octet
and zone names have no reading. -/
def ofString? (s : String) : Option Address := ofChars? s.toList

/-- The number of bits of an address, which is the length of the prefix that covers it alone. -/
def bits : Address → Nat
  | .v4 _ => 32
  | .v6 _ => 128

example : ofString? "10.0.1.5" = some (.v4 [10, 0, 1, 5]) := by decide +kernel
example : ofString? "fd00::5" = some (.v6 [0xfd00, 0, 0, 0, 0, 0, 0, 5]) := by decide +kernel
example : ofString? "::ffff:1.2.3.4" = some (.v6 [0, 0, 0, 0, 0, 0xffff, 0x102, 0x304]) := by
  decide +kernel
example : ofString? "1.2.3.04" = none := by decide +kernel

end Address

/-- Which addresses of a pod a question is about. -/
inductive Family where
  | any | v4 | v6
deriving DecidableEq, Repr

def Family.admits (family : Family) (ip : String) : Bool :=
  match family, Address.ofString? ip with
  | .any, _ => true
  | .v4, some (.v4 _) => true
  | .v6, some (.v6 _) => true
  | _, _ => false

end Reachability
