import Reachability.Decimal.Basic

namespace Reachability

/-- A number as written. It is an integer if it has neither a fraction nor an exponent. -/
structure Numeral where
  negative : Bool
  whole : List Char
  fraction : List Char
  exponent : Option Int
deriving DecidableEq, Repr

namespace Numeral

def isInteger (n : Numeral) : Bool := n.fraction.isEmpty && n.exponent.isNone

/-- The value of a number that is written as an integer. -/
def toInt? (n : Numeral) : Option Int :=
  if n.isInteger then
    let magnitude : Int := Decimal.digitsValue n.whole
    some (if n.negative then -magnitude else magnitude)
  else none

/-- The value of a number that is written as an integer without a sign. -/
def toNat? (n : Numeral) : Option Nat :=
  if n.isInteger && !n.negative then some (Decimal.digitsValue n.whole) else none

end Numeral

/-- A text as spelled by a string: none if an escape in it names half of a surrogate pair. -/
abbrev Spelling := Option String

/-- A value as it is written, with the digits of its numbers and every member of its objects,
repeated ones included. -/
inductive Json where
  | null
  | boolean (b : Bool)
  | number (n : Numeral)
  | string (s : Spelling)
  | array (items : List Json)
  | object (members : List (Spelling × Json))
deriving Repr, Inhabited

namespace Json

def isBlank (c : Char) : Bool := c == ' ' || c == '\n' || c == '\r' || c == '\t'

def skipBlank (s : List Char) : List Char := s.dropWhile isBlank

def hexValue? (c : Char) : Option Nat :=
  if c.isDigit then some (c.toNat - '0'.toNat)
  else if 'a' ≤ c ∧ c ≤ 'f' then some (c.toNat - 'a'.toNat + 10)
  else if 'A' ≤ c ∧ c ≤ 'F' then some (c.toNat - 'A'.toNat + 10)
  else none

/-- The code unit of four hexadecimal digits. -/
def unit? (a b c d : Char) : Option Nat := do
  return (((← hexValue? a) * 16 + (← hexValue? b)) * 16 + (← hexValue? c)) * 16 + (← hexValue? d)

/-- The character that a backslash and this letter stand for. -/
def shortEscape? : Char → Option Char
  | '"' => some '"'
  | '\\' => some '\\'
  | '/' => some '/'
  | 'b' => some '\x08'
  | 'f' => some '\x0c'
  | 'n' => some '\n'
  | 'r' => some '\r'
  | 't' => some '\t'
  | _ => none

/-- The code points and code units of a string up to its closing quote, and what follows. -/
def stringUnits : List Char → Option (List Nat × List Char)
  | [] => none
  | '"' :: rest => some ([], rest)
  | '\\' :: 'u' :: a :: b :: c :: d :: rest => do
    let u ← unit? a b c d
    let (us, rest) ← stringUnits rest
    return (u :: us, rest)
  | '\\' :: c :: rest => do
    let e ← shortEscape? c
    let (us, rest) ← stringUnits rest
    return (e.toNat :: us, rest)
  | c :: rest => do
    if c.toNat < 0x20 || c == '\\' then none
    let (us, rest) ← stringUnits rest
    return (c.toNat :: us, rest)

/-- Joins the halves of surrogate pairs, none of which may stand alone. -/
def joinPairs : List Nat → Option (List Char)
  | [] => some []
  | u :: v :: rest =>
    if 0xD800 ≤ u ∧ u < 0xDC00 then
      if 0xDC00 ≤ v ∧ v < 0xE000 then do
        return Char.ofNat (0x10000 + (u - 0xD800) * 0x400 + (v - 0xDC00)) :: (← joinPairs rest)
      else none
    else if 0xDC00 ≤ u ∧ u < 0xE000 then none
    else do return Char.ofNat u :: (← joinPairs (v :: rest))
  | [u] => if 0xD800 ≤ u ∧ u < 0xE000 then none else some [Char.ofNat u]

/-- A string after its opening quote. -/
def string? (s : List Char) : Option (Spelling × List Char) := do
  let (units, rest) ← stringUnits s
  return ((joinPairs units).map String.ofList, rest)

/-- Digits and what follows them. -/
def digits (s : List Char) : List Char × List Char :=
  (s.takeWhile Char.isDigit, s.dropWhile Char.isDigit)

/-- The digits after a point, of which there is at least one; none if there is no point. -/
def fraction? : List Char → Option (List Char × List Char)
  | '.' :: rest => if (digits rest).1.isEmpty then none else some (digits rest)
  | rest => some ([], rest)

/-- The exponent, if there is one. -/
def exponent? : List Char → Option (Option Int × List Char)
  | c :: rest =>
    if c = 'e' ∨ c = 'E' then
      let (negative, rest) := Decimal.sign rest
      let (ds, rest) := digits rest
      let n : Int := Decimal.digitsValue ds
      if ds.isEmpty then none else some (some (if negative then -n else n), rest)
    else some (none, c :: rest)
  | [] => some (none, [])

/-- A number without its sign. Its whole part has no zero before another digit. -/
def number? (negative : Bool) (s : List Char) : Option (Numeral × List Char) := do
  let (whole, rest) ←
    match s with
    | '0' :: rest => some (['0'], rest)
    | s => if (digits s).1.isEmpty then none else some (digits s)
  let (fraction, rest) ← fraction? rest
  let (exponent, rest) ← exponent? rest
  return ({ negative, whole, fraction, exponent }, rest)

def literal? (word : String) (v : Json) (s : List Char) : Option (Json × List Char) :=
  if word.toList.isPrefixOf s then some (v, s.drop word.length) else none

mutual

/-- A value and what follows it. The fuel bounds the number of characters. -/
def value? : Nat → List Char → Option (Json × List Char)
  | 0, _ => none
  | fuel + 1, s =>
    match skipBlank s with
    | '\x7b' :: rest =>
      match skipBlank rest with
      | '\x7d' :: rest => some (object [], rest)
      | rest => (members? fuel rest).map fun (ms, rest) => (object ms, rest)
    | '[' :: rest =>
      match skipBlank rest with
      | ']' :: rest => some (array [], rest)
      | rest => (items? fuel rest).map fun (vs, rest) => (array vs, rest)
    | '"' :: rest => (string? rest).map fun (t, rest) => (string t, rest)
    | '-' :: rest => (number? true rest).map fun (n, rest) => (number n, rest)
    | 'n' :: rest => literal? "null" null ('n' :: rest)
    | 't' :: rest => literal? "true" (boolean true) ('t' :: rest)
    | 'f' :: rest => literal? "false" (boolean false) ('f' :: rest)
    | rest => (number? false rest).map fun (n, rest) => (number n, rest)

/-- The values of an array up to its closing bracket. -/
def items? : Nat → List Char → Option (List Json × List Char)
  | 0, _ => none
  | fuel + 1, s => do
    let (v, rest) ← value? fuel s
    match skipBlank rest with
    | ']' :: rest => some ([v], rest)
    | ',' :: rest => (items? fuel rest).map fun (vs, rest) => (v :: vs, rest)
    | _ => none

/-- The members of an object up to its closing brace. -/
def members? : Nat → List Char → Option (List (Spelling × Json) × List Char)
  | 0, _ => none
  | fuel + 1, s => do
    match skipBlank s with
    | '"' :: rest =>
      let (k, rest) ← string? rest
      match skipBlank rest with
      | ':' :: rest =>
        let (v, rest) ← value? fuel rest
        match skipBlank rest with
        | '\x7d' :: rest => some ([(k, v)], rest)
        | ',' :: rest => (members? fuel rest).map fun (ms, rest) => ((k, v) :: ms, rest)
        | _ => none
      | _ => none
    | _ => none

end

/-- The value that a text spells, with nothing but blanks around it. -/
def parse (text : String) : Option Json := do
  let s := text.toList
  let (v, rest) ← value? (s.length + 1) s
  if (skipBlank rest).isEmpty then some v else none

/-- The value of the first member of this name. -/
def member? (name : String) : Json → Option Json
  | object members => (members.find? fun m => m.1 == some name).map (·.2)
  | _ => none

def text? : Json → Option String
  | string s => s
  | _ => none

def items : Json → List Json
  | array items => items
  | _ => []

end Json

end Reachability
