import Reachability.Decimal.Binary64

namespace Reachability.Document

inductive Style where
  | plain
  | singleQuoted
  | doubleQuoted
  | literal
deriving DecidableEq, Repr

/-- Characters that end a line. -/
def isBreak (c : Char) : Bool :=
  c == '\n' || c == '\r' || c.toNat == 0x85 || c.toNat == 0x2028 || c.toNat == 0x2029

/-- Characters that may stand in a document unescaped. -/
def isWritable (c : Char) : Bool :=
  let n := c.toNat
  n == 0x0A || (0x20 ≤ n && n ≤ 0x7E) || (0xA0 ≤ n && n ≤ 0xFFFD && n != 0xFEFF) || 0x10000 ≤ n

/-- Separates tokens, as the end of the text does. -/
def separates : Option Char → Bool
  | none => true
  | some c => c == ' ' || c == '\t' || c == '\x00' || isBreak c

/-- `p` holds of some two characters that stand side by side. -/
def anyAdjacent (p : Char → Char → Bool) : List Char → Bool
  | a :: b :: rest => p a b || anyAdjacent p (b :: rest)
  | _ => false

/-- A colon before a blank, or a number sign after one, somewhere after the first character. -/
def hasInnerIndicator : List Char → Bool
  | a :: b :: rest =>
    (b == ':' && separates rest.head?) || (b == '#' && separates (some a)) ||
      hasInnerIndicator (b :: rest)
  | _ => false

/-- The text starts like a document marker, a collection, an anchor or another construct. -/
def startsLikeConstruct (s : List Char) : Bool :=
  ['-', '-', '-'].isPrefixOf s || ['.', '.', '.'].isPrefixOf s ||
    match s with
    | [] => false
    | c :: rest =>
      "#,[]\x7b\x7d&*!|>'\"%@\x60".toList.contains c ||
        ((c == '?' || c == ':' || c == '-') && separates rest.head?)

/-- A space before the end or before a break cannot be seen, and a break has to keep it. -/
def hasSpaceBeforeBreak (s : List Char) : Bool := anyAdjacent (fun a b => a == ' ' && isBreak b) s

def hasSpaceAfterBreak (s : List Char) : Bool := anyAdjacent (fun a b => isBreak a && b == ' ') s

def hasUnwritable (s : List Char) : Bool := s.any (!isWritable ·)

/-- A space or a break is the first or the last character. -/
def hasOuterBlank (s : List Char) : Bool :=
  let blank (c : Option Char) := (c.map fun c => c == ' ' || isBreak c).getD false
  blank s.head? || blank s.getLast?

def plainAllowed (s : List Char) : Bool :=
  !(s.isEmpty || hasOuterBlank s || hasUnwritable s || s.any isBreak || startsLikeConstruct s ||
    hasInnerIndicator s)

def singleQuotedAllowed (s : List Char) : Bool :=
  !(hasSpaceAfterBreak s || hasSpaceBeforeBreak s || hasUnwritable s)

def literalAllowed (s : List Char) : Bool :=
  !(s.isEmpty || s.getLast? == some ' ' || hasSpaceBeforeBreak s || hasUnwritable s)

/-- Digits after a zero, with or without a sign: no number, though other readers may take it for
one. -/
def isPaddedNumber (s : List Char) : Bool :=
  match (Decimal.sign s).2 with
  | '0' :: rest => !rest.isEmpty && rest.all Char.isDigit
  | _ => false

def digitOf? (base : Nat) (c : Char) : Option Nat :=
  let value :=
    if c.isDigit then c.toNat - '0'.toNat
    else if 'a' ≤ c ∧ c ≤ 'f' then c.toNat - 'a'.toNat + 10
    else if 'A' ≤ c ∧ c ≤ 'F' then c.toNat - 'A'.toNat + 10
    else 16
  if value < base then some value else none

/-- The value of one or more digits. -/
def natural? (base : Nat) (s : List Char) : Option Nat :=
  if s.isEmpty then none
  else s.foldl (fun n c => do return (← n) * base + (← digitOf? base c)) (some 0)

/-- An integer of at most 128 bits, in base ten or after `0x`, `0o` or `0b` in another base. -/
def isInteger (s : List Char) : Bool :=
  let (negative, digits) := Decimal.sign s
  let bounded (n : Option Nat) : Bool :=
    (n.map fun n =>
      if negative then decide (n ≤ Nat.pow 2 127) else decide (n < Nat.pow 2 128)).getD false
  match digits with
  | '0' :: 'x' :: rest => bounded (natural? 16 rest)
  | '0' :: 'o' :: rest => bounded (natural? 8 rest)
  | '0' :: 'b' :: rest => bounded (natural? 2 rest)
  | digits => bounded (natural? 10 digits)

/-- A number with a finite value, or a spelling of infinity or of what is no number. -/
def isFloat (s : List Char) : Bool :=
  let (negative, rest) := Decimal.sign s
  ([".inf", ".Inf", ".INF"].any (·.toList == rest)) ||
    ([".nan", ".NaN", ".NAN"].any (·.toList == s)) ||
    ((Decimal.unsigned? negative rest).map fun d => (Binary64.ofDecimal d).isFinite).getD false

/-- Written plain, the text would read as null, a truth value or a number. -/
def readsAsOther (s : List Char) : Bool :=
  s.isEmpty ||
    ["~", "null", "Null", "NULL", "true", "True", "TRUE", "false", "False", "FALSE"].any
      (·.toList == s) ||
    isPaddedNumber s || isInteger s || isFloat s

/-- The style in which a text is written: plain where nothing in it could be misread, in single
quotes where it would read as something else, as a literal block where it has line feeds, and in
double quotes where the other styles would lose characters. -/
def styleOf (s : List Char) : Style :=
  let quoted := if singleQuotedAllowed s then .singleQuoted else .doubleQuoted
  if s.contains '\n' then
    if literalAllowed s then .literal else .doubleQuoted
  else if readsAsOther s then quoted
  else if plainAllowed s then .plain
  else quoted

end Reachability.Document
