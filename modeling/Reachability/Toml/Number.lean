import Reachability.Decimal.Integer
import Reachability.Toml.Basic

namespace Reachability.Toml.Number

/-- Digits for which `isDigit` holds, with single underscores between them, and what follows. -/
def digits? (isDigit : Char → Bool) : List Char → Option (List Char × List Char)
  | [] => none
  | c :: rest =>
    if isDigit c then
      match rest with
      | '_' :: more => (digits? isDigit more).map fun (ds, rest) => (c :: ds, rest)
      | more =>
        match digits? isDigit more with
        | some (ds, rest) => some (c :: ds, rest)
        | none => some ([c], more)
    else none

def digitValue (c : Char) : Nat :=
  if c.isDigit then c.toNat - '0'.toNat else c.toLower.toNat - 'a'.toNat + 10

def isDigitIn (base : Nat) (c : Char) : Bool :=
  (c.isDigit || c.isAlpha) && digitValue c < base

/-- Digits of a base and nothing else, as an integer of 64 bits. -/
def inBase? (base : Nat) (s : List Char) : Option Toml :=
  match digits? (isDigitIn base) s with
  | some (ds, []) =>
    let n := ds.foldl (fun n c => n * base + digitValue c) 0
    if Decimal.isInteger64 n then some (.integer n) else none
  | _ => none

/-- The whole part of a decimal number, in which no zero stands before another digit. -/
def whole? (s : List Char) : Option (List Char × List Char) :=
  match digits? Char.isDigit s with
  | some ('0' :: _ :: _, _) => none
  | r => r

/-- An exponent, with its letter and sign. -/
def exponent? : List Char → Option (List Char × List Char)
  | c :: rest =>
    if c = 'e' ∨ c = 'E' then
      let (sign, rest) :=
        match rest with
        | '-' :: rest => (['-'], rest)
        | '+' :: rest => ([], rest)
        | rest => ([], rest)
      (digits? Char.isDigit rest).map fun (ds, rest) => ('e' :: sign ++ ds, rest)
    else none
  | [] => none

/-- A decimal number without its sign. One with a point or an exponent is a floating-point number,
which must not go beyond the largest. -/
def decimal? (negative : Bool) (s : List Char) : Option Toml := do
  let (ds, rest) ← whole? s
  let sign := if negative then ['-'] else []
  let real (text : List Char) : Option Toml :=
    match Binary64.ofString? (String.ofList (sign ++ text)) with
    | some (.infinite false) | none => none
    | some x => some (.real x)
  match rest with
  | [] =>
    let n : Int := Decimal.digitsValue ds
    let n := if negative then -n else n
    if Decimal.isInteger64 n then some (.integer n) else none
  | '.' :: rest =>
    let (fraction, rest) ← digits? Char.isDigit rest
    if rest.isEmpty then real (ds ++ '.' :: fraction)
    else
      match ← exponent? rest with
      | (e, []) => real (ds ++ '.' :: fraction ++ e)
      | _ => none
  | rest =>
    match ← exponent? rest with
    | (e, []) => real (ds ++ e)
    | _ => none

/-- The number that a word spells. -/
def ofWord? (s : List Char) : Option Toml :=
  match s with
  | '0' :: 'x' :: rest => inBase? 16 rest
  | '0' :: 'o' :: rest => inBase? 8 rest
  | '0' :: 'b' :: rest => inBase? 2 rest
  | s =>
    let (negative, rest) := Decimal.sign s
    if rest = "inf".toList then some (.real (.infinite negative))
    else if rest = "nan".toList then some (.real .nan)
    else decimal? negative rest

end Reachability.Toml.Number
