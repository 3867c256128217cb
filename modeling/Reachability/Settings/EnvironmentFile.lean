import Reachability.Settings.Environment
import Reachability.Text.Blank

namespace Reachability.Settings.EnvironmentFile

/-- Where in a line one stands, as far as it matters for the line's end. -/
inductive Place where
  | plain
  | blank
  | escaped
  | strong
  | strongEscaped
  | weak
  | weakEscaped
deriving DecidableEq, Repr

/-- The place after a character. A comment does not come up here. -/
def Place.next : Place → Char → Place
  | plain, c =>
    if c = '\\' then escaped
    else if c = '"' then weak
    else if c = '\'' then strong
    else if Text.isBlank c && c != '\n' && c != '\r' then blank
    else plain
  | blank, c =>
    if c = '\\' then escaped
    else if c = '"' then weak
    else if c = '\'' then strong
    else plain
  | escaped, _ => plain
  | strong, c => if c = '\\' then strongEscaped else if c = '\'' then plain else strong
  | strongEscaped, _ => strong
  | weak, c => if c = '\\' then weakEscaped else if c = '"' then plain else weak
  | weakEscaped, _ => weak

/-- The place at the end of a line, or the number of bytes in it before its comment. -/
def placeAfter : Place → Nat → List Char → Place ⊕ Nat
  | place, _, [] => .inl place
  | place, bytes, c :: rest =>
    if place = .blank ∧ c = '#' then .inr bytes
    else placeAfter (place.next c) (bytes + c.utf8Size) rest

/-- The first characters, as many as fit into a number of bytes. -/
def takeBytes : Nat → List Char → List Char
  | _, [] => []
  | n, c :: rest => if c.utf8Size ≤ n then c :: takeBytes (n - c.utf8Size) rest else []

/-- The text without the line break at its end. -/
def withoutBreak (s : List Char) : List Char :=
  match s.reverse with
  | '\n' :: '\r' :: rest => rest.reverse
  | '\n' :: rest => rest.reverse
  | _ => s

/-- The lines of a text, each with its line break; the first one goes on from `run`. -/
def linesFrom : List Char → List Char → List (List Char)
  | run, [] => if run.isEmpty then [] else [run]
  | run, c :: rest =>
    if c = '\n' then (run ++ [c]) :: linesFrom [] rest else linesFrom (run ++ [c]) rest

/-- Joins the lines over which a quote or a backslash reaches, and leaves out comments. A comment
after a joined line cuts all of it off at the length of the last part. A text that ends inside a
quote, after a backslash or after a blank has no last line. -/
def joined : Place → List Char → List (List Char) → List (Option (List Char))
  | .plain, _, [] => []
  | _, _, [] => [none]
  | place, pending, line :: rest =>
    let line' := pending ++ line
    if (line'.dropWhile Text.isBlank).head? = some '#' then some [] :: joined .plain [] rest
    else
      match placeAfter place 0 line with
      | .inr bytes => some (takeBytes bytes line') :: joined .plain [] rest
      | .inl .plain => some (withoutBreak line') :: joined .plain [] rest
      | .inl place => joined place line' rest

/-- Letters and digits of every script, by their blocks. -/
def isNameChar (c : Char) : Bool :=
  let n := c.toNat
  c.isAlphanum || n == 0xAA || n == 0xB5 || n == 0xBA ||
    (0xC0 ≤ n && n < 0x2000 && n != 0xD7 && n != 0xF7) || (0x2C00 ≤ n && n < 0x2E00) ||
    (0x3040 ≤ n && n < 0xE000) || (0xF900 ≤ n && n < 0xFFF0)

/-- What reading a value is in the midst of. The flag says that it is within weak quotes. -/
inductive Reading where
  | plain (quoted : Bool)
  | escape (quoted : Bool)
  | strong
  /-- The name of a variable after a dollar sign. -/
  | name (quoted : Bool) (start : List Char)
  /-- The name of a variable between braces. -/
  | braced (quoted : Bool) (start : List Char)
  /-- Blanks and a comment after the value. -/
  | ended
deriving DecidableEq, Repr

variable (valueOf : String → String)

/-- A value from within it on; `valueOf` gives the values of variables. Strong quotes keep a value
as it is; in weak quotes and outside of quotes a backslash keeps the next character, and `$NAME` or
`${NAME}` stands for the value of a variable. A comment starts with `#` at the start of a line or
after a blank. -/
def value? : Reading → List Char → Option (List Char)
  | .plain quoted, [] => if quoted then none else some []
  | .plain true, c :: rest =>
    if c = '$' then value? (.name true []) rest
    else if c = '"' then value? (.plain false) rest
    else if c = '\\' then value? (.escape true) rest
    else (value? (.plain true) rest).map (c :: ·)
  | .plain false, c :: rest =>
    if c = '$' then value? (.name false []) rest
    else if c = '\'' then value? .strong rest
    else if c = '"' then value? (.plain true) rest
    else if c = '\\' then value? (.escape false) rest
    else if c = ' ' ∨ c = '\t' then value? .ended rest
    else (value? (.plain false) rest).map (c :: ·)
  | .escape quoted, [] => if quoted then none else some []
  | .escape quoted, c :: rest =>
    if c ∈ ['\\', '\'', '"', '$', ' '] then (value? (.plain quoted) rest).map (c :: ·)
    else if c = 'n' then (value? (.plain quoted) rest).map ('\n' :: ·)
    else none
  | .strong, [] => none
  | .strong, c :: rest =>
    if c = '\'' then value? (.plain false) rest else (value? .strong rest).map (c :: ·)
  | .name quoted start, [] =>
    if quoted then none else some (valueOf (String.ofList start)).toList
  | .name quoted start, c :: rest =>
    if isNameChar c then value? (.name quoted (start ++ [c])) rest
    else if c = '\x7b' ∧ start.isEmpty then value? (.braced quoted []) rest
    else
      let value := (valueOf (String.ofList start)).toList
      if c = '$' then (value? (.name quoted []) rest).map (value ++ ·)
      else (value? (.plain quoted) rest).map (value ++ c :: ·)
  | .braced .., [] => none
  | .braced quoted start, c :: rest =>
    if c = '\x7d' then
      (value? (.plain quoted) rest).map ((valueOf (String.ofList start)).toList ++ ·)
    else value? (.braced quoted (start ++ [c])) rest
  | .ended, [] => some []
  | .ended, c :: rest =>
    if c = ' ' ∨ c = '\t' then value? .ended rest else if c = '#' then some [] else none

def skipBlank (s : List Char) : List Char := s.dropWhile Text.isBlank

/-- The name of a variable, with the blanks after it left out. -/
def name? : List Char → Option (String × List Char)
  | c :: rest =>
    let continues (c : Char) : Bool := c.isAlphanum || c == '_' || c == '.'
    if c.isAlpha ∨ c = '_' then
      some (String.ofList (c :: rest.takeWhile continues), skipBlank (rest.dropWhile continues))
    else none
  | [] => none

/-- The name that an assignment starts with, and its value as written: `NAME=value`, perhaps after
`export`. -/
def assignment? (line : List Char) : Option (String × List Char) := do
  match ← name? line with
  | (name, '=' :: rest) => some (name, skipBlank rest)
  | (name, rest) =>
    if name = "export" then
      match ← name? rest with
      | (name, '=' :: rest) => some (name, skipBlank rest)
      | _ => none
    else none

/-- The environment after a line, unless it is malformed. Variables that are set stay as they are.
-/
def perform? (e : Environment) (line : List Char) : Option Environment :=
  let line := skipBlank (line.reverse.dropWhile Text.isBlank).reverse
  if line.isEmpty ∨ line.head? = some '#' then some e
  else do
    let (name, rest) ← assignment? line
    let valueOf (name : String) : String := (e.get? name).getD ""
    let value ← if rest.head? = some '#' then some [] else value? valueOf (.plain false) rest
    return e.declare name (String.ofList value)

/-- The environment after the lines up to the first malformed one. -/
def performAll (e : Environment) : List (Option (List Char)) → Environment
  | [] | none :: _ => e
  | some line :: rest =>
    match perform? e line with
    | some e => performAll e rest
    | none => e

/-- The text without a byte order mark at its start. -/
def withoutMark : List Char → List Char
  | c :: rest => if c.toNat = 0xFEFF then rest else c :: rest
  | [] => []

/-- The environment with the variables of a file added. -/
def load (e : Environment) (text : String) : Environment :=
  performAll e (joined .plain [] (linesFrom [] (withoutMark text.toList)))

end Reachability.Settings.EnvironmentFile
