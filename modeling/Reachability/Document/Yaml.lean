import Reachability.Document
import Reachability.Document.Scalar

namespace Reachability.Document

def pad (indent : Nat) : List Char := List.replicate indent ' '

/-- Two, four or eight upper-case hexadecimal digits. -/
def fixedHex (width n : Nat) : List Char :=
  let digits := (Nat.toDigits 16 n).map Char.toUpper
  List.replicate (width - digits.length) '0' ++ digits

def escape (c : Char) : List Char :=
  match c.toNat with
  | 0x00 => ['\\', '0']
  | 0x07 => ['\\', 'a']
  | 0x08 => ['\\', 'b']
  | 0x09 => ['\\', 't']
  | 0x0A => ['\\', 'n']
  | 0x0B => ['\\', 'v']
  | 0x0C => ['\\', 'f']
  | 0x0D => ['\\', 'r']
  | 0x1B => ['\\', 'e']
  | 0x22 => ['\\', '"']
  | 0x5C => ['\\', '\\']
  | 0x85 => ['\\', 'N']
  | 0x2028 => ['\\', 'L']
  | 0x2029 => ['\\', 'P']
  | n =>
    if n ≤ 0xFF then '\\' :: 'x' :: fixedHex 2 n
    else if n ≤ 0xFFFF then '\\' :: 'u' :: fixedHex 4 n
    else '\\' :: 'U' :: fixedHex 8 n

def doubleQuotedChar (c : Char) : List Char :=
  if isBreak c || !isWritable c || c == '"' || c == '\\' then escape c else [c]

/-- Puts the indentation before every character that follows a break, the first one counting as such
if `fresh` is set. -/
def indented (indent : Nat) (write : Char → List Char) (fresh : Bool) : List Char → List Char
  | [] => []
  | c :: rest =>
    if isBreak c then c :: indented indent write true rest
    else (if fresh then pad indent else []) ++ write c ++ indented indent write false rest

def singleQuoted (indent : Nat) (s : List Char) : List Char :=
  let last := (s.getLast?.map isBreak).getD false
  '\'' :: indented indent (fun c => if c == '\'' then ['\'', '\''] else [c]) false s ++
    (if last then pad indent else []) ++ ['\'']

/-- Says how far a block is indented, if its first line does not show it, and whether the breaks at
its end belong to it: none, one, or all. -/
def literalHints (s : List Char) : List Char :=
  let indentHint :=
    match s with
    | c :: _ => if c == ' ' || isBreak c then ['2'] else []
    | [] => []
  let endHint :=
    match s.reverse with
    | [] => ['-']
    | [c] => if isBreak c then ['+'] else ['-']
    | c :: d :: _ => if !isBreak c then ['-'] else if isBreak d then ['+'] else []
  indentHint ++ endHint

/-- A text that stands at this indentation. -/
def scalar (indent : Nat) (s : List Char) : List Char :=
  match styleOf s with
  | .plain => s
  | .singleQuoted => singleQuoted indent s
  | .doubleQuoted => '"' :: s.flatMap doubleQuotedChar ++ ['"']
  | .literal => '|' :: literalHints s ++ '\n' :: indented indent (fun c => [c]) true s

/-- Ends the line with a line feed, unless the text has ended it with any break. -/
def endLine (s : List Char) : List Char :=
  if (s.getLast?.map isBreak).getD false then s else s ++ ['\n']

/-- A key short enough to stand on one line with its value. -/
def isSimpleKey (s : String) : Bool := s.utf8ByteSize ≤ 128 && !s.toList.any isBreak

mutual

/-- The lines of a value that stands at `indent`, the first of them without its indentation.
Mappings are indented by two columns, lists stand in the column of the key they belong to, and the
first entry of a collection inside a list stands on the line of its dash. -/
def block (indent : Nat) : Document → List Char
  | null => "null\n".toList
  | boolean b => (if b then "true\n" else "false\n").toList
  | integer n => (toString n).toList ++ ['\n']
  | text s => endLine (scalar indent s.toList)
  | sequence items => if items.isEmpty then "[]\n".toList else itemLines indent true items
  | mapping fields => if fields.isEmpty then "\x7b\x7d\n".toList else fieldLines indent true fields

/-- A value after its key, which stands at `indent`. -/
def value (indent : Nat) : Document → List Char
  | null => " null\n".toList
  | boolean b => (if b then " true\n" else " false\n").toList
  | integer n => ' ' :: (toString n).toList ++ ['\n']
  | text s => ' ' :: endLine (scalar (indent + 2) s.toList)
  | sequence items =>
    if items.isEmpty then " []\n".toList else '\n' :: pad indent ++ itemLines indent true items
  | mapping fields =>
    if fields.isEmpty then " \x7b\x7d\n".toList
    else '\n' :: pad (indent + 2) ++ fieldLines (indent + 2) true fields

/-- The items of a list, each after a dash. -/
def itemLines (indent : Nat) (first : Bool) : List Document → List Char
  | [] => []
  | item :: rest =>
    (if first then [] else pad indent) ++ '-' :: ' ' :: block (indent + 2) item ++
      itemLines indent false rest

/-- The entries of a mapping: a key and its value on one line, or each on lines of its own if the
key is long. -/
def fieldLines (indent : Nat) (first : Bool) : List (String × Document) → List Char
  | [] => []
  | (k, v) :: rest =>
    (if first then [] else pad indent) ++
      (if isSimpleKey k then scalar (indent + 2) k.toList ++ ':' :: value indent v
      else
        '?' :: ' ' :: endLine (scalar (indent + 2) k.toList) ++ pad indent ++ ':' :: ' ' ::
          block (indent + 2) v) ++
      fieldLines indent false rest

end

/-- The YAML text of a document. -/
def toYaml (d : Document) : String := String.ofList (block 0 d)

end Reachability.Document
