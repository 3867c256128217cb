import Reachability.Json
import Reachability.Settings.Value

namespace Reachability.Settings

/-- A step from a value to one inside it. A place below zero counts from the end. -/
inductive Step where
  | name (s : String)
  | place (i : Int)
deriving DecidableEq, Repr

namespace Value

def entries : Value → List (String × Value)
  | table entries => entries
  | _ => []

def items : Value → List Value
  | list items => items
  | _ => []

def valueAt? (name : String) (entries : List (String × Value)) : Option Value :=
  (entries.find? (·.1 == name)).map (·.2)

/-- Gives a name its value, in place of the one it had. -/
def put (name : String) (v : Value) : List (String × Value) → List (String × Value)
  | [] => [(name, v)]
  | (k, old) :: rest => if k = name then (k, v) :: rest else (k, old) :: put name v rest

mutual

/-- The value, which becomes a table if it is none, with a value laid over what a name has. A table
is laid over a table entry by entry, and any other value takes the place of what was there. -/
def lay (root : Value) (name : String) : Value → Value
  | table incoming =>
    let name := Text.lowercase name
    let target := (valueAt? name root.entries).getD (table [])
    table (put name (layAll target incoming) root.entries)
  | v => table (put (Text.lowercase name) v root.entries)

def layAll (target : Value) : List (String × Value) → Value
  | [] => target
  | (name, v) :: rest => layAll (lay target name v) rest

end

/-- The list with the value at a place, filled up to it with nothing. -/
def putAt (i : Nat) (v : Value) (items : List Value) : List Value :=
  (items ++ List.replicate (i + 1 - items.length) nothing).set i v

/-- Where a place lies in a list of this length. -/
def placeIn (i : Int) (length : Nat) : Nat :=
  if 0 ≤ i then i.toNat else length - (-i).toNat

/-- Lays a value over what a path leads to. What stands in the way of the path is replaced. -/
def layAlong (root : Value) : List Step → Value → Value
  | [], v => v
  | [.name s], v => root.lay s v
  | .name s :: rest, v =>
    let name := Text.lowercase s
    let inner := (valueAt? name root.entries).getD nothing
    table (put name (inner.layAlong rest v) root.entries)
  | .place i :: rest, v =>
    let i := placeIn i root.items.length
    list (putAt i ((root.items.getD i nothing).layAlong rest v) root.items)

end Value

/-- The characters of names in a path. -/
def isPathChar (c : Char) : Bool := c.isAlphanum || c == '_' || c == '-' || c == ' '

/-- A place between brackets, whose first one is read already. -/
def place? (s : List Char) : Option (Step × List Char) :=
  let rest := s.dropWhile Json.isBlank
  let (negative, rest) :=
    match rest with
    | '-' :: rest => (true, rest)
    | rest => (false, rest)
  let digits := rest.takeWhile Char.isDigit
  match (rest.dropWhile Char.isDigit).dropWhile Json.isBlank with
  | ']' :: rest =>
    let n : Int := Decimal.digitsValue digits
    if digits.isEmpty ∨ !Decimal.isInteger64 n then none
    else some (.place (if negative then -n else n), rest)
  | _ => none

/-- The steps of a path after its first name: names behind points and places in brackets. -/
def steps? : Nat → List Char → Option (List Step)
  | _, [] => some []
  | fuel + 1, '.' :: rest =>
    let name := rest.takeWhile isPathChar
    if name.isEmpty then none
    else (steps? fuel (rest.dropWhile isPathChar)).map (.name (String.ofList name) :: ·)
  | fuel + 1, '[' :: rest => do
    let (step, rest) ← place? rest
    return step :: (← steps? fuel rest)
  | _, _ => none

/-- The path that a key spells. A key that spells none is a single name. -/
def path (key : String) : List Step :=
  let s := key.toList
  let name := s.takeWhile isPathChar
  let steps := if name.isEmpty then none else steps? s.length (s.dropWhile isPathChar)
  match steps with
  | some steps => .name (String.ofList name) :: steps
  | none => [.name key]

/-- The entries of a source by their keys, which give values to paths of names and places. Names are
kept in lower case. -/
abbrev Layer := List (String × Value)

/-- The value with all entries of a layer laid over it. -/
def Value.overlay (root : Value) (layer : Layer) : Value :=
  layer.foldl (fun root (key, v) => root.layAlong (path key) v) root

end Reachability.Settings
