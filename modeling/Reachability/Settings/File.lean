import Reachability.Json.Real
import Reachability.Settings.Layer
import Reachability.Toml.Text
import Reachability.Yaml.Node

namespace Reachability.Settings

/-- The most arrays and objects that may lie within each other in JSON. -/
def depthLimit : Nat := 127

mutual

/-- A JSON value, with at most `depth` levels of arrays and objects. Of two members with one name
the later counts. Numbers that are no integers of 64 bits are floating-point numbers. -/
def Value.ofJson? (depth : Nat) : Json → Option Value
  | .null => some .nothing
  | .boolean b => some (.truth b)
  | .number n =>
    match n.toInt? with
    | some i =>
      if Decimal.isInteger64 i && !(n.negative && i == 0) then some (.integer i)
      else n.real?.map .real
    | none => n.real?.map .real
  | .string s => s.map .text
  | .array items => if depth = 0 then none else (Value.ofItems? (depth - 1) items).map .list
  | .object members =>
    if depth = 0 then none else (Value.ofMembers? (depth - 1) members).map .table

def Value.ofItems? (depth : Nat) : List Json → Option (List Value)
  | [] => some []
  | v :: rest => do return (← Value.ofJson? depth v) :: (← Value.ofItems? depth rest)

def Value.ofMembers? (depth : Nat) : List (Spelling × Json) → Option (List (String × Value))
  | [] => some []
  | (name, v) :: rest => do
    let name ← name
    let v ← Value.ofJson? depth v
    let rest ← Value.ofMembers? depth rest
    return if (Value.valueAt? name rest).isSome then rest else (name, v) :: rest

end

mutual

def Value.ofToml : Toml → Value
  | .text s | .moment s => .text s
  | .integer n => .integer n
  | .real x => .real x
  | .truth b => .truth b
  | .array items => .list (Value.ofTomlItems items)
  | .table _ entries => .table (Value.ofTomlEntries entries)
  | .tables latest earlier =>
    .list ((Value.ofTomlTables earlier).reverse ++ [.table (Value.ofTomlEntries latest)])

def Value.ofTomlItems : List Toml → List Value
  | [] => []
  | v :: rest => Value.ofToml v :: Value.ofTomlItems rest

def Value.ofTomlEntries : List (String × Toml) → List (String × Value)
  | [] => []
  | (k, v) :: rest => (k, Value.ofToml v) :: Value.ofTomlEntries rest

def Value.ofTomlTables : List (List (String × Toml)) → List Value
  | [] => []
  | entries :: rest => .table (Value.ofTomlEntries entries) :: Value.ofTomlTables rest

end

/-- The name that a key of a YAML mapping gives: a text or an integer. -/
def nameOfYaml? : Yaml → Option String
  | .text s => some s
  | .integer n => some (toString n)
  | _ => none

mutual

/-- A YAML node. Of two entries with one name the later counts. -/
def Value.ofYaml? : Yaml → Option Value
  | .null => some .nothing
  | .truth b => some (.truth b)
  | .integer n => some (.integer n)
  | .real s => (Binary64.ofString? s).map .real
  | .text s => some (.text s)
  | .sequence items => (Value.ofYamlItems? items).map .list
  | .mapping entries => (Value.ofYamlEntries? entries).map .table

def Value.ofYamlItems? : List Yaml → Option (List Value)
  | [] => some []
  | v :: rest => do return (← Value.ofYaml? v) :: (← Value.ofYamlItems? rest)

def Value.ofYamlEntries? : List (Yaml × Yaml) → Option (List (String × Value))
  | [] => some []
  | (k, v) :: rest => do
    let name ← nameOfYaml? k
    let v ← Value.ofYaml? v
    let rest ← Value.ofYamlEntries? rest
    return if (Value.valueAt? name rest).isSome then rest else (name, v) :: rest

end

/-- The forms that a file of settings may have. -/
inductive Format where
  | json
  | yaml
  | toml
deriving DecidableEq, Repr

namespace Format

/-- The endings of file names, in the order in which they are tried. -/
def extensions : List (String × Format) :=
  [("toml", .toml), ("json", .json), ("yaml", .yaml), ("yml", .yaml)]

/-- The settings in a text of this form; none if it is malformed or no table. -/
def read? : Format → String → Option Layer
  | json, text => do
    match ← Value.ofJson? depthLimit (← Json.parse text) with
    | .table entries => return entries
    | _ => none
  | toml, text => (Toml.parse text).map Value.ofTomlEntries
  | yaml, text => do
    match ← Yaml.parse text with
    | [] => return []
    | [document] =>
      match ← Value.ofYaml? document with
      | .table entries => return entries
      | _ => none
    | _ => none

end Format

end Reachability.Settings
