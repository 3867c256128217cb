import Reachability.Settings.Layer

namespace Reachability.Settings

/-- Variables and their values, in the order in which they were set. -/
structure Environment where
  assignments : List (String × String) := []
deriving DecidableEq, Repr

namespace Environment

def get? (e : Environment) (name : String) : Option String :=
  (e.assignments.find? (·.1 == name)).map (·.2)

/-- Sets a variable, unless it is set already. -/
def declare (e : Environment) (name value : String) : Environment :=
  if (e.get? name).isSome then e else ⟨e.assignments ++ [(name, value)]⟩

/-- What the names of variables that hold settings start with, in lower case. -/
def leader : String := "conncheck_"

/-- The text with a point for every two underscores. -/
def pointed : List Char → List Char
  | '_' :: '_' :: rest => '.' :: pointed rest
  | c :: rest => c :: pointed rest
  | [] => []

/-- The key of the setting that a variable holds, if it holds one: what follows `CONNCHECK_` in its
name, in any case of the letters, with two underscores between the names of a path. -/
def key? (name : String) : Option String :=
  let name := (Text.lowercase name).toList
  if leader.toList.isPrefixOf name then some (String.ofList (pointed (name.drop leader.length)))
  else none

/-- The settings that the variables hold. Of two variables with one key the later one counts. -/
def layer (e : Environment) : Layer :=
  let settings := e.assignments.filterMap fun (name, value) =>
    (key? name).map (·, Value.ofText value)
  (Dict.ofList settings).entries

end Environment

end Reachability.Settings
