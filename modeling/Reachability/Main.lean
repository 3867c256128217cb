import Reachability.CommandLine

namespace Reachability.Main

/-- The variables of the environment, which are separated by NUL characters. -/
def assignments (text : String) : List (String × String) :=
  (text.splitOn (String.singleton (Char.ofNat 0))).filterMap fun entry =>
    match entry.splitOn "=" with
    | name :: value :: more => some (name, "=".intercalate (value :: more))
    | _ => none

/-- The text of a file, if it can be read. -/
def read? (name : String) : IO (Option String) := do
  try return some (← IO.FS.readFile name)
  catch _ => return none

/-- Those of the files that can be read. -/
def readAll (names : List String) : IO Directory := do
  let found ← names.filterMapM fun name => do return (← read? name).map (name, ·)
  return { files := .ofList found }

/-- The files that settings may come from under this name. -/
def candidates (name : String) : List String :=
  ".env" :: name :: Settings.Format.extensions.map fun (ending, _) => name ++ "." ++ ending

end Reachability.Main

open Reachability Reachability.Main

def main : IO UInt32 := do
  let environment : Settings.Environment :=
    { assignments := assignments ((← read? "/proc/self/environ").getD "") }
  let d ← readAll [".env"]
  let name := ((d.environment environment).get? Settings.fileVariable).getD Settings.defaultFile
  let d ← readAll (candidates (Directory.plainName name))
  let result := CommandLine.output .byName d environment
  match result with
  | .ok text => IO.print text
  | .error f => IO.eprintln ("Error: " ++ f.message)
  return CommandLine.exitCode result
