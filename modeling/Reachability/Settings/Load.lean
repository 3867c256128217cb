import Reachability.Failure
import Reachability.Settings.EnvironmentFile
import Reachability.Settings.File

namespace Reachability

/-- The files of a directory by their names. -/
structure Directory where
  files : Dict String String := ∅

namespace Directory

def get? (d : Directory) (name : String) : Option String := d.files.get? name

/-- The ending of a file name behind its last point, which is not the first character. -/
def ending? (name : String) : Option String :=
  match name.splitOn "." |>.reverse with
  | last :: first :: rest => if first = "" ∧ rest = [] then none else some last
  | _ => none

/-- A file's name without the mention of the directory itself before it. -/
def plainName (name : String) : String :=
  String.ofList (withoutDots name.toList)
where
  withoutDots : List Char → List Char
    | '.' :: '/' :: rest => withoutDots rest
    | s => s

/-- The file of settings of this name and its form. A file of exactly this name goes before those
with an ending added; if its ending is not known, there is none. -/
def settingsFile? (d : Directory) (name : String) : Option (Settings.Format × String) :=
  let name := plainName name
  match d.get? name with
  | some text => do
    let format ← Settings.Format.extensions.lookup (← ending? name)
    return (format, text)
  | none =>
    Settings.Format.extensions.findSome? fun (ending, format) =>
      (d.get? (name ++ "." ++ ending)).map (format, ·)

/-- The environment with the variables that `.env` adds. -/
def environment (d : Directory) (e : Settings.Environment) : Settings.Environment :=
  match d.get? ".env" with
  | some text => Settings.EnvironmentFile.load e text
  | none => e

end Directory

namespace Settings

/-- The variable that names the file of settings. -/
def fileVariable : String := "CONNCHECK_CONFIG"

/-- The name of the file of settings where no variable says otherwise. -/
def defaultFile : String := "conncheck"

/-- The settings in the file of a directory, none if there is no file. -/
def fileLayer (d : Directory) (e : Environment) : Except Failure Layer :=
  match d.settingsFile? ((e.get? fileVariable).getD defaultFile) with
  | none => .ok []
  | some (format, text) =>
    let text := String.ofList (EnvironmentFile.withoutMark text.toList)
    match format.read? text with
    | some layer => .ok layer
    | none => .error (.settings "the file of settings is malformed")

/-- The settings of a run in a directory: those in a file, and over them those in the environment.
`CONNCHECK_CONFIG` names the file, with or without its ending. A file `.env` adds variables first.
-/
def load (d : Directory) (e : Environment) : Except Failure Settings := do
  let e := d.environment e
  let file ← fileLayer d e
  let value := ((Value.table []).overlay file).overlay e.layer
  match ofEntries? valueReader value.entries with
  | some s => .ok s
  | none => .error (.settings "a value does not fit its setting")

end Settings

end Reachability
