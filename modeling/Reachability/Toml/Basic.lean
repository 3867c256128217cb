import Reachability.Decimal.Binary64

namespace Reachability

namespace Toml

/-- How a table came to be: opened by a header, implied by the header of a table below it, made by a
dotted key or written inline. It decides how the table may be added to later. -/
inductive Form where
  | opened
  | implied
  | dotted
  | closed
deriving DecidableEq, Repr

end Toml

inductive Toml where
  | text (s : String)
  | integer (n : Int)
  | real (x : Binary64)
  | truth (b : Bool)
  /-- A date, a time or both, in their usual notation. -/
  | moment (s : String)
  | array (items : List Toml)
  | table (form : Toml.Form) (entries : List (String × Toml))
  /-- Tables under headers of the form `[[key]]`, the latest first. -/
  | tables (latest : List (String × Toml)) (earlier : List (List (String × Toml)))
deriving Repr, Inhabited

namespace Toml

/-- The entries of a table. -/
abbrev Entries := List (String × Toml)

def valueAt? (key : String) (entries : Entries) : Option Toml :=
  (entries.find? (·.1 == key)).map (·.2)

/-- Gives a key its value, in place of the one it had. -/
def put (key : String) (v : Toml) : Entries → Entries
  | [] => [(key, v)]
  | (k, old) :: rest => if k = key then (k, v) :: rest else (k, old) :: put key v rest

/-- Changes the table to which the keys of a header lead, from the table with these entries on. The
last table of a list of tables stands for the list. -/
def underHeader (f : Entries → Option Entries) : List String → Entries → Option Entries
  | [], entries => f entries
  | key :: rest, entries => do
    match valueAt? key entries with
    | none => return put key (.table .implied (← underHeader f rest [])) entries
    | some (.table .closed _) => none
    | some (.table form inner) => return put key (.table form (← underHeader f rest inner)) entries
    | some (.tables latest earlier) =>
      return put key (.tables (← underHeader f rest latest) earlier) entries
    | some _ => none

/-- Adds an entry under a dotted key. The tables in between are made by dotted keys, and no key gets
a second value. -/
def add (v : Toml) : List String → Entries → Option Entries
  | [], _ => none
  | [key], entries => if (valueAt? key entries).isSome then none else some (put key v entries)
  | key :: rest, entries => do
    match valueAt? key entries with
    | none => return put key (.table .dotted (← add v rest [])) entries
    | some (.table .dotted inner) => return put key (.table .dotted (← add v rest inner)) entries
    -- only a table made by dotted keys takes the value itself
    | some (.table .implied inner) =>
      if rest.length ≤ 1 then none
      else return put key (.table .implied (← add v rest inner)) entries
    | some (.tables latest earlier) =>
      if rest.length ≤ 1 then none
      else return put key (.tables (← add v rest latest) earlier) entries
    | some _ => none

/-- Opens the table under a header of the form `[key]`. A table is opened once. -/
def openTable (key : String) (entries : Entries) : Option Entries :=
  match valueAt? key entries with
  | none => some (put key (.table .opened []) entries)
  | some (.table .implied inner) => some (put key (.table .opened inner) entries)
  | some _ => none

/-- Starts another table under a header of the form `[[key]]`. -/
def openNext (key : String) (entries : Entries) : Option Entries :=
  match valueAt? key entries with
  | none => some (put key (.tables [] []) entries)
  | some (.tables latest earlier) => some (put key (.tables [] (latest :: earlier)) entries)
  | some _ => none

/-- Splits the last key off a path. -/
def splitLast : List String → Option (List String × String)
  | [] => none
  | [key] => some ([], key)
  | key :: rest => (splitLast rest).map fun (front, last) => (key :: front, last)

end Toml

end Reachability
