namespace Reachability

/-- A tree of texts, numbers and truth values, in lists and in mappings whose keys keep the order in
which they are written. -/
inductive Document where
  | null
  | boolean (b : Bool)
  | integer (n : Int)
  | text (s : String)
  | sequence (items : List Document)
  | mapping (fields : List (String × Document))
deriving Repr, Inhabited

namespace Document

/-- A mapping of those fields that have a value. -/
def present (fields : List (String × Option Document)) : Document :=
  mapping (fields.filterMap fun (k, v) => v.map (k, ·))

/-- A list, unless it is empty. -/
def nonemptySequence (items : List Document) : Option Document :=
  if items.isEmpty then none else some (sequence items)

end Document

end Reachability
