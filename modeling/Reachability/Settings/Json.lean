import Reachability.Feature
import Reachability.Json
import Reachability.Settings.Field

namespace Reachability

namespace Json

def truth? : Json → Option Bool
  | boolean b => some b
  | _ => none

def word64? : Json → Option UInt64
  | number n => n.toNat?.bind fun v => if v < Nat.pow 2 64 then some (UInt64.ofNat v) else none
  | _ => none

/-- A table of values of one form. Of two values with one key the later stays. -/
def table? (read : Json → Option α) : Json → Option (Dict String α)
  | object members =>
    members.foldlM (fun d (k, v) => do return d.insert (← k) (← read v)) ∅
  | _ => none

end Json

namespace Settings

def jsonReader : Reader Json
  | .text, v => v.text?
  | .optionalText, .null => some none
  | .optionalText, v => v.text?.map some
  | .truth, v => v.truth?
  | .seconds, v => v.word64?
  | .texts, v => v.table? Json.text?
  | .truths, v => v.table? Json.truth?

/-- The members of an object by name, if every name is a text and no setting is named twice. -/
def entries? (members : List (Spelling × Json)) : Option (List (String × Json)) := do
  let entries ← members.mapM fun (k, v) => do return (← k, v)
  let known := (entries.map (·.1)).filter fun k => parameters.any (·.key == k)
  if known.Nodup then some entries else none

/-- The settings in an object, in which a setting may be left out but not repeated, or in a list of
values in the order of the parameters. Names that are not known are passed over. -/
def ofJson? : Json → Option Settings
  | .object members => do ofEntries? jsonReader (← entries? members)
  | .array values => ofPositions? jsonReader values
  | _ => none

/-- The settings that a JSON text spells. -/
def parse (text : String) : Option Settings := do ofJson? (← Json.parse text)

end Settings

namespace FeatureSet

/-- Whether a feature is enabled: an object with the member `enabled`, just once, or a list of one
truth value. -/
def status? : Json → Option Bool
  | .object members =>
    if members.all (·.1.isSome) then
      match members.filter (·.1 == some "enabled") with
      | [(_, v)] => v.truth?
      | _ => none
    else none
  | .array [v] => v.truth?
  | _ => none

/-- The features that an object reports by their exact names. Of two reports on one feature the
later stays. -/
def ofJson? : Json → Option FeatureSet
  | .object members =>
    members.foldlM
      (fun s (k, v) => do return s.report (← Feature.ofExactName? (← k)) (← status? v)) ∅
  | _ => none

def parse (text : String) : Option FeatureSet := do ofJson? (← Json.parse text)

/-- The features that were reported, with their states. -/
def document (s : FeatureSet) : Document :=
  .mapping (Feature.all.filterMap fun f =>
    (s.reported f).map fun b => (f.name, .mapping [("enabled", .boolean b)]))

end FeatureSet

end Reachability
