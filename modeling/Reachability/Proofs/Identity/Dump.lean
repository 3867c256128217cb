import Reachability.Manifest.Document
import Reachability.Proofs.Identity
import Reachability.Proofs.Json

namespace Reachability.IdentityCache

variable {c : IdentityCache}

/-- An object whose members are lists of texts. -/
def entriesJson (entries : List (String × List String)) : Json :=
  .object (entries.map fun e => (some e.1, .array (e.2.map fun s => .string (some s))))

/-- The text is such an object, and the cache has its entries: of two for one range the later. -/
def IsReadFrom (c : IdentityCache) (dump : String) : Prop :=
  ∃ entries, Json.parse dump = some (entriesJson entries) ∧ c = ⟨.ofList entries⟩

theorem text?_eq_some_iff {v : Json} {s : String} : v.text? = some s ↔ v = .string (some s) := by
  cases v <;> simp [Json.text?]

theorem entryList?_eq_some_iff {v : Json} {l : List String} :
    entryList? v = some l ↔ v = .array (l.map fun s => .string (some s)) := by
  have htexts (items : List Json) :
      items.mapM Json.text? = some l ↔ items = l.map fun s => .string (some s) := by
    constructor
    · intro h
      induction items generalizing l with
      | nil =>
        cases h
        rfl
      | cons v items ih =>
        rw [List.mapM_cons] at h
        obtain ⟨s, hs, h⟩ := Option.bind_eq_some_iff.1 h
        obtain ⟨l', hl', h⟩ := Option.bind_eq_some_iff.1 h
        cases h
        rw [List.map_cons, ← ih hl', text?_eq_some_iff.1 hs]
    · rintro rfl
      induction l with
      | nil => rfl
      | cons s l ih => simp [ih, Json.text?]
  cases v with
  | array items => exact (htexts items).trans ⟨congrArg _, Json.array.inj⟩
  | _ => simp [entryList?]

theorem foldlM_insert_eq_some_iff {members : List (Spelling × Json)}
    {d d' : Dict String (List String)} :
    members.foldlM (fun d (k, v) => do return d.insert (← k) (← entryList? v)) d = some d' ↔
      ∃ entries : List (String × List String), Json.object members = entriesJson entries ∧
        d' = d.insertAll entries := by
  constructor
  · intro h
    induction members generalizing d with
    | nil =>
      cases h
      exact ⟨[], rfl, rfl⟩
    | cons m members ih =>
      obtain ⟨k, v⟩ := m
      rw [List.foldlM_cons] at h
      simp only [Option.bind_eq_bind, Option.bind_eq_some_iff, Option.pure_def,
        Option.some.injEq] at h
      obtain ⟨-, ⟨name, rfl, l, hl, rfl⟩, h⟩ := h
      obtain ⟨entries, hmembers, rfl⟩ := ih h
      obtain rfl := entryList?_eq_some_iff.1 hl
      refine ⟨(name, l) :: entries, ?_, rfl⟩
      rw [Json.object.inj hmembers]
      rfl
  · rintro ⟨entries, hmembers, rfl⟩
    obtain rfl := Json.object.inj hmembers
    clear hmembers
    induction entries generalizing d with
    | nil => rfl
    | cons e entries ih =>
      rw [List.map_cons, List.foldlM_cons]
      simp only [entryList?_eq_some_iff.2 rfl]
      exact ih

/-- A cache is read from a text if and only if the text spells its entries. -/
theorem parse_eq_some_iff {dump : String} : parse dump = some c ↔ c.IsReadFrom dump := by
  unfold parse IsReadFrom
  cases Json.parse dump with
  | none => simp
  | some v =>
    cases v with
    | object members =>
      change Option.bind (members.foldlM _ ∅) (fun d => some ⟨d⟩) = some c ↔ _
      simp only [Option.bind_eq_some_iff, foldlM_insert_eq_some_iff, Option.some.injEq]
      constructor
      · rintro ⟨-, ⟨entries, hmembers, rfl⟩, rfl⟩
        exact ⟨entries, hmembers, rfl⟩
      · rintro ⟨entries, hmembers, rfl⟩
        exact ⟨_, ⟨entries, hmembers, rfl⟩, rfl⟩
    | _ => simp [entriesJson]

/-- What is written as such an object is read back. -/
theorem isReadFrom_toJson (entries : List (String × List String)) :
    IsReadFrom ⟨.ofList entries⟩
      (Document.mapping (entries.map fun e => (e.1, .texts e.2))).toJson := by
  have hjson : Document.asJson (.mapping (entries.map fun e => (e.1, .texts e.2))) =
      entriesJson entries := by
    simp [entriesJson, Document.asJson, Document.asMembers_eq_map, Document.texts,
      Document.asItems_eq_map, Function.comp_def]
  exact ⟨entries, by rw [Json.parse_toJson, hjson], rfl⟩

end Reachability.IdentityCache
