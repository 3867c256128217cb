import Reachability.Proofs.Dict
import Reachability.Proofs.Json
import Reachability.Proofs.Settings.Parameters
import Reachability.Settings.Json

namespace Reachability

namespace Json

/-- An object with members of these names. -/
def ofEntries (entries : List (String × Json)) : Json :=
  object (entries.map fun e => (some e.1, e.2))

theorem text?_eq_some_iff {v : Json} {s : String} : v.text? = some s ↔ v = string (some s) := by
  cases v <;> simp [text?]

theorem truth?_eq_some_iff {v : Json} {b : Bool} : v.truth? = some b ↔ v = boolean b := by
  cases v <;> simp [truth?]

/-- A number is read as seconds if it is written without a sign, a point and an exponent, and is
below `2 ^ 64`. -/
theorem word64?_eq_some_iff {v : Json} {n : UInt64} :
    v.word64? = some n ↔ ∃ m, v = number m ∧ m.toNat? = some n.toNat := by
  cases v with
  | number m =>
    have hrange : n.toNat < Nat.pow 2 64 := n.toNat_lt
    cases hm : m.toNat? with
    | none => simp [word64?, hm]
    | some k =>
      simp only [word64?, hm, Option.bind_some]
      constructor
      · intro h
        split at h
        next hk =>
          obtain rfl := Option.some.inj h
          exact ⟨m, rfl, by rw [hm, UInt64.toNat_ofNat_of_lt' hk]⟩
        next => cases h
      · rintro ⟨m', hv, hn⟩
        obtain rfl := Json.number.inj hv
        obtain rfl := Option.some.inj (hm.symm.trans hn)
        rw [if_pos hrange, UInt64.ofNat_toNat]
  | null | boolean | string | array | object => simp [word64?]

theorem foldlM_insert {α : Type} {read : Json → Option α} {write : α → Json}
    (h : ∀ v a, read v = some a ↔ v = write a) {members : List (Spelling × Json)}
    {d e : Dict String α} :
    members.foldlM (fun d (k, v) => do return d.insert (← k) (← read v)) d = some e ↔
      ∃ entries : List (String × α),
        members = entries.map (fun e => (some e.1, write e.2)) ∧ e = d.insertAll entries := by
  induction members generalizing d with
  | nil =>
    constructor
    · intro heq
      exact ⟨[], by simp, (Option.some.inj heq).symm⟩
    · rintro ⟨entries, hnil, rfl⟩
      obtain rfl := List.map_eq_nil_iff.1 hnil.symm
      rfl
  | cons m members ih =>
    obtain ⟨k, v⟩ := m
    rw [List.foldlM_cons]
    constructor
    · intro hfold
      cases k with
      | none => cases hfold
      | some k =>
        cases hread : read v with
        | none =>
          simp [hread] at hfold
        | some a =>
          simp only [hread] at hfold
          obtain ⟨entries, rfl, rfl⟩ := ih.1 hfold
          exact ⟨(k, a) :: entries, by simp [(h v a).1 hread], rfl⟩
    · rintro ⟨entries, hmembers, rfl⟩
      cases entries with
      | nil => cases hmembers
      | cons e entries =>
        obtain ⟨hm, hrest⟩ := List.cons.inj hmembers
        obtain ⟨rfl, rfl⟩ := Prod.mk.inj hm
        simp only [(h _ _).2 rfl]
        exact ih.2 ⟨entries, hrest, rfl⟩

theorem table?_eq_some_iff {α : Type} {read : Json → Option α} {write : α → Json}
    (h : ∀ v a, read v = some a ↔ v = write a) {v : Json} {d : Dict String α} :
    v.table? read = some d ↔ ∃ entries : List (String × α),
      v = ofEntries (entries.map fun e => (e.1, write e.2)) ∧ d = .ofList entries := by
  cases v with
  | object members =>
    rw [table?, foldlM_insert h]
    simp [ofEntries, Dict.ofList, Function.comp_def]
  | null | boolean | string | array | number => simp [table?, ofEntries]

end Json

namespace Settings

/-- The value of a kind that a JSON value is. In a table the last of several values of one name
counts. -/
def Kind.Means : (kind : Kind) → Json → kind.Carrier → Prop
  | text, v, s => v = .string (some s)
  | optionalText, v, o => v = o.elim .null (.string ∘ some)
  | truth, v, b => v = .boolean b
  | seconds, v, n => ∃ m, v = .number m ∧ m.toNat? = some n.toNat
  | texts, v, d => ∃ entries : List (String × String),
      v = .ofEntries (entries.map fun e => (e.1, .string (some e.2))) ∧ d = .ofList entries
  | truths, v, d => ∃ entries : List (String × Bool),
      v = .ofEntries (entries.map fun e => (e.1, .boolean e.2)) ∧ d = .ofList entries

theorem jsonReader_eq_some_iff {kind : Kind} {v : Json} {x : kind.Carrier} :
    jsonReader kind v = some x ↔ kind.Means v x := by
  cases kind with
  | text => exact Json.text?_eq_some_iff
  | optionalText => cases v <;> cases x <;> simp [jsonReader, Kind.Means, Json.text?]
  | truth => exact Json.truth?_eq_some_iff
  | seconds => exact Json.word64?_eq_some_iff
  | texts => exact Json.table?_eq_some_iff fun _ _ => Json.text?_eq_some_iff
  | truths => exact Json.table?_eq_some_iff fun _ _ => Json.truth?_eq_some_iff

variable {entries : List (String × Json)} {s : Settings} {p : Parameter}

/-- A parameter has the value that the entries give it, and the default one if they give none. -/
structure Parameter.Overlaid (entries : List (String × Json)) (s : Settings) (p : Parameter) :
    Prop where
  present : ∀ v, (p.key, v) ∈ entries → p.kind.Means v (p.get s)
  absent : p.key ∉ entries.map Prod.fst → p.get s = p.get {}

theorem taken_iff_overlaid : p.Taken jsonReader entries {} s ↔ p.Overlaid entries s := by
  constructor
  · intro h
    exact ⟨fun v hv => jsonReader_eq_some_iff.1 (h.present v hv), h.absent⟩
  · intro h
    exact ⟨fun v hv => jsonReader_eq_some_iff.2 (h.present v hv), h.absent⟩

theorem entries?_ofEntries (h : (entries.map Prod.fst).Nodup) :
    entries? (entries.map fun e => (some e.1, e.2)) = some entries := by
  have hkeys : (entries.map fun e => ((some e.1 : Spelling), e.2)).mapM
      (fun (k, v) => do return (← k, v)) = some entries := by
    clear h
    induction entries with
    | nil => rfl
    | cons e entries ih =>
      rw [List.map_cons, List.mapM_cons, ih]
      rfl
  simp only [entries?, hkeys]
  exact if_pos (h.filter _)

theorem ofJson?_ofEntries (h : (entries.map Prod.fst).Nodup) :
    ofJson? (.ofEntries entries) = ofEntries? jsonReader entries := by
  simp [ofJson?, Json.ofEntries, entries?_ofEntries h]

/-- A document that a value of a kind may be written as. The entries of a table of truth values may
stand in any order. -/
def Kind.Writes : (kind : Kind) → kind.Carrier → Document → Prop
  | truths, d, doc => ∃ l : List (String × Bool), l.Perm d.entries ∧
      doc = .mapping (l.map fun (k, b) => (k, .boolean b))
  | kind, x, doc => doc = kind.document x

/-- What a value is written as stands for this value. -/
theorem Kind.means_of_writes {kind : Kind} {x : kind.Carrier} {doc : Document}
    (h : kind.Writes x doc) : kind.Means doc.asJson x := by
  cases kind with
  | text =>
    obtain rfl := h
    simp [Kind.document, Kind.Means, Document.asJson]
  | optionalText =>
    obtain rfl := h
    cases x <;> simp [Kind.document, Kind.Means, Document.asJson]
  | truth =>
    obtain rfl := h
    simp [Kind.document, Kind.Means, Document.asJson]
  | seconds =>
    obtain rfl := h
    exact ⟨_, by simp [Kind.document, Document.asJson], Json.toNat?_numeral x.toNat⟩
  | texts =>
    obtain rfl := h
    refine ⟨x.entries, ?_, x.ofList_entries.symm⟩
    simp [Kind.document, Document.ofLabels, Document.asJson, Document.asMembers_eq_map,
      Json.ofEntries, Function.comp_def]
  | truths =>
    obtain ⟨l, hl, rfl⟩ := h
    refine ⟨l, ?_, (Dict.ofList_of_perm hl).symm⟩
    simp [Document.asJson, Document.asMembers_eq_map, Json.ofEntries, Function.comp_def]

theorem Kind.writes_document (kind : Kind) (x : kind.Carrier) :
    kind.Writes x (kind.document x) := by
  cases kind with
  | truths => exact ⟨x.entries, .refl _, rfl⟩
  | text | optionalText | truth | seconds | texts => rfl

/-- Fields that list all settings in their order. -/
structure Spells (s : Settings) (fields : List (String × Document)) : Prop where
  keys : fields.map Prod.fst = parameters.map Parameter.key
  values : ∀ p ∈ parameters, ∃ doc, (p.key, doc) ∈ fields ∧ p.kind.Writes (p.get s) doc

theorem spells_fields (s : Settings) :
    s.Spells (parameters.map fun p => (p.key, p.kind.document (p.get s))) := by
  refine ⟨by simp, fun p hp => ⟨_, ?_, p.kind.writes_document (p.get s)⟩⟩
  exact List.mem_map_of_mem (f := fun p : Parameter => (p.key, p.kind.document (p.get s))) hp

theorem Spells.overlaid {fields : List (String × Document)} (h : s.Spells fields)
    (hp : p ∈ parameters) : p.Overlaid (fields.map fun f => (f.1, f.2.asJson)) s := by
  obtain ⟨doc, hdoc, hwrites⟩ := h.values p hp
  have hkeys : (fields.map Prod.fst).Nodup := by
    rw [h.keys]
    exact nodup_keys
  refine ⟨fun v hv => ?_, fun habsent => ?_⟩
  · obtain ⟨⟨k, doc'⟩, hdoc', heq⟩ := List.mem_map.1 hv
    obtain ⟨rfl, rfl⟩ := Prod.mk.inj heq
    obtain ⟨-, rfl⟩ := Prod.mk.inj (List.inj_on_of_nodup_map hkeys hdoc hdoc' rfl)
    exact Kind.means_of_writes hwrites
  · refine absurd ?_ habsent
    simpa using ⟨doc, hdoc⟩

theorem parse_of_spells {fields : List (String × Document)} (h : s.Spells fields) :
    parse (Document.mapping fields).toJson = some s := by
  have hobject : (Document.mapping fields).asJson =
      .ofEntries (fields.map fun f => (f.1, f.2.asJson)) := by
    simp [Document.asJson, Document.asMembers_eq_map, Json.ofEntries, Function.comp_def]
  have hdistinct : ((fields.map fun f => (f.1, f.2.asJson)).map Prod.fst).Nodup := by
    rw [List.map_map]
    exact h.keys ▸ nodup_keys
  have hread : ofEntries? jsonReader (fields.map fun f => (f.1, f.2.asJson)) = some s :=
    (ofEntries?_eq_some_iff hdistinct).2 fun p hp => taken_iff_overlaid.2 (h.overlaid hp)
  simp [parse, Json.parse_toJson, hobject, ofJson?_ofEntries hdistinct, hread]

/-- A text that spells an object of different names is taken for settings just if every setting that
it names has a value of its kind. These are then the values of the settings, and the other settings
have their default values. What settings are written as is read as these settings. -/
theorem parse_overlays_defaults :
    (∀ text entries, Json.parse text = some (.ofEntries entries) →
      (entries.map Prod.fst).Nodup →
      ((parse text).isSome = true ↔
        ∀ p ∈ parameters, ∀ v, (p.key, v) ∈ entries → ∃ x, p.kind.Means v x) ∧
      ∀ s, parse text = some s ↔ ∀ p ∈ parameters, p.Overlaid entries s) ∧
    parse "\x7b\x7d" = some {} ∧
    (∀ s, parse s.document.toJson = some s) ∧
    ∀ s fields, Spells s fields → parse (Document.mapping fields).toJson = some s := by
  refine ⟨?_, ?_, ?_, ?_⟩
  · intro text entries hobject hdistinct
    have hparse : parse text = ofEntries? jsonReader entries := by
      simp [parse, hobject, ofJson?_ofEntries hdistinct]
    rw [hparse]
    constructor
    · rw [isSome_ofEntries?]
      simp only [Option.isSome_iff_exists, jsonReader_eq_some_iff]
    · intro s
      simp only [ofEntries?_eq_some_iff hdistinct, taken_iff_overlaid]
  · rfl
  · intro s
    exact parse_of_spells s.spells_fields
  · intro s fields h
    exact parse_of_spells h

theorem partial_document_overlays :
    parse "\x7b\"perf\":true,\"colour\":[],\"ipcache_timeout_secs\":18446744073709551615\x7d" =
        some { performance := true, identityTimeout := 18446744073709551615 } ∧
      parse (Document.mapping (parameters.map fun p =>
        (p.key, p.kind.document (p.get { performance := true })))).toJson =
          some { performance := true } := by
  constructor
  · have htext : (Document.mapping [("perf", .boolean true), ("colour", .sequence []),
        ("ipcache_timeout_secs", .integer 18446744073709551615)]).toJson =
          "\x7b\"perf\":true,\"colour\":[],\"ipcache_timeout_secs\":18446744073709551615\x7d" := by
      decide +kernel
    rw [← htext]
    refine ((parse_overlays_defaults.1 _
      [("perf", .boolean true), ("colour", .array []),
        ("ipcache_timeout_secs", .number (Document.numeral 18446744073709551615))]
      (Json.parse_toJson _) (by decide)).2 _).2 ?_
    unfold parameters
    intro p hp
    refine ⟨fun v hv => ?_, fun habsent => ?_⟩
    · fin_cases hp <;> simp at hv
      · exact hv
      · exact ⟨_, hv, Json.toNat?_numeral 18446744073709551615⟩
    · fin_cases hp <;> first | rfl | exact absurd (by decide) habsent
  · exact parse_overlays_defaults.2.2.2 _ _ (spells_fields _)

end Settings

end Reachability
