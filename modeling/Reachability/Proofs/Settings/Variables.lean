import Reachability.Proofs.Settings.Parameters
import Reachability.Proofs.Settings.Scalars
import Reachability.Settings.Load

namespace Reachability.Settings

variable {p : Parameter}

/-- The setting is a text. -/
def Parameter.IsText (p : Parameter) : Prop := p.kind = .text ∨ p.kind = .optionalText

/-- A text as the value of a setting of this kind. -/
def Kind.ofText? : (kind : Kind) → String → Option kind.Carrier
  | text, s => some s
  | optionalText, s => some (some s)
  | _, _ => none

/-- The setting is this text. -/
def Parameter.Holds (p : Parameter) (settings : Settings) (s : String) : Prop :=
  p.kind.ofText? s = some (p.get settings)

/-- The variable of a setting. -/
def Parameter.variableName (p : Parameter) : String :=
  "CONNCHECK_" ++ String.ofList (p.key.toList.map Char.toUpper)

/-- The environment in which this variable alone is set. -/
def Parameter.only (p : Parameter) (s : String) : Environment := ⟨[(p.variableName, s)]⟩

theorem toList_variableName (p : Parameter) :
    p.variableName.toList = "CONNCHECK_".toList ++ p.key.toList.map Char.toUpper := by
  simp only [Parameter.variableName, String.toList_append, String.toList_ofList]

theorem key?_variableName (hp : p ∈ parameters) :
    Environment.key? p.variableName = some p.key := by
  have hkeys : ∀ p ∈ parameters,
      ("CONNCHECK_".toList ++ p.key.toList.map Char.toUpper).all (decide <| ·.toNat < 128) = true ∧
        ("CONNCHECK_".toList ++ p.key.toList.map Char.toUpper).map Char.toLower =
          Environment.leader.toList ++ p.key.toList ∧
        Environment.pointed p.key.toList = p.key.toList := by
    decide +kernel
  obtain ⟨hascii, hsmall, hpointed⟩ := hkeys p hp
  rw [← toList_variableName] at hascii hsmall
  simp only [List.all_eq_true, decide_eq_true_eq] at hascii
  have hdrop : (Environment.leader.toList ++ p.key.toList).drop Environment.leader.length =
      p.key.toList := List.drop_left' rfl
  rw [Environment.key?, Text.lowercase_of_ascii hascii, hsmall, String.toList_ofList]
  simp only [List.isPrefixOf_iff_prefix, List.prefix_append, if_true, hdrop, hpointed,
    String.ofList_toList]

theorem lowercase_key (hp : p ∈ parameters) : Text.lowercase p.key = p.key := by
  have hkeys : ∀ p ∈ parameters, p.key.toList.all (decide <| ·.toNat < 128) = true ∧
      String.ofList (p.key.toList.map Char.toLower) = p.key := by decide +kernel
  obtain ⟨hascii, hsmall⟩ := hkeys p hp
  simp only [List.all_eq_true, decide_eq_true_eq] at hascii
  rw [Text.lowercase_of_ascii hascii, hsmall]

theorem path_key (hp : p ∈ parameters) : path p.key = [.name p.key] := by
  have hall : ∀ p ∈ parameters, path p.key = [.name p.key] := by decide +kernel
  exact hall p hp

theorem layer_only (hp : p ∈ parameters) (s : String) :
    (p.only s).layer = [(p.key, Value.ofText s)] := by
  simp only [Environment.layer, Parameter.only, List.filterMap_cons, List.filterMap_nil,
    key?_variableName hp, Option.map_some]
  rfl

/-- A scalar is laid over nothing. -/
theorem lay_ofText (name s : String) :
    (Value.table []).lay name (.ofText s) = .table [(Text.lowercase name, .ofText s)] := by
  have hscalar : ∀ v : Value, v.text?.isSome = true →
      (Value.table []).lay name v = .table [(Text.lowercase name, v)] := by
    intro v hv
    cases v with
    | nothing | list | table => cases hv
    | truth | integer | real | text => simp [Value.lay, Value.put, Value.entries]
  obtain ⟨t, htext, -⟩ := exists_coercedText s
  exact hscalar _ (by rw [htext]; rfl)

theorem overlay_only (hp : p ∈ parameters) (s : String) :
    ((Value.table []).overlay (p.only s).layer).entries = [(p.key, .ofText s)] := by
  simp only [layer_only hp, Value.overlay, List.foldl_cons, List.foldl_nil, path_key hp,
    Value.layAlong, lay_ofText, lowercase_key hp, Value.entries]

theorem settingsFile?_empty (name : String) : ({} : Directory).settingsFile? name = none := by
  simp [Directory.settingsFile?, Directory.get?]

theorem fileLayer_empty (e : Environment) : fileLayer {} e = .ok [] := by
  rw [fileLayer, settingsFile?_empty]

/-- With one variable and no files, the variable's value is all there is to read. -/
theorem load_only (hp : p ∈ parameters) (s : String) :
    load {} (p.only s) = match valueReader p.kind (.ofText s) with
      | some x => .ok (p.set x {})
      | none => .error (.settings "a value does not fit its setting") := by
  have henvironment : ({} : Directory).environment (p.only s) = p.only s := rfl
  have hnone : (Value.table []).overlay [] = .table [] := rfl
  have hentries : ofEntries? valueReader [(p.key, .ofText s)] =
      (valueReader p.kind (.ofText s)).map (p.set · {}) := by
    simp [ofEntries?, clear_eq, takeOver_of_mem hp]
  unfold load
  simp only [henvironment, fileLayer_empty, bind, Except.bind, hnone, overlay_only hp, hentries]
  cases valueReader p.kind (.ofText s) <;> rfl

/-- A setting that is a text takes the text of a scalar. -/
theorem valueReader_of_isText (htext : p.IsText) {v : Value} {t : String} (h : v.text? = some t) :
    ∃ x, valueReader p.kind v = some x ∧ p.kind.ofText? t = some x := by
  obtain hkind | hkind := htext
  · rw [hkind]
    exact ⟨t, h, rfl⟩
  · rw [hkind]
    refine ⟨some t, ?_, rfl⟩
    cases v with
    | nothing => cases h
    | truth | integer | real | text | list | table => exact congrArg (Option.map some) h

theorem Kind.ofText?_inj {kind : Kind} {x : kind.Carrier} {s t : String}
    (hs : kind.ofText? s = some x) (ht : kind.ofText? t = some x) : s = t := by
  have hsame := hs.trans ht.symm
  cases kind with
  | text => exact Option.some.inj hsame
  | optionalText => exact Option.some.inj (Option.some.inj hsame)
  | truth | seconds | texts | truths => cases hs

/-- A setting is one text at most. -/
theorem Parameter.Holds.unique {settings : Settings} {s t : String} (hs : p.Holds settings s)
    (ht : p.Holds settings t) : s = t :=
  Kind.ofText?_inj hs ht

/-- A variable sets its setting to what becomes of its text, and no other. -/
theorem exists_load_only (hp : p ∈ parameters) (htext : p.IsText) {s t : String}
    (hcoerced : CoercedText s t) :
    ∃ settings, load {} (p.only s) = .ok settings ∧ p.Holds settings t ∧
      ∀ q ∈ parameters, q.key ≠ p.key → q.get settings = q.get {} := by
  obtain ⟨x, hread, hx⟩ := valueReader_of_isText htext (text?_ofText.2 hcoerced)
  refine ⟨p.set x {}, ?_, ?_, fun q hq hne => get_set_of_ne hp hq hne x {}⟩
  · rw [load_only hp, hread]
  · rw [Parameter.Holds, get_set hp]
    exact hx

/-- Let a variable alone give a setting that is a text. Then loading succeeds, all other settings
are what they are when nothing is set, and this one is what becomes of the variable's text when
that is taken for a scalar first. So an integer keeps its text just if that has no plus, no leading
zeros and no minus before zero, and a text stays as it is if some character of it stands in no
scalar. -/
theorem load_tells_text (hp : p ∈ parameters) (htext : p.IsText) (s : String) :
    ∃ settings, load {} (p.only s) = .ok settings ∧
      (∀ q ∈ parameters, q.key ≠ p.key → q.get settings = q.get {}) ∧
      (∀ t, p.Holds settings t ↔ CoercedText s t) ∧
      (∀ n, SpellsInteger64 s n → (p.Holds settings s ↔ Decimal.IsProper s.toList)) ∧
      ((∃ c ∈ s.toList, isDivider c = true) → p.Holds settings s) := by
  obtain ⟨t, -, hcoerced⟩ := exists_coercedText s
  obtain ⟨settings, hload, ht, hothers⟩ := exists_load_only hp htext hcoerced
  have hholds : ∀ t', p.Holds settings t' ↔ CoercedText s t' := by
    intro t'
    constructor
    · intro ht'
      rw [ht'.unique ht]
      exact hcoerced
    · intro hcoerced'
      rw [hcoerced'.unique hcoerced]
      exact ht
  refine ⟨settings, hload, hothers, hholds, fun n hspells => ?_, ?_⟩
  · rw [hholds, hspells.coercedText_self_iff]
  · rintro ⟨c, hc, hdivider⟩
    rw [hholds]
    exact coercedText_self_of_isDivider hc hdivider

/-- The setting that names the namespace of a run. -/
def namespaceParameter : Parameter :=
  ⟨"test_namespace", .text, testNamespace, fun v s => { s with testNamespace := v },
    Default.testNamespace⟩

/-- A name of digits that are an integer with leading zeros. -/
theorem spellsInteger64_padded : SpellsInteger64 "007" 7 := by
  have hdigits : ∀ c ∈ ['0', '0', '7'], c.isDigit = true := List.all_eq_true.1 (by decide)
  have hspells : Decimal.SpellsInteger "007".toList 7 :=
    ⟨['0', '0', '7'], by simp, hdigits, .inl ⟨.inl rfl, by decide⟩⟩
  exact ⟨hspells, by decide⟩

theorem namespaceParameter_tells_text :
    namespaceParameter ∈ parameters ∧ namespaceParameter.IsText ∧
    SpellsInteger64 "007" 7 ∧
    (∃ settings, load {} (namespaceParameter.only "007") = .ok settings ∧
      (∀ q ∈ parameters, q.key ≠ "test_namespace" → q.get settings = q.get {}) ∧
      (∀ t, namespaceParameter.Holds settings t ↔ CoercedText "007" t) ∧
      (namespaceParameter.Holds settings "007" ↔ Decimal.IsProper "007".toList)) ∧
    (∃ c ∈ "team:007".toList, isDivider c = true) ∧
    ∃ settings, load {} (namespaceParameter.only "team:007") = .ok settings ∧
      namespaceParameter.Holds settings "team:007" := by
  have hp : namespaceParameter ∈ parameters := List.mem_cons_self
  have htext : namespaceParameter.IsText := .inl rfl
  have hdivider : ∃ c ∈ "team:007".toList, isDivider c = true :=
    ⟨':', by decide, by decide⟩
  obtain ⟨settings, hload, hothers, hholds, hinteger, -⟩ := load_tells_text hp htext "007"
  obtain ⟨settings', hload', -, -, -, hkept⟩ := load_tells_text hp htext "team:007"
  exact ⟨hp, htext, spellsInteger64_padded,
    ⟨settings, hload, hothers, hholds, hinteger 7 spellsInteger64_padded⟩, hdivider,
    settings', hload', hkept hdivider⟩

/-- A namespace whose name is digits with leading zeros loses these. -/
theorem namespaceParameter_loses_zeros :
    ∃ settings, load {} (namespaceParameter.only "007") = .ok settings ∧
      namespaceParameter.Holds settings "7" ∧ ¬ namespaceParameter.Holds settings "007" := by
  have hcoerced : CoercedText "007" (toString (7 : Int)) :=
    .integer spellsInteger64_padded.not_spellsTruth spellsInteger64_padded
  obtain ⟨settings, hload, hholds, -⟩ :=
    exists_load_only (p := namespaceParameter) List.mem_cons_self (.inl rfl) hcoerced
  have hseven : namespaceParameter.Holds settings "7" := hholds
  exact ⟨settings, hload, hseven, fun hpadded => absurd (hpadded.unique hseven) (by decide)⟩

end Reachability.Settings
