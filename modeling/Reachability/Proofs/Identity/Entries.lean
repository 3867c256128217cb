import Reachability.Proofs.Identity
import Reachability.Proofs.Json

namespace Reachability

namespace Text

theorem isBlank_digit {c : Char} (h : c.isDigit = true) : isBlank c = false := by
  have hrange : 48 ≤ c.toNat ∧ c.toNat ≤ 57 := by
    simpa [Char.isDigit, UInt32.le_iff_toNat_le] using h
  unfold isBlank
  simp only [Bool.or_eq_false_iff, Bool.and_eq_false_iff, decide_eq_false_iff_not,
    beq_eq_false_iff_ne]
  omega

/-- Blanks that keep two fields apart. -/
def IsGap (s : List Char) : Prop := s ≠ [] ∧ ∀ c ∈ s, isBlank c = true

instance (s : List Char) : Decidable (IsGap s) :=
  decidable_of_iff (s ≠ [] ∧ s.all isBlank = true) (by rw [IsGap, List.all_eq_true])

theorem wordsFrom_append {word : List Char} (hword : ∀ c ∈ word, isBlank c = false)
    (run rest : List Char) : wordsFrom run (word ++ rest) = wordsFrom (run ++ word) rest := by
  induction word generalizing run with
  | nil => simp
  | cons c word ih =>
    obtain ⟨hc, hword⟩ := List.forall_mem_cons.1 hword
    rw [List.cons_append, wordsFrom, hc, if_neg Bool.false_ne_true, ih hword, List.append_assoc]
    rfl

theorem words_cons_blank {c : Char} (hc : isBlank c = true) (rest : List Char) :
    words (c :: rest) = words rest := by
  rw [words, wordsFrom, hc]
  rfl

/-- Blanks at the start of a text are passed over. -/
theorem words_blank_append {gap : List Char} (hgap : ∀ c ∈ gap, isBlank c = true)
    (rest : List Char) : words (gap ++ rest) = words rest := by
  induction gap with
  | nil => rfl
  | cons c gap ih =>
    obtain ⟨hc, hgap⟩ := List.forall_mem_cons.1 hgap
    rw [List.cons_append, words_cons_blank hc, ih hgap]

/-- A text without blanks that a blank or nothing follows is the first word, if it is not empty. -/
theorem words_append {word rest : List Char} (hword : ∀ c ∈ word, isBlank c = false)
    (hrest : ∀ c ∈ rest.head?, isBlank c = true) :
    words (word ++ rest) = (if word.isEmpty then [] else [word]) ++ words rest := by
  rw [words, wordsFrom_append hword, List.nil_append]
  cases rest with
  | nil => simp [words, wordsFrom]
  | cons c rest =>
    have hc : isBlank c = true := hrest c rfl
    rw [words_cons_blank hc, wordsFrom, hc, if_pos rfl]
    cases word with
    | nil => rfl
    | cons d word => rfl

end Text

namespace IdentityCache

/-- A field that says something else than the identity. -/
def IsOtherField (field : List Char) : Prop :=
  (∀ c ∈ field, Text.isBlank c = false) ∧ ¬ "identity=".toList <+: field

instance (field : List Char) : Decidable (IsOtherField field) :=
  decidable_of_iff
    (field.all (!Text.isBlank ·) = true ∧ "identity=".toList.isPrefixOf field = false)
    (by simp [IsOtherField, ← List.isPrefixOf_iff_prefix])

theorem identityField?_blank_append {gap : List Char} (hgap : ∀ c ∈ gap, Text.isBlank c = true)
    (rest : List Char) : identityField? (gap ++ rest) = identityField? rest := by
  rw [identityField?, Text.words_blank_append hgap, identityField?]

/-- Other fields are passed over. -/
theorem identityField?_skip {field gap : List Char} (hfield : IsOtherField field)
    (hgap : Text.IsGap gap) (rest : List Char) :
    identityField? (field ++ gap ++ rest) = identityField? rest := by
  have hhead : ∀ c ∈ (gap ++ rest).head?, Text.isBlank c = true := by
    obtain ⟨c, gap', rfl⟩ := List.exists_cons_of_ne_nil hgap.1
    intro d hd
    obtain rfl := Option.some.inj hd
    exact hgap.2 c List.mem_cons_self
  have hnone : "identity=".toList.isPrefixOf? field = none := by
    rw [← Option.not_isSome_iff_eq_none, List.isSome_isPrefixOf?_eq_isPrefixOf,
      List.isPrefixOf_iff_prefix]
    exact hfield.2
  rw [List.append_assoc, identityField?, Text.words_append hfield.1 hhead,
    Text.words_blank_append hgap.2, identityField?]
  split
  · rfl
  · exact List.findSome?_cons_of_isNone (by rw [hnone]; rfl)

/-- The first field that speaks of the identity is found, if a blank or nothing follows it. -/
theorem identityField?_append {value rest : List Char}
    (hvalue : ∀ c ∈ value, Text.isBlank c = false)
    (hrest : ∀ c ∈ rest.head?, Text.isBlank c = true) :
    identityField? ("identity=".toList ++ value ++ rest) = some value := by
  have hword : ∀ c ∈ "identity=".toList ++ value, Text.isBlank c = false :=
    List.forall_mem_append.2 ⟨by simp [Text.isBlank], hvalue⟩
  have hfound : "identity=".toList.isPrefixOf? ("identity=".toList ++ value) = some value :=
    List.isPrefixOf?_eq_some_iff_append_eq.2 rfl
  rw [identityField?, Text.words_append hword hrest, if_neg (by simp)]
  exact (List.findSome?_cons ..).trans (by rw [hfound])

/-- What stands in a line beside one field: other fields, and blanks between the fields and around
them. -/
structure Surroundings where
  lead : List Char
  /-- The fields before it, each with the blanks after it. -/
  before : List (List Char × List Char)
  /-- The fields after it, each with the blanks before it. -/
  after : List (List Char × List Char)
  trail : List Char
  lead_blank : ∀ c ∈ lead, Text.isBlank c = true
  before_apart : ∀ f ∈ before, IsOtherField f.1 ∧ Text.IsGap f.2
  after_apart : ∀ f ∈ after, Text.IsGap f.1 ∧ IsOtherField f.2
  trail_blank : ∀ c ∈ trail, Text.isBlank c = true

namespace Surroundings

/-- The part of the line that follows the field. -/
def rest (σ : Surroundings) : List Char := σ.after.flatMap (fun f => f.1 ++ f.2) ++ σ.trail

/-- The line with the field in its place. -/
def line (σ : Surroundings) (field : String) : String :=
  String.ofList
    (σ.lead ++ (σ.before.flatMap (fun f => f.1 ++ f.2) ++ (field.toList ++ σ.rest)))

theorem head?_rest (σ : Surroundings) : ∀ c ∈ σ.rest.head?, Text.isBlank c = true := by
  rw [rest]
  cases hafter : σ.after with
  | nil => exact fun c hc => σ.trail_blank c (List.mem_of_mem_head? hc)
  | cons f fields =>
    obtain ⟨hne, hblank⟩ := (σ.after_apart f (hafter ▸ List.mem_cons_self)).1
    obtain ⟨d, gap, hgap⟩ := List.exists_cons_of_ne_nil hne
    intro c hc
    simp only [List.flatMap_cons, hgap, List.cons_append, List.head?_cons, Option.mem_def,
      Option.some.injEq] at hc
    exact hc ▸ hblank d (hgap ▸ List.mem_cons_self)

/-- Whatever stands around it, the field with the identity is found. -/
theorem identityField?_line (σ : Surroundings) {value : String}
    (hvalue : ∀ c ∈ value.toList, Text.isBlank c = false) :
    identityField? (σ.line ("identity=" ++ value)).toList = some value.toList := by
  have hskip (fields : List (List Char × List Char))
      (hfields : ∀ f ∈ fields, IsOtherField f.1 ∧ Text.IsGap f.2) (rest : List Char) :
      identityField? (fields.flatMap (fun f => f.1 ++ f.2) ++ rest) = identityField? rest := by
    induction fields with
    | nil => rfl
    | cons f fields ih =>
      obtain ⟨⟨hother, hgap⟩, hfields⟩ := List.forall_mem_cons.1 hfields
      rw [List.flatMap_cons, List.append_assoc, identityField?_skip hother hgap, ih hfields]
  rw [line, String.toList_ofList, identityField?_blank_append σ.lead_blank,
    hskip σ.before σ.before_apart, String.toList_append]
  exact identityField?_append hvalue σ.head?_rest

end Surroundings

theorem readIdentity?_toString (n : UInt32) :
    readIdentity? (toString n.toNat).toList = some n.toNat := by
  have hdigits : (toString n.toNat).toList = Nat.toDigits 10 n.toNat := Nat.toList_repr
  rw [hdigits]
  exact readIdentity?_eq_some_iff.2
    ⟨_, .inl rfl, Nat.toDigits_ne_nil, Json.isDigit_of_mem_toDigits,
      Json.digitsValue_toDigits n.toNat, n.toNat_lt⟩

/-- What an agent writes about an identity, among whatever else, carries that identity. -/
theorem carriesIdentity_line (σ : Surroundings) (n : UInt32) :
    CarriesIdentity (σ.line ("identity=" ++ toString n.toNat)) n.toNat := by
  have hvalue : ∀ c ∈ (toString n.toNat).toList, Text.isBlank c = false := by
    have hdigits : (toString n.toNat).toList = Nat.toDigits 10 n.toNat := Nat.toList_repr
    rw [hdigits]
    exact fun c hc => Text.isBlank_digit (Json.isDigit_of_mem_toDigits c hc)
  exact carriesIdentity_iff.2 ⟨_, σ.identityField?_line hvalue, readIdentity?_toString n⟩

variable {c : IdentityCache} {ip range : String}

/-- The range holds the one address that the text spells. -/
def IsRangeOf (ip range : String) : Prop :=
  (∃ octets, Address.ofString? ip = some (.v4 octets)) ∧ range = ip ++ "/32" ∨
    (∃ groups, Address.ofString? ip = some (.v6 groups)) ∧ range = ip ++ "/128"

/-- What keeps a cache from having an identity for an address. -/
inductive Denies (c : IdentityCache) (ip : String) : Mismatch → Prop
  | notAnAddress (haddress : Address.ofString? ip = none) : Denies c ip (.notAnAddress ip)
  | noEntry {range : String} (hrange : IsRangeOf ip range)
      (hentry : ∀ line rest, c.entries.get? range ≠ some (line :: rest)) :
      Denies c ip (.noEntry range)
  | noIdentity {range line : String} {rest : List String} (hrange : IsRangeOf ip range)
      (hentry : c.entries.get? range = some (line :: rest))
      (hwords : ∀ word ∈ Text.words line.toList, ¬ "identity=".toList <+: word) :
      Denies c ip (.noIdentity line range)
  | malformed {range line : String} {rest : List String} {before after : List (List Char)}
      {field : List Char} (hrange : IsRangeOf ip range)
      (hentry : c.entries.get? range = some (line :: rest))
      (hwords : Text.words line.toList = before ++ ("identity=".toList ++ field) :: after)
      (hbefore : ∀ word ∈ before, ¬ "identity=".toList <+: word)
      (hfield : ∀ n, ¬ SpellsIdentity field n) : Denies c ip (.malformedIdentity line)

theorem isRangeOf_iff : IsRangeOf ip range ↔
    ∃ address, Address.ofString? ip = some address ∧ range = rangeOf ip address := by
  unfold IsRangeOf
  simp only [eq_rangeOf_iff]
  cases Address.ofString? ip with
  | none => simp
  | some address => simp

theorem identityField?_eq_none_iff {line : List Char} :
    identityField? line = none ↔ ∀ word ∈ Text.words line, ¬ "identity=".toList <+: word := by
  rw [identityField?, List.findSome?_eq_none_iff]
  refine forall₂_congr fun word _ => ?_
  rw [← List.isPrefixOf_iff_prefix, ← List.isSome_isPrefixOf?_eq_isPrefixOf]
  exact Option.not_isSome_iff_eq_none.symm

theorem readIdentity?_eq_none_iff {field : List Char} :
    readIdentity? field = none ↔ ∀ n, ¬ SpellsIdentity field n := by
  simp only [← readIdentity?_eq_some_iff]
  exact Option.eq_none_iff_forall_ne_some

/-- An address without an identity is told the cause. -/
theorem denies_of_identityOf_eq_error {why : Mismatch} (h : c.identityOf ip = .error why) :
    c.Denies ip why := by
  unfold identityOf at h
  cases haddress : Address.ofString? ip with
  | none =>
    rw [haddress] at h
    cases h
    exact .notAnAddress haddress
  | some address =>
    have hrange : IsRangeOf ip (rangeOf ip address) := isRangeOf_iff.2 ⟨address, haddress, rfl⟩
    simp only [haddress] at h
    rcases hentry : c.entries.get? (rangeOf ip address) with _ | _ | ⟨line, rest⟩ <;>
      simp only [hentry, Option.bind_none, Option.bind_some, List.head?_nil, List.head?_cons] at h
    · cases h
      exact .noEntry hrange (by simp [hentry])
    · cases h
      exact .noEntry hrange (by simp [hentry])
    · cases hfield : identityField? line.toList with
      | none =>
        rw [hfield] at h
        cases h
        exact .noIdentity hrange hentry (identityField?_eq_none_iff.1 hfield)
      | some field =>
        cases hread : readIdentity? field <;> simp only [hfield, hread] at h <;> cases h
        obtain ⟨before, after, hwords, hbefore⟩ := identityField?_eq_some_iff.1 hfield
        exact .malformed hrange hentry hwords hbefore (readIdentity?_eq_none_iff.1 hread)

/-- A cache has an identity for an address if and only if its entry follows the grammar: the text
spells an address, and in the first line of the entry for it alone the first field that starts with
`identity=` goes on as a number of 32 bits. Otherwise it tells what is missing, which may be there
at the next attempt. A line that an agent writes about an identity is read as that identity,
whatever stands around it. -/
theorem identityOf_reads_entry (c : IdentityCache) (ip : String) :
    (∀ n, c.identityOf ip = .ok n ↔ c.Identifies ip n) ∧
    ((∀ n, ¬ c.Identifies ip n) → ∃ why, c.identityOf ip = .error why ∧ c.Denies ip why ∧
      (Failure.invalid why).retryable = true) ∧
    ∀ (range : String) (n : UInt32) (σ : Surroundings) (rest : List String), IsRangeOf ip range →
      c.entries.get? range = some (σ.line ("identity=" ++ toString n.toNat) :: rest) →
      c.identityOf ip = .ok n.toNat := by
  refine ⟨fun n => identityOf_eq_ok_iff, fun hnone => ?_, fun range n σ rest hrange hentry => ?_⟩
  · cases hwhy : c.identityOf ip with
    | ok n => exact absurd (identityOf_eq_ok_iff.1 hwhy) (hnone n)
    | error why => exact ⟨why, rfl, denies_of_identityOf_eq_error hwhy, rfl⟩
  · exact identityOf_eq_ok_iff.2 ⟨range, _, rest, hrange, hentry, carriesIdentity_line σ n⟩

/-- Tabulators, a space that does not break, and a line feed around the fields. -/
def raggedSurroundings : Surroundings where
  lead := ['\t']
  before := [("encryptkey=0".toList, ['\u00a0', ' '])]
  after := [(['\n'], "tunnelendpoint=0.0.0.0".toList)]
  trail := ['\t', '\t']
  lead_blank := List.all_eq_true.1 (by decide)
  before_apart := List.forall_mem_singleton.2 (by decide +kernel)
  after_apart := List.forall_mem_singleton.2 (by decide +kernel)
  trail_blank := List.all_eq_true.1 (by decide)

/-- A cache that knows one address, with the greatest identity. -/
def raggedCache : IdentityCache :=
  ⟨.insert ∅ "fd00::5/128"
    [raggedSurroundings.line ("identity=" ++ toString (4294967295 : UInt32).toNat), "identity=1"]⟩

theorem raggedCache_identityOf :
    IsRangeOf "fd00::5" "fd00::5/128" ∧ raggedCache.identityOf "fd00::5" = .ok 4294967295 ∧
      ∃ why, raggedCache.identityOf "10.0.1.5" = .error why ∧ raggedCache.Denies "10.0.1.5" why ∧
        (Failure.invalid why).retryable = true := by
  have hrange : IsRangeOf "fd00::5" "fd00::5/128" :=
    .inr ⟨⟨[0xfd00, 0, 0, 0, 0, 0, 0, 5], by decide +kernel⟩, rfl⟩
  have hunknown : raggedCache.identityOf "10.0.1.5" = .error (.noEntry "10.0.1.5/32") := by
    decide +kernel
  obtain ⟨-, -, hread⟩ := identityOf_reads_entry raggedCache "fd00::5"
  obtain ⟨hgrammar, hcause, -⟩ := identityOf_reads_entry raggedCache "10.0.1.5"
  refine ⟨hrange, ?_, hcause fun n hn => ?_⟩
  · exact hread "fd00::5/128" 4294967295 raggedSurroundings _ hrange (Dict.get?_insert_self ..)
  · cases hunknown.symm.trans ((hgrammar n).2 hn)

end IdentityCache

end Reachability
