import Mathlib.Data.List.Basic
import Reachability.Proofs.Decimal
import Reachability.Settings.Value

namespace Reachability

namespace Text

theorem lowerChar_of_ascii {c : Char} (hc : c.toNat < 128) : lowerChar c = [c.toLower] :=
  forall_ascii (P := fun c => lowerChar c = [c.toLower]) (by decide +kernel) hc

/-- In ASCII, small letters are those from A to Z. -/
theorem lowercase_of_ascii {s : String} (hs : ∀ c ∈ s.toList, c.toNat < 128) :
    lowercase s = String.ofList (s.toList.map Char.toLower) := by
  rw [lowercase, List.map_eq_flatMap]
  congr 1
  exact List.flatMap_congr fun c hc => lowerChar_of_ascii (hs c hc)

/-- An ASCII character that is its own small form stays in a text. -/
theorem mem_lowercase {s : String} {c : Char} (hc : c ∈ s.toList) (hascii : c.toNat < 128)
    (hsmall : c.toLower = c) : c ∈ (lowercase s).toList := by
  rw [lowercase, String.toList_ofList, List.mem_flatMap]
  refine ⟨c, hc, ?_⟩
  rw [lowerChar_of_ascii hascii, hsmall]
  exact List.mem_singleton_self c

end Text

namespace Settings

/-- The letters of truth values, of infinity and of what is no number. -/
def wordLetters : List Char := "truefalseinfinitynan".toList

/-- An ASCII character that no truth value and no number is written with, such as the slashes and
colons of image names. -/
def isDivider (c : Char) : Bool :=
  decide (c.toNat < 128) && !c.isAlphanum && !(['+', '-', '.'].contains c)

theorem isDivider_ascii {c : Char} (h : isDivider c = true) : c.toNat < 128 := by
  simp only [isDivider, Bool.and_eq_true, decide_eq_true_eq] at h
  exact h.1.1

/-- A divider is no letter, and no number has it. -/
theorem isDivider_apart {c : Char} (h : isDivider c = true) :
    c.toLower = c ∧ Decimal.isNumeric c = false ∧ c ∉ wordLetters := by
  have hascii := isDivider_ascii h
  revert h
  refine Text.forall_ascii (P := fun c => isDivider c = true →
    c.toLower = c ∧ Decimal.isNumeric c = false ∧ c ∉ wordLetters) ?_ hascii
  decide +kernel

theorem isDigit_apart {c : Char} (h : c.isDigit = true) : c.toLower = c ∧ c ∉ wordLetters := by
  have hascii : c.toNat < 128 := by
    have hrange := Decimal.toNat_digit h
    omega
  revert h
  refine Text.forall_ascii (P := fun c => c.isDigit = true →
    c.toLower = c ∧ c ∉ wordLetters) ?_ hascii
  decide +kernel

variable {s t : String}

/-- How a truth value is written. -/
def truthWord (b : Bool) : String := if b then "true" else "false"

/-- A truth value in letters of any case. -/
def SpellsTruth (s : String) (b : Bool) : Prop := Text.lowercase s = truthWord b

/-- An integer of 64 bits in digits, with any sign and any zeros before them. -/
def SpellsInteger64 (s : String) (n : Int) : Prop :=
  Decimal.SpellsInteger s.toList n ∧ Decimal.isInteger64 n = true

/-- What becomes of a text that is taken for a truth value, else for an integer, else for a number,
and is wanted as a text: that scalar's own text. A text that spells no scalar stays as it is. -/
inductive CoercedText (s : String) : String → Prop
  | truth {b : Bool} (h : SpellsTruth s b) : CoercedText s (truthWord b)
  | integer {n : Int} (htruth : ∀ b, ¬ SpellsTruth s b) (h : SpellsInteger64 s n) :
      CoercedText s (toString n)
  | real {x : Binary64} (htruth : ∀ b, ¬ SpellsTruth s b) (hinteger : ∀ n, ¬ SpellsInteger64 s n)
      (h : Binary64.ofString? s = some x) : CoercedText s x.toText
  | verbatim (htruth : ∀ b, ¬ SpellsTruth s b) (hinteger : ∀ n, ¬ SpellsInteger64 s n)
      (hreal : Binary64.ofString? s = none) : CoercedText s s

theorem SpellsTruth.eq {b b' : Bool} (h : SpellsTruth s b) (h' : SpellsTruth s b') : b = b' := by
  have hinj : ∀ b b', truthWord b = truthWord b' → b = b' := by decide
  exact hinj b b' (h.symm.trans h')

theorem SpellsInteger64.eq {n n' : Int} (h : SpellsInteger64 s n) (h' : SpellsInteger64 s n') :
    n = n' := by
  have hsome := Decimal.integer64?_eq_some_iff.2 h
  have hsome' := Decimal.integer64?_eq_some_iff.2 h'
  exact Option.some.inj (hsome.symm.trans hsome')

theorem CoercedText.unique {t' : String} (h : CoercedText s t) (h' : CoercedText s t') :
    t = t' := by
  cases h with
  | truth hb =>
    cases h' with
    | truth hb' => rw [hb.eq hb']
    | integer htruth => exact absurd hb (htruth _)
    | real htruth => exact absurd hb (htruth _)
    | verbatim htruth => exact absurd hb (htruth _)
  | integer htruth hn =>
    cases h' with
    | truth hb' => exact absurd hb' (htruth _)
    | integer _ hn' => rw [hn.eq hn']
    | real _ hinteger => exact absurd hn (hinteger _)
    | verbatim _ hinteger => exact absurd hn (hinteger _)
  | real htruth hinteger hx =>
    cases h' with
    | truth hb' => exact absurd hb' (htruth _)
    | integer _ hn' => exact absurd hn' (hinteger _)
    | real _ _ hx' => rw [Option.some.inj (hx.symm.trans hx')]
    | verbatim _ _ hreal => cases hx.symm.trans hreal
  | verbatim htruth hinteger hreal =>
    cases h' with
    | truth hb' => exact absurd hb' (htruth _)
    | integer _ hn' => exact absurd hn' (hinteger _)
    | real _ _ hx' => cases hreal.symm.trans hx'
    | verbatim => rfl

/-- Some text becomes of every text. -/
theorem exists_coercedText (s : String) :
    ∃ t, (Value.ofText s).text? = some t ∧ CoercedText s t := by
  have hneither : Text.lowercase s ≠ "true" → Text.lowercase s ≠ "false" →
      ∀ b, ¬ SpellsTruth s b := by
    intro htrue hfalse b
    cases b with
    | true => exact htrue
    | false => exact hfalse
  unfold Value.ofText
  by_cases htrue : Text.lowercase s = "true"
  · exact ⟨"true", by simp [htrue, Value.text?], .truth (b := true) htrue⟩
  · by_cases hfalse : Text.lowercase s = "false"
    · exact ⟨"false", by simp [hfalse, Value.text?], .truth (b := false) hfalse⟩
    · have htruth := hneither htrue hfalse
      simp only [htrue, hfalse, if_false]
      cases hn : Decimal.integer64? s with
      | some n =>
        exact ⟨toString n, rfl, .integer htruth (Decimal.integer64?_eq_some_iff.1 hn)⟩
      | none =>
        have hinteger : ∀ n, ¬ SpellsInteger64 s n := fun n hspells => by
          rw [Decimal.integer64?_eq_some_iff.2 hspells] at hn
          cases hn
        cases hx : Binary64.ofString? s with
        | some x => exact ⟨x.toText, rfl, .real htruth hinteger hx⟩
        | none => exact ⟨s, rfl, .verbatim htruth hinteger hx⟩

/-- What becomes of a text that is taken for a value. -/
theorem text?_ofText : (Value.ofText s).text? = some t ↔ CoercedText s t := by
  obtain ⟨t', htext, hcoerced⟩ := exists_coercedText s
  constructor
  · intro h
    obtain rfl := Option.some.inj (htext.symm.trans h)
    exact hcoerced
  · intro h
    rw [htext, hcoerced.unique h]

/-- A text with an ASCII character that is its own small form and stands in no word spells no truth
value. -/
theorem not_spellsTruth {c : Char} (hc : c ∈ s.toList) (hascii : c.toNat < 128)
    (hsmall : c.toLower = c) (hletter : c ∉ wordLetters) (b : Bool) : ¬ SpellsTruth s b := by
  intro htruth
  have hmem := Text.mem_lowercase hc hascii hsmall
  rw [htruth] at hmem
  have hwords : ∀ b, (truthWord b).toList.all (wordLetters.contains ·) = true := by decide
  exact hletter (List.contains_iff_mem.1 (List.all_eq_true.1 (hwords b) c hmem))

theorem SpellsInteger64.not_spellsTruth {n : Int} (h : SpellsInteger64 s n) (b : Bool) :
    ¬ SpellsTruth s b := by
  obtain ⟨c, hc, hdigit⟩ := h.1.exists_digit
  obtain ⟨hsmall, hletter⟩ := isDigit_apart hdigit
  have hrange := Decimal.toNat_digit hdigit
  exact Settings.not_spellsTruth hc (by omega) hsmall hletter b

/-- The text of an integer is kept just if it is the integer's own. -/
theorem SpellsInteger64.coercedText_self_iff {n : Int} (h : SpellsInteger64 s n) :
    CoercedText s s ↔ Decimal.IsProper s.toList := by
  rw [← Decimal.toString_eq_iff_isProper h.1]
  have hcoerced : CoercedText s (toString n) := .integer h.not_spellsTruth h
  constructor
  · intro hself
    exact hcoerced.unique hself
  · intro hself
    rwa [hself] at hcoerced

/-- What is read as a number is written with the characters of numbers, or is one of the words for
infinity and for what is no number. -/
theorem ofString?_eq_none {c : Char} (hc : c ∈ s.toList) (hsmall : c.toLower = c)
    (hnumeric : Decimal.isNumeric c = false) (hletter : c ∉ wordLetters) :
    Binary64.ofString? s = none := by
  have hrest := Decimal.mem_sign hc hnumeric
  have hword : ∀ word : String, word.toList.all (wordLetters.contains ·) = true →
      String.ofList ((Decimal.sign s.toList).2.map Char.toLower) ≠ word := by
    rintro word hletters rfl
    refine hletter (List.contains_iff_mem.1 (List.all_eq_true.1 hletters c ?_))
    rw [String.toList_ofList]
    exact List.mem_map.2 ⟨c, hrest, hsmall⟩
  have hnumber : Decimal.unsigned? (Decimal.sign s.toList).1 (Decimal.sign s.toList).2 = none := by
    refine Option.eq_none_iff_forall_ne_some.2 fun d hd => ?_
    rw [Decimal.isNumeric_of_unsigned? hd c hrest] at hnumeric
    cases hnumeric
  have hinf := hword "inf" (by decide)
  have hinfinity := hword "infinity" (by decide)
  have hnan := hword "nan" (by decide)
  simp [Binary64.ofString?, hinf, hinfinity, hnan, hnumber]

/-- A text with a character that stands in no scalar is kept. -/
theorem coercedText_self_of_isDivider {c : Char} (hc : c ∈ s.toList)
    (hdivider : isDivider c = true) : CoercedText s s := by
  obtain ⟨hsmall, hnumeric, hletter⟩ := isDivider_apart hdivider
  refine .verbatim (not_spellsTruth hc (isDivider_ascii hdivider) hsmall hletter)
    (fun n hspells => ?_) (ofString?_eq_none hc hsmall hnumeric hletter)
  obtain ⟨-, hds, -⟩ := Decimal.spellsInteger_iff.1 hspells.1
  rw [Decimal.isNumeric_of_isDigit (hds c (Decimal.mem_sign hc hnumeric))] at hnumeric
  cases hnumeric

end Settings

end Reachability
