import Mathlib.Data.List.Basic
import Reachability.Document.Json
import Reachability.Json

namespace Reachability

open Document (jsonChar jsonFields jsonItems jsonString)

namespace Document

/-- An integer as it is written. -/
def numeral (n : Int) : Numeral where
  negative := decide (n < 0)
  whole := Nat.toDigits 10 n.natAbs
  fraction := []
  exponent := none

mutual

/-- The value that a document is written as. -/
def asJson : Document → Json
  | null => .null
  | boolean b => .boolean b
  | integer n => .number (numeral n)
  | text s => .string (some s)
  | sequence items => .array (asItems items)
  | mapping fields => .object (asMembers fields)

def asItems : List Document → List Json
  | [] => []
  | item :: rest => asJson item :: asItems rest

def asMembers : List (String × Document) → List (Spelling × Json)
  | [] => []
  | (k, v) :: rest => (some k, asJson v) :: asMembers rest

end

theorem asItems_eq_map (items : List Document) : asItems items = items.map asJson := by
  induction items with
  | nil => simp [asItems]
  | cons item rest ih => simp [asItems, ih]

theorem asMembers_eq_map (fields : List (String × Document)) :
    asMembers fields = fields.map fun f => (some f.1, f.2.asJson) := by
  induction fields with
  | nil => simp [asMembers]
  | cons field rest ih => simp [asMembers, ih]

end Document

namespace Json

/-- The digits in the escape of a control character. -/
theorem control_digits : ∀ n < 0x20,
    List.replicate (4 - (Nat.toDigits 16 n).length) '0' ++ Nat.toDigits 16 n =
      ['0', '0', Nat.digitChar (n / 16), Nat.digitChar (n % 16)] := by
  decide +kernel

theorem unit?_control : ∀ n < 0x20,
    unit? '0' '0' (Nat.digitChar (n / 16)) (Nat.digitChar (n % 16)) = some n := by
  decide +kernel

theorem stringUnits_verbatim {c : Char} (hlow : ¬ c.toNat < 0x20) (hquote : c ≠ '"')
    (hslash : c ≠ '\\') (rest : List Char) :
    stringUnits (c :: rest) = (stringUnits rest).map fun r => (c.toNat :: r.1, r.2) := by
  rw [stringUnits]
  · have hcontrol : (decide (c.toNat < 0x20) || c == '\\') = false := by simp [hslash, hlow]
    simp only [hcontrol]
    cases stringUnits rest <;> rfl
  all_goals grind

theorem stringUnits_shortEscape {a e : Char} (hu : a ≠ 'u') (ha : shortEscape? a = some e)
    (rest : List Char) :
    stringUnits ('\\' :: a :: rest) = (stringUnits rest).map fun r => (e.toNat :: r.1, r.2) := by
  rw [stringUnits]
  · simp only [ha]
    cases stringUnits rest <;> rfl
  all_goals grind

theorem stringUnits_jsonChar (c : Char) (rest : List Char) :
    stringUnits (jsonChar c ++ rest) = (stringUnits rest).map fun r => (c.toNat :: r.1, r.2) := by
  unfold jsonChar
  split
  iterate 7 next => exact stringUnits_shortEscape (by decide) rfl rest
  next hquote hslash _ _ _ _ _ =>
    by_cases hlow : c.toNat < 0x20
    · simp only [if_pos hlow, List.cons_append, control_digits c.toNat hlow, List.nil_append,
        stringUnits, unit?_control c.toNat hlow]
      cases stringUnits rest <;> rfl
    · rw [if_neg hlow]
      exact stringUnits_verbatim hlow hquote hslash rest

theorem stringUnits_flatMap (cs rest : List Char) :
    stringUnits (cs.flatMap jsonChar ++ '"' :: rest) = some (cs.map Char.toNat, rest) := by
  induction cs with
  | nil => simp [stringUnits]
  | cons c cs ih => simp [List.append_assoc, stringUnits_jsonChar, ih]

/-- No character is half of a surrogate pair. -/
theorem not_surrogate (c : Char) : ¬ (0xD800 ≤ c.toNat ∧ c.toNat < 0xE000) := by
  have hvalid : c.toNat < 0xD800 ∨ 0xDFFF < c.toNat ∧ c.toNat < 0x110000 := c.valid
  omega

theorem joinPairs_map (cs : List Char) : joinPairs (cs.map Char.toNat) = some cs := by
  induction cs with
  | nil => simp [joinPairs]
  | cons c cs ih =>
    have hc := not_surrogate c
    have hhigh : ¬ (0xD800 ≤ c.toNat ∧ c.toNat < 0xDC00) := by omega
    have hlow : ¬ (0xDC00 ≤ c.toNat ∧ c.toNat < 0xE000) := by omega
    cases cs with
    | nil => simp [joinPairs, hc, Char.ofNat_toNat]
    | cons d cs =>
      rw [List.map_cons] at ih
      simp [joinPairs, hhigh, hlow, ih, Char.ofNat_toNat]

theorem toList_jsonString (s : String) :
    (jsonString s).toList = '"' :: (s.toList.flatMap jsonChar ++ ['"']) := by
  simp [jsonString]

/-- A string is read up to its closing quote. -/
theorem string?_flatMap (s : String) (rest : List Char) :
    string? (s.toList.flatMap jsonChar ++ '"' :: rest) = some (some s, rest) := by
  simp [string?, stringUnits_flatMap, joinPairs_map]

/-- What may follow a value: nothing, or the next sign of the list or the object it stands in. -/
def Ends (rest : List Char) : Prop := ∀ c ∈ rest.head?, c = ',' ∨ c = ']' ∨ c = '\x7d'

theorem ends_nil : Ends [] := by simp [Ends]

theorem ends_cons {c : Char} (h : c = ',' ∨ c = ']' ∨ c = '\x7d') (rest : List Char) :
    Ends (c :: rest) := by
  simpa [Ends] using h

theorem isDigit_of_mem_toDigits {n : Nat} : ∀ c ∈ Nat.toDigits 10 n, c.isDigit = true :=
  fun _ hc => Nat.isDigit_of_mem_toDigits (by decide) (by decide) hc

theorem exists_toDigits (n : Nat) :
    ∃ c cs, Nat.toDigits 10 n = c :: cs ∧ c.isDigit = true := by
  obtain ⟨c, cs, hcs⟩ := List.exists_cons_of_ne_nil (Nat.toDigits_ne_nil (b := 10) (n := n))
  exact ⟨c, cs, hcs, isDigit_of_mem_toDigits (n := n) c (by simp [hcs])⟩

theorem digitsValue_toDigits (n : Nat) : Decimal.digitsValue (Nat.toDigits 10 n) = n := by
  have hvalue := Nat.ofDigitChars_ten_toDigits (n := n)
  rw [Nat.ofDigitChars_eq_foldl] at hvalue
  simpa [Decimal.digitsValue, Nat.mul_comm] using hvalue

theorem toNat?_numeral (n : Nat) : (Document.numeral n).toNat? = some n := by
  simp [Document.numeral, Numeral.toNat?, Numeral.isInteger, digitsValue_toDigits]

/-- A number other than zero does not begin with a zero. -/
theorem head?_toDigits {n : Nat} (h : n ≠ 0) : (Nat.toDigits 10 n).head? ≠ some '0' := by
  induction n using Nat.strongRecOn with
  | ind n ih =>
    by_cases hn : n < 10
    · have hdigits : ∀ m < 10, m ≠ 0 → m.digitChar ≠ '0' := by decide
      simpa [Nat.toDigits_of_lt_base hn] using hdigits n hn h
    · have hquotient := ih (n / 10) (by omega) (by omega)
      rw [Nat.toDigits_of_base_le (by decide) (by omega),
        List.head?_append_of_ne_nil _ Nat.toDigits_ne_nil]
      exact hquotient

theorem digits_append {ds rest : List Char} (h : ∀ c ∈ ds, c.isDigit = true) (hrest : Ends rest) :
    digits (ds ++ rest) = (ds, rest) := by
  have hnone : rest.takeWhile Char.isDigit = [] ∧ rest.dropWhile Char.isDigit = rest := by
    cases rest with
    | nil => simp
    | cons c rest =>
      have hc : c.isDigit = false := by
        obtain rfl | rfl | rfl := hrest c (by simp) <;> decide
      simp [hc]
  rw [digits, List.takeWhile_append_of_pos h, List.dropWhile_append_of_pos h, hnone.1, hnone.2,
    List.append_nil]

theorem fraction?_ends {rest : List Char} (h : Ends rest) : fraction? rest = some ([], rest) := by
  cases rest with
  | nil => simp [fraction?]
  | cons c rest => obtain rfl | rfl | rfl := h c (by simp) <;> simp [fraction?]

theorem exponent?_ends {rest : List Char} (h : Ends rest) : exponent? rest = some (none, rest) := by
  cases rest with
  | nil => simp [exponent?]
  | cons c rest => obtain rfl | rfl | rfl := h c (by simp) <;> simp [exponent?]

theorem number?_toDigits (negative : Bool) (n : Nat) {rest : List Char} (h : Ends rest) :
    number? negative (Nat.toDigits 10 n ++ rest) =
      some (⟨negative, Nat.toDigits 10 n, [], none⟩, rest) := by
  have hdigits := digits_append (isDigit_of_mem_toDigits (n := n)) h
  by_cases hn : n = 0
  · subst hn
    simp [number?, fraction?_ends h, exponent?_ends h]
  · have hhead := head?_toDigits hn
    obtain ⟨d, ds, hds, -⟩ := exists_toDigits n
    rw [hds] at hhead hdigits ⊢
    have hd : d ≠ '0' := by simpa using hhead
    simp only [List.cons_append] at hdigits ⊢
    simp [number?, hd, hdigits, fraction?_ends h, exponent?_ends h]

theorem isBlank_digit {c : Char} (h : c.isDigit = true) : isBlank c = false := by
  by_contra hblank
  simp only [isBlank, Bool.not_eq_false, Bool.or_eq_true, beq_iff_eq] at hblank
  obtain ((rfl | rfl) | rfl) | rfl := hblank <;> cases h

theorem skipBlank_cons {c : Char} (h : isBlank c = false) (rest : List Char) :
    skipBlank (c :: rest) = c :: rest := by
  simp [skipBlank, h]

theorem value?_digit {c : Char} (h : c.isDigit = true) (fuel : Nat) (rest : List Char) :
    value? (fuel + 1) (c :: rest) =
      (number? false (c :: rest)).map fun (n, rest) => (number n, rest) := by
  rw [value?, skipBlank_cons (isBlank_digit h)]
  split <;> simp_all

/-- The digits of an integer, behind its sign. -/
theorem toList_integer (n : Int) : (Document.integer n).toJson.toList =
    if n < 0 then '-' :: Nat.toDigits 10 n.natAbs else Nat.toDigits 10 n.natAbs := by
  rw [Document.toJson, Int.toString_eq_repr, Int.repr_eq_if]
  by_cases hn : n < 0
  · have habs : (-n).toNat = n.natAbs := by omega
    simp [hn, Int.not_le.2 hn, habs]
  · have habs : n.toNat = n.natAbs := by omega
    simp [hn, Int.not_lt.1 hn, habs]

theorem value?_integer (n : Int) (fuel : Nat) {rest : List Char} (h : Ends rest) :
    value? (fuel + 1) ((Document.integer n).toJson.toList ++ rest) =
      some (number (Document.numeral n), rest) := by
  have hnumber := number?_toDigits (decide (n < 0)) n.natAbs h
  rw [toList_integer]
  by_cases hn : n < 0
  · rw [if_pos hn, List.cons_append, value?, skipBlank_cons (by decide)]
    simp only [decide_eq_true hn] at hnumber
    simp [hnumber, Document.numeral, hn]
  · rw [if_neg hn]
    obtain ⟨c, cs, hcs, hc⟩ := exists_toDigits n.natAbs
    rw [decide_eq_false hn, hcs, List.cons_append] at hnumber
    rw [hcs, List.cons_append, value?_digit hc, hnumber]
    simp [Document.numeral, hn, hcs]

/-- A written value begins with a sign that is not blank and closes no list. -/
theorem exists_toJson (d : Document) :
    ∃ c t, d.toJson.toList = c :: t ∧ isBlank c = false ∧ c ≠ ']' := by
  cases d with
  | null => simp [Document.toJson, isBlank]
  | boolean b => cases b <;> simp [Document.toJson, isBlank]
  | integer n =>
    rw [toList_integer]
    split
    · exact ⟨'-', _, rfl, by decide, by decide⟩
    · obtain ⟨c, cs, hcs, hc⟩ := exists_toDigits n.natAbs
      refine ⟨c, cs, hcs, isBlank_digit hc, ?_⟩
      intro h
      subst h
      cases hc
  | text s => simp [Document.toJson, toList_jsonString, isBlank]
  | sequence items => simp [Document.toJson, isBlank]
  | mapping fields => simp [Document.toJson, isBlank]

theorem jsonItems_singleton (d : Document) :
    (jsonItems true [d]).toList = d.toJson.toList := by
  simp [jsonItems]

theorem jsonItems_cons_cons (d d' : Document) (ds : List Document) :
    (jsonItems true (d :: d' :: ds)).toList =
      d.toJson.toList ++ ',' :: (jsonItems true (d' :: ds)).toList := by
  simp [jsonItems]

theorem jsonFields_singleton (k : String) (d : Document) :
    (jsonFields true [(k, d)]).toList =
      '"' :: (k.toList.flatMap jsonChar ++ '"' :: ':' :: d.toJson.toList) := by
  simp [jsonFields, toList_jsonString]

theorem jsonFields_cons_cons (k : String) (d : Document) (f : String × Document)
    (fs : List (String × Document)) :
    (jsonFields true ((k, d) :: f :: fs)).toList =
      '"' :: (k.toList.flatMap jsonChar ++
        '"' :: ':' :: (d.toJson.toList ++ ',' :: (jsonFields true (f :: fs)).toList)) := by
  obtain ⟨k', d'⟩ := f
  simp [jsonFields, toList_jsonString]

theorem exists_jsonItems (d : Document) (ds : List Document) :
    ∃ c t, (jsonItems true (d :: ds)).toList = c :: t ∧ isBlank c = false ∧ c ≠ ']' := by
  obtain ⟨c, t, ht, hc⟩ := exists_toJson d
  cases ds with
  | nil => exact ⟨c, t, by rw [jsonItems_singleton, ht], hc⟩
  | cons d' ds => exact ⟨c, _, by rw [jsonItems_cons_cons, ht, List.cons_append], hc⟩

theorem exists_jsonFields (f : String × Document) (fs : List (String × Document)) :
    ∃ t, (jsonFields true (f :: fs)).toList = '"' :: t := by
  obtain ⟨k, d⟩ := f
  cases fs with
  | nil => exact ⟨_, jsonFields_singleton k d⟩
  | cons f fs => exact ⟨_, jsonFields_cons_cons k d f fs⟩

theorem value?_text (s : String) (fuel : Nat) (rest : List Char) :
    value? (fuel + 1) ((Document.text s).toJson.toList ++ rest) = some (string (some s), rest) := by
  have htext : (Document.text s).toJson.toList ++ rest =
      '"' :: (s.toList.flatMap jsonChar ++ '"' :: rest) := by
    simp [Document.toJson, toList_jsonString]
  rw [htext, value?, skipBlank_cons (by decide)]
  simp [string?_flatMap]

theorem value?_null (fuel : Nat) (rest : List Char) :
    value? (fuel + 1) (Document.null.toJson.toList ++ rest) = some (null, rest) := by
  have hlength : "null".length = 4 := by decide
  simp [Document.toJson, value?, skipBlank, isBlank, literal?, hlength]

theorem value?_boolean (b : Bool) (fuel : Nat) (rest : List Char) :
    value? (fuel + 1) ((Document.boolean b).toJson.toList ++ rest) = some (boolean b, rest) := by
  have htrue : "true".length = 4 := by decide
  have hfalse : "false".length = 5 := by decide
  cases b <;> simp [Document.toJson, value?, skipBlank, isBlank, literal?, htrue, hfalse]

/-- With this fuel, values and what stands in lists and objects are read as they are written. -/
structure ReadsBack (fuel : Nat) : Prop where
  value (d : Document) (rest : List Char) (hfuel : d.toJson.toList.length ≤ fuel)
    (hrest : Ends rest) : value? fuel (d.toJson.toList ++ rest) = some (d.asJson, rest)
  items (d : Document) (ds : List Document) (rest : List Char)
    (hfuel : (jsonItems true (d :: ds)).toList.length < fuel) :
    items? fuel ((jsonItems true (d :: ds)).toList ++ ']' :: rest) =
      some (Document.asItems (d :: ds), rest)
  members (f : String × Document) (fs : List (String × Document)) (rest : List Char)
    (hfuel : (jsonFields true (f :: fs)).toList.length < fuel) :
    members? fuel ((jsonFields true (f :: fs)).toList ++ '\x7d' :: rest) =
      some (Document.asMembers (f :: fs), rest)

section ReadsBack

variable {fuel : Nat} (h : ReadsBack fuel) (rest : List Char)
include h

theorem value?_sequence (ds : List Document)
    (hfuel : (Document.sequence ds).toJson.toList.length ≤ fuel + 1) :
    value? (fuel + 1) ((Document.sequence ds).toJson.toList ++ rest) =
      some (array (Document.asItems ds), rest) := by
  have htext : (Document.sequence ds).toJson.toList =
      '[' :: ((jsonItems true ds).toList ++ [']']) := by
    simp [Document.toJson]
  rw [htext, List.cons_append, List.append_assoc, value?, skipBlank_cons (by decide)]
  cases ds with
  | nil => simp [jsonItems, Document.asItems, skipBlank, isBlank]
  | cons d ds =>
    have hless : (jsonItems true (d :: ds)).toList.length < fuel := by
      simp only [htext, List.length_cons, List.length_append, List.length_nil] at hfuel
      omega
    have hitems := h.items d ds rest hless
    obtain ⟨c, t, ht, hblank, hclose⟩ := exists_jsonItems d ds
    rw [ht, List.cons_append] at hitems
    rw [ht]
    simp [skipBlank_cons hblank, hclose, hitems]

theorem value?_mapping (fs : List (String × Document))
    (hfuel : (Document.mapping fs).toJson.toList.length ≤ fuel + 1) :
    value? (fuel + 1) ((Document.mapping fs).toJson.toList ++ rest) =
      some (object (Document.asMembers fs), rest) := by
  have htext : (Document.mapping fs).toJson.toList =
      '\x7b' :: ((jsonFields true fs).toList ++ ['\x7d']) := by
    simp [Document.toJson]
  rw [htext, List.cons_append, List.append_assoc, value?, skipBlank_cons (by decide)]
  cases fs with
  | nil => simp [jsonFields, Document.asMembers, skipBlank, isBlank]
  | cons f fs =>
    have hless : (jsonFields true (f :: fs)).toList.length < fuel := by
      simp only [htext, List.length_cons, List.length_append, List.length_nil] at hfuel
      omega
    have hmembers := h.members f fs rest hless
    obtain ⟨t, ht⟩ := exists_jsonFields f fs
    rw [ht, List.cons_append] at hmembers
    rw [ht]
    simp [skipBlank, isBlank, hmembers]

theorem items?_cons (d : Document) (ds : List Document)
    (hfuel : (jsonItems true (d :: ds)).toList.length < fuel + 1) :
    items? (fuel + 1) ((jsonItems true (d :: ds)).toList ++ ']' :: rest) =
      some (Document.asItems (d :: ds), rest) := by
  cases ds with
  | nil =>
    rw [jsonItems_singleton] at hfuel ⊢
    have hvalue := h.value d (']' :: rest) (by omega) (ends_cons (by simp) rest)
    simp [items?, hvalue, skipBlank, isBlank, Document.asItems]
  | cons d' ds =>
    rw [jsonItems_cons_cons] at hfuel ⊢
    simp only [List.length_append, List.length_cons] at hfuel
    have hvalue := h.value d (',' :: ((jsonItems true (d' :: ds)).toList ++ ']' :: rest))
      (by omega) (ends_cons (by simp) _)
    have hitems := h.items d' ds rest (by omega)
    rw [List.append_assoc, List.cons_append, items?, hvalue]
    simp [skipBlank, isBlank, hitems, Document.asItems]

theorem members?_cons (f : String × Document) (fs : List (String × Document))
    (hfuel : (jsonFields true (f :: fs)).toList.length < fuel + 1) :
    members? (fuel + 1) ((jsonFields true (f :: fs)).toList ++ '\x7d' :: rest) =
      some (Document.asMembers (f :: fs), rest) := by
  obtain ⟨k, d⟩ := f
  cases fs with
  | nil =>
    rw [jsonFields_singleton] at hfuel ⊢
    simp only [List.length_append, List.length_cons] at hfuel
    have hvalue := h.value d ('\x7d' :: rest) (by omega) (ends_cons (by simp) rest)
    simp [members?, string?_flatMap, hvalue, skipBlank, isBlank, Document.asMembers]
  | cons f fs =>
    rw [jsonFields_cons_cons] at hfuel ⊢
    simp only [List.length_append, List.length_cons] at hfuel
    have hvalue := h.value d (',' :: ((jsonFields true (f :: fs)).toList ++ '\x7d' :: rest))
      (by omega) (ends_cons (by simp) _)
    have hmembers := h.members f fs rest (by omega)
    simp [members?, string?_flatMap, hvalue, hmembers, skipBlank, isBlank, Document.asMembers]

end ReadsBack

/-- The induction is on the fuel, since each part of a value is read with less of it. -/
theorem readsBack (fuel : Nat) : ReadsBack fuel := by
  induction fuel with
  | zero =>
    refine ⟨fun d rest hfuel _ => ?_, fun d ds rest hfuel => ?_, fun f fs rest hfuel => ?_⟩
    · obtain ⟨c, t, ht, -, -⟩ := exists_toJson d
      simp [ht] at hfuel
    · exact absurd hfuel (Nat.not_lt_zero _)
    · exact absurd hfuel (Nat.not_lt_zero _)
  | succ fuel ih =>
    refine ⟨fun d rest hfuel hrest => ?_, fun d ds rest hfuel => items?_cons ih rest d ds hfuel,
      fun f fs rest hfuel => members?_cons ih rest f fs hfuel⟩
    cases d with
    | null => exact value?_null fuel rest
    | boolean b => exact value?_boolean b fuel rest
    | integer n => exact value?_integer n fuel hrest
    | text s => exact value?_text s fuel rest
    | sequence ds => exact value?_sequence ih rest ds hfuel
    | mapping fs => exact value?_mapping ih rest fs hfuel

/-- Every document is read as it was written. -/
theorem parse_toJson (d : Document) : parse d.toJson = some d.asJson := by
  have hvalue :=
    (readsBack (d.toJson.toList.length + 1)).value d [] (Nat.le_succ _) ends_nil
  rw [List.append_nil] at hvalue
  rw [parse, hvalue]
  rfl

end Json

end Reachability
