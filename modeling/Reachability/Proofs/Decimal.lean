import Mathlib.Data.List.Basic
import Mathlib.Data.List.TakeWhile
import Reachability.Decimal.Integer
import Reachability.Proofs.Json

namespace Reachability

/-- What holds of the first 128 characters holds of each of them. -/
theorem Text.forall_ascii {P : Char → Prop} (h : ∀ n < 128, P (Char.ofNat n)) {c : Char}
    (hc : c.toNat < 128) : P c := by
  have hp := h c.toNat hc
  rwa [Char.ofNat_toNat] at hp

namespace Decimal

theorem toNat_digit {c : Char} (h : c.isDigit = true) : 48 ≤ c.toNat ∧ c.toNat ≤ 57 := by
  simpa [Char.isDigit, UInt32.le_iff_toNat_le] using h

theorem digitChar_value {c : Char} (h : c.isDigit = true) :
    Nat.digitChar (c.toNat - '0'.toNat) = c := by
  obtain ⟨hlow, hhigh⟩ := toNat_digit h
  have hzero : '0'.toNat = 48 := rfl
  apply Char.toNat_inj.1
  rw [Nat.toNat_digitChar_of_lt_ten (by omega)]
  omega

/-- Digits that follow those of a number other than zero are kept as they are. -/
theorem toDigits_append {ds : List Char} (hds : ∀ c ∈ ds, c.isDigit = true) {n : Nat}
    (hn : 0 < n) : Nat.toDigits 10 n ++ ds =
      Nat.toDigits 10 (ds.foldl (fun n c => n * 10 + (c.toNat - '0'.toNat)) n) := by
  induction ds generalizing n with
  | nil => simp
  | cons c ds ih =>
    obtain ⟨hc, hds⟩ := List.forall_mem_cons.1 hds
    obtain ⟨hlow, hhigh⟩ := toNat_digit hc
    have hzero : '0'.toNat = 48 := rfl
    have hvalue : c.toNat - '0'.toNat < 10 := by omega
    have hlast : Nat.toDigits 10 n ++ [c] = Nat.toDigits 10 (n * 10 + (c.toNat - '0'.toNat)) := by
      have happend := Nat.toDigits_append_toDigits (b := 10) (n := n) (by decide) hn hvalue
      rw [Nat.toDigits_of_lt_base hvalue, digitChar_value hc] at happend
      rw [happend, Nat.mul_comm]
    calc Nat.toDigits 10 n ++ c :: ds
        = (Nat.toDigits 10 n ++ [c]) ++ ds := by simp
      _ = Nat.toDigits 10 (n * 10 + (c.toNat - '0'.toNat)) ++ ds := by rw [hlast]
      _ = _ := ih hds (by omega)

/-- Digits are those of their value if and only if no zero stands before them. -/
theorem toDigits_digitsValue_iff {ds : List Char} (hds : ∀ c ∈ ds, c.isDigit = true)
    (hne : ds ≠ []) :
    Nat.toDigits 10 (digitsValue ds) = ds ↔ (ds.head? = some '0' → ds = ['0']) := by
  obtain ⟨c, rest, rfl⟩ := List.exists_cons_of_ne_nil hne
  obtain ⟨hc, hrest⟩ := List.forall_mem_cons.1 hds
  constructor
  · intro hsame hzero
    by_cases hvalue : digitsValue (c :: rest) = 0
    · rw [hvalue] at hsame
      exact hsame.symm
    · rw [← hsame] at hzero
      exact absurd hzero (Json.head?_toDigits hvalue)
  · intro hlead
    by_cases hzero : c = '0'
    · rw [hlead (by rw [hzero]; rfl)]
      rfl
    · obtain ⟨hlow, hhigh⟩ := toNat_digit hc
      have hcode : c.toNat ≠ '0'.toNat := fun heq => hzero (Char.toNat_inj.1 heq)
      have hpos : 0 < c.toNat - '0'.toNat := by
        have hzero : '0'.toNat = 48 := rfl
        omega
      have hlt : c.toNat - '0'.toNat < 10 := by
        have hzero : '0'.toNat = 48 := rfl
        omega
      have hvalue : digitsValue (c :: rest) =
          rest.foldl (fun n c => n * 10 + (c.toNat - '0'.toNat)) (c.toNat - '0'.toNat) := by
        simp [digitsValue]
      rw [hvalue, ← toDigits_append hrest hpos, Nat.toDigits_of_lt_base hlt, digitChar_value hc]
      rfl

/-- Digits with an optional sign, and the integer that they stand for. -/
def SpellsInteger (s : List Char) (n : Int) : Prop :=
  ∃ digits, digits ≠ [] ∧ (∀ c ∈ digits, c.isDigit = true) ∧
    ((s = digits ∨ s = '+' :: digits) ∧ n = digitsValue digits ∨
      s = '-' :: digits ∧ n = -(digitsValue digits : Int))

/-- Digits that no zero stands before, behind a minus or no sign, and no minus before zero. -/
def IsProper (s : List Char) : Prop :=
  ∃ digits, digits ≠ [] ∧ (∀ c ∈ digits, c.isDigit = true) ∧
    (digits.head? = some '0' → digits = ['0']) ∧ (s = digits ∨ s = '-' :: digits ∧ digits ≠ ['0'])

theorem sign_of_head {s : List Char} (hminus : s.head? ≠ some '-') (hplus : s.head? ≠ some '+') :
    sign s = (false, s) := by
  unfold sign
  split
  · exact absurd rfl hminus
  · exact absurd rfl hplus
  · rfl

theorem spellsInteger_iff {s : List Char} {n : Int} : SpellsInteger s n ↔
    (sign s).2 ≠ [] ∧ (∀ c ∈ (sign s).2, c.isDigit = true) ∧
      n = if (sign s).1 then -(digitsValue (sign s).2 : Int) else digitsValue (sign s).2 := by
  have hdigits {ds : List Char} (hds : ∀ c ∈ ds, c.isDigit = true) : sign ds = (false, ds) := by
    refine sign_of_head (fun hminus => ?_) (fun hplus => ?_)
    · exact absurd (hds '-' (List.mem_of_mem_head? hminus)) (by decide)
    · exact absurd (hds '+' (List.mem_of_mem_head? hplus)) (by decide)
  constructor
  · rintro ⟨ds, hne, hds, ⟨rfl | rfl, hn⟩ | ⟨rfl, hn⟩⟩
    · rw [hdigits hds]
      exact ⟨hne, hds, hn⟩
    · exact ⟨hne, hds, hn⟩
    · exact ⟨hne, hds, hn⟩
  · rintro ⟨hne, hds, hn⟩
    refine ⟨(sign s).2, hne, hds, ?_⟩
    by_cases hminus : ∃ rest, s = '-' :: rest
    · obtain ⟨rest, rfl⟩ := hminus
      exact .inr ⟨rfl, hn⟩
    · by_cases hplus : ∃ rest, s = '+' :: rest
      · obtain ⟨rest, rfl⟩ := hplus
        exact .inl ⟨.inr rfl, hn⟩
      · have hsign : sign s = (false, s) := by
          refine sign_of_head (fun hhead => hminus ?_) (fun hhead => hplus ?_)
          · exact ⟨s.tail, (List.cons_head?_tail hhead).symm⟩
          · exact ⟨s.tail, (List.cons_head?_tail hhead).symm⟩
        rw [hsign] at hn ⊢
        exact .inl ⟨.inl rfl, hn⟩

theorem integer64?_eq_some_iff {s : String} {n : Int} :
    integer64? s = some n ↔ SpellsInteger s.toList n ∧ isInteger64 n = true := by
  rw [spellsInteger_iff]
  simp only [integer64?]
  generalize (if (sign s.toList).1 = true then -(digitsValue (sign s.toList).2 : Int)
    else (digitsValue (sign s.toList).2 : Int)) = v
  constructor
  · intro h
    split at h
    next => cases h
    next hgood =>
      simp only [List.isEmpty_iff, Bool.not_eq_true', Bool.not_eq_false, not_or,
        List.all_eq_true] at hgood
      split at h
      next hrange =>
        obtain rfl := Option.some.inj h
        exact ⟨⟨hgood.1, hgood.2, rfl⟩, hrange⟩
      next => cases h
  · rintro ⟨⟨hne, hds, rfl⟩, hrange⟩
    have hgood : ¬ ((sign s.toList).2.isEmpty = true ∨
        (!(sign s.toList).2.all Char.isDigit) = true) := by
      simpa [List.isEmpty_iff, List.all_eq_true] using ⟨hne, hds⟩
    rw [if_neg hgood, if_pos hrange]

theorem SpellsInteger.exists_digit {s : List Char} {n : Int} (h : SpellsInteger s n) :
    ∃ c ∈ s, c.isDigit = true := by
  obtain ⟨ds, hne, hds, hs⟩ := h
  obtain ⟨c, rest, rfl⟩ := List.exists_cons_of_ne_nil hne
  refine ⟨c, ?_, hds c List.mem_cons_self⟩
  obtain ⟨rfl | rfl, -⟩ | ⟨rfl, -⟩ := hs <;> simp

theorem toList_toString (n : Int) : (toString n).toList =
    if n < 0 then '-' :: Nat.toDigits 10 n.natAbs else Nat.toDigits 10 n.natAbs :=
  Json.toList_integer n

theorem isProper_toString (n : Int) : IsProper (toString n).toList := by
  have hds := Json.isDigit_of_mem_toDigits (n := n.natAbs)
  have hvalue := Json.digitsValue_toDigits n.natAbs
  refine ⟨Nat.toDigits 10 n.natAbs, Nat.toDigits_ne_nil, hds, ?_, ?_⟩
  · exact (toDigits_digitsValue_iff hds Nat.toDigits_ne_nil).1 (by rw [hvalue])
  · rw [toList_toString]
    by_cases hn : n < 0
    · refine .inr ⟨if_pos hn, fun hzero => ?_⟩
      rw [hzero] at hvalue
      have habs : n.natAbs = 0 := hvalue.symm
      omega
    · exact .inl (if_neg hn)

/-- A spelling of an integer is the integer's own text just if it has no plus, no leading zeros and
no minus before zero. -/
theorem toString_eq_iff_isProper {s : String} {n : Int} (h : SpellsInteger s.toList n) :
    toString n = s ↔ IsProper s.toList := by
  constructor
  · rintro rfl
    exact isProper_toString n
  · rintro ⟨ds, hne, hds, hlead, hs⟩
    have htext := (toDigits_digitsValue_iff hds hne).2 hlead
    obtain ⟨-, -, hn⟩ := spellsInteger_iff.1 h
    apply String.toList_injective
    rw [toList_toString]
    obtain hs | ⟨hs, hnonzero⟩ := hs
    · have hsign : sign ds = (false, ds) := by
        refine sign_of_head (fun hminus => ?_) (fun hplus => ?_)
        · exact absurd (hds '-' (List.mem_of_mem_head? hminus)) (by decide)
        · exact absurd (hds '+' (List.mem_of_mem_head? hplus)) (by decide)
      rw [hs, hsign] at hn
      have hnonneg : ¬ n < 0 := by
        simp only [Bool.false_eq_true, if_false] at hn
        omega
      have habs : n.natAbs = digitsValue ds := by
        simp only [Bool.false_eq_true, if_false] at hn
        omega
      rw [if_neg hnonneg, habs, htext, hs]
    · rw [hs] at hn
      change n = -(digitsValue ds : Int) at hn
      have hpos : digitsValue ds ≠ 0 := by
        intro hzero
        rw [hzero] at htext
        exact hnonzero htext.symm
      rw [if_pos (by omega), show n.natAbs = digitsValue ds by omega, htext, hs]

/-- The characters of numbers in decimal notation. -/
def isNumeric (c : Char) : Bool := c.isDigit || ['+', '-', '.', 'e', 'E'].contains c

theorem isNumeric_of_isDigit {c : Char} (h : c.isDigit = true) : isNumeric c = true := by
  simp [isNumeric, h]

/-- The sign is a character of numbers, so every other character stands behind it. -/
theorem mem_sign {s : List Char} {c : Char} (hc : c ∈ s) (h : isNumeric c = false) :
    c ∈ (sign s).2 := by
  have hsign : ∀ d rest, c ∈ d :: rest → isNumeric d = true → c ∈ rest := by
    intro d rest hmem hd
    obtain rfl | hmem := List.mem_cons.1 hmem
    · rw [h] at hd
      cases hd
    · exact hmem
  unfold sign
  split
  next rest => exact hsign '-' rest hc (by decide)
  next rest => exact hsign '+' rest hc (by decide)
  next => exact hc

theorem isNumeric_of_sign {s : List Char} (h : ∀ c ∈ (sign s).2, isNumeric c = true) :
    ∀ c ∈ s, isNumeric c = true := by
  unfold sign at h
  split at h
  next rest => exact List.forall_mem_cons.2 ⟨by decide, h⟩
  next rest => exact List.forall_mem_cons.2 ⟨by decide, h⟩
  next => exact h

theorem isNumeric_of_exponent? {s : List Char} {e : Int} (h : exponent? s = some e) :
    ∀ c ∈ s, isNumeric c = true := by
  cases s with
  | nil => exact List.forall_mem_nil _
  | cons c rest =>
    simp only [exponent?] at h
    split at h
    next hletter =>
      split at h
      next => cases h
      next hgood =>
        simp only [List.isEmpty_iff, Bool.not_eq_true', Bool.not_eq_false, not_or,
          List.all_eq_true] at hgood
        refine List.forall_mem_cons.2 ⟨?_, isNumeric_of_sign fun d hd => ?_⟩
        · obtain rfl | rfl := hletter <;> decide
        · exact isNumeric_of_isDigit (hgood.2 d hd)
    next => cases h

/-- What is read as a number without its sign has characters of numbers only. -/
theorem isNumeric_of_unsigned? {negative : Bool} {s : List Char} {d : Decimal}
    (h : unsigned? negative s = some d) : ∀ c ∈ s, isNumeric c = true := by
  have hwhole : ∀ t : List Char, ∀ c ∈ t.takeWhile Char.isDigit, isNumeric c = true :=
    fun t c hc => isNumeric_of_isDigit (List.mem_takeWhile_imp hc)
  rw [← List.takeWhile_append_dropWhile (p := Char.isDigit) (l := s)]
  refine List.forall_mem_append.2 ⟨hwhole s, ?_⟩
  have hexponent {b : Prop} [Decidable b] {t : List Char} {f : Int → Decimal}
      (h : (if b then none else (exponent? t).map f) = some d) : ∀ c ∈ t, isNumeric c = true := by
    split at h
    next => cases h
    next =>
      obtain ⟨e, he, -⟩ := Option.map_eq_some_iff.1 h
      exact isNumeric_of_exponent? he
  simp only [unsigned?] at h
  split at h
  next rest hpoint =>
    rw [hpoint, ← List.takeWhile_append_dropWhile (p := Char.isDigit) (l := rest)]
    exact List.forall_mem_cons.2
      ⟨by decide, List.forall_mem_append.2 ⟨hwhole rest, hexponent h⟩⟩
  next => exact hexponent h

end Decimal

end Reachability
