import Mathlib.Data.List.Basic
import Mathlib.Data.List.TakeWhile
import Reachability.Address
import Reachability.Proofs.Decimal

namespace Reachability.Address

variable {s rest : List Char}

theorem valueOf_ten {ds : List Char} (hds : ∀ c ∈ ds, c.isDigit = true) :
    valueOf 10 ds = Decimal.digitsValue ds := by
  unfold valueOf Decimal.digitsValue
  refine List.foldl_ext _ _ _ fun n c hc => ?_
  rw [digitValue, if_pos (hds c hc)]

/-- An octet is written without leading zeros. -/
theorem eq_of_octet? {v : Nat} (h : octet? s = some (v, rest)) : s = Nat.toDigits 10 v ++ rest := by
  have hds : ∀ c ∈ s.takeWhile Char.isDigit, c.isDigit = true :=
    fun c hc => List.mem_takeWhile_imp hc
  simp only [octet?] at h
  split at h
  next => cases h
  next hgood =>
    simp only [Bool.or_eq_true, Bool.and_eq_true, List.isEmpty_iff, decide_eq_true_eq, beq_iff_eq,
      not_or, not_and] at hgood
    obtain ⟨⟨⟨hne, -⟩, hlead⟩, -⟩ := hgood
    obtain ⟨rfl, rfl⟩ := Prod.mk.inj (Option.some.inj h)
    have hone : (s.takeWhile Char.isDigit).head? = some '0' →
        s.takeWhile Char.isDigit = ['0'] := by
      intro hzero
      obtain ⟨c, ds, hcons⟩ := List.exists_cons_of_ne_nil hne
      have hlength := hlead hzero
      rw [hcons] at hzero hlength ⊢
      obtain rfl := Option.some.inj hzero
      have hds : ds.length = 0 := by
        simp only [List.length_cons] at hlength
        omega
      rw [List.length_eq_zero_iff.1 hds]
    rw [valueOf_ten hds, (Decimal.toDigits_digitsValue_iff hds hne).2 hone,
      List.takeWhile_append_dropWhile]

theorem eq_of_expect? {c : Char} (h : expect? c s = some rest) : s = c :: rest := by
  cases s with
  | nil => cases h
  | cons d s =>
    rw [expect?] at h
    split at h
    next hd => rw [hd, Option.some.inj h]
    next => cases h

/-- Four numbers with points between them. -/
def dotted (octets : List Nat) : List Char := ['.'].intercalate (octets.map (Nat.toDigits 10))

theorem eq_of_quad? {octets : List Nat} (h : quad? s = some (octets, rest)) :
    s = dotted octets ++ rest := by
  unfold quad? at h
  obtain ⟨⟨a, s₁⟩, ha, h⟩ := Option.bind_eq_some_iff.1 h
  obtain ⟨t₁, hpoint₁, h⟩ := Option.bind_eq_some_iff.1 h
  obtain ⟨⟨b, s₂⟩, hb, h⟩ := Option.bind_eq_some_iff.1 h
  obtain ⟨t₂, hpoint₂, h⟩ := Option.bind_eq_some_iff.1 h
  obtain ⟨⟨c, s₃⟩, hc, h⟩ := Option.bind_eq_some_iff.1 h
  obtain ⟨t₃, hpoint₃, h⟩ := Option.bind_eq_some_iff.1 h
  obtain ⟨⟨d, s₄⟩, hd, h⟩ := Option.bind_eq_some_iff.1 h
  obtain ⟨rfl, rfl⟩ := Prod.mk.inj (Option.some.inj h)
  rw [eq_of_octet? ha, eq_of_expect? hpoint₁, eq_of_octet? hb, eq_of_expect? hpoint₂,
    eq_of_octet? hc, eq_of_expect? hpoint₃, eq_of_octet? hd]
  simp [dotted, List.intercalate, List.intersperse]

theorem toList_of_ofString?_v4 {ip : String} {octets : List Nat}
    (h : ofString? ip = some (.v4 octets)) : ip.toList = dotted octets := by
  unfold ofString? ofChars? at h
  split at h
  next octets' hquad =>
    cases h
    simpa using eq_of_quad? hquad
  next => cases h
  next => split at h <;> cases h

/-- An IPv4 address has one spelling. -/
theorem eq_of_ofString?_v4 {ip ip' : String} {octets : List Nat}
    (h : ofString? ip = some (.v4 octets)) (h' : ofString? ip' = some (.v4 octets)) : ip = ip' := by
  apply String.toList_injective
  rw [toList_of_ofString?_v4 h, toList_of_ofString?_v4 h']

/-- What holds of the first 128 characters, and of each that is its own lower case, holds of all. -/
theorem forall_char {P : Char → Prop} (hascii : ∀ n < 128, P (Char.ofNat n))
    (hsame : ∀ c : Char, c.toLower = c → P c) (c : Char) : P c := by
  by_cases hc : c.toNat < 128
  · exact Text.forall_ascii hascii hc
  · refine hsame c (dif_neg fun hcapital => hc ?_)
    have hle : c.toNat ≤ 90 := hcapital.2
    omega

theorem isDigit_toLower : ∀ c : Char, c.toLower.isDigit = c.isDigit :=
  forall_char (by decide +kernel) fun c hc => by rw [hc]

theorem toLower_of_isDigit : ∀ c : Char, c.isDigit = true → c.toLower = c :=
  forall_char (by decide +kernel) fun _ hc _ => hc

theorem isHexDigit_toLower : ∀ c : Char, isHexDigit c.toLower = isHexDigit c :=
  forall_char (by decide +kernel) fun c hc => by rw [hc]

theorem digitValue_toLower :
    ∀ c : Char, isHexDigit c = true → digitValue c.toLower = digitValue c :=
  forall_char (by decide +kernel) fun c hc _ => by rw [hc]

theorem toLower_eq_point : ∀ c : Char, c.toLower = '.' ↔ c = '.' :=
  forall_char (by decide +kernel) fun c hc => by rw [hc]

theorem toLower_eq_colon : ∀ c : Char, c.toLower = ':' ↔ c = ':' :=
  forall_char (by decide +kernel) fun c hc => by rw [hc]

/-- The rest of a text that is read, with its letters in lower case. -/
def lowerRest (r : α × List Char) : α × List Char := (r.1, r.2.map Char.toLower)

theorem octet?_lower (s : List Char) :
    octet? (s.map Char.toLower) = (octet? s).map lowerRest := by
  have htest : Char.isDigit ∘ Char.toLower = Char.isDigit := funext isDigit_toLower
  have hdigits : (s.map Char.toLower).takeWhile Char.isDigit = s.takeWhile Char.isDigit := by
    rw [List.takeWhile_map, htest]
    exact (List.map_congr_left fun c hc =>
      toLower_of_isDigit c (List.mem_takeWhile_imp hc)).trans (List.map_id _)
  have hrest : (s.map Char.toLower).dropWhile Char.isDigit =
      (s.dropWhile Char.isDigit).map Char.toLower := by
    rw [List.dropWhile_map, htest]
  simp only [octet?, hdigits, hrest]
  split <;> rfl

theorem valueOf_lower {ds : List Char} (hds : ∀ c ∈ ds, isHexDigit c = true) :
    valueOf 16 (ds.map Char.toLower) = valueOf 16 ds := by
  unfold valueOf
  rw [List.foldl_map]
  refine List.foldl_ext _ _ _ fun n c hc => ?_
  rw [digitValue_toLower c (hds c hc)]

theorem group?_lower (s : List Char) :
    group? (s.map Char.toLower) = (group? s).map lowerRest := by
  have htest : isHexDigit ∘ Char.toLower = isHexDigit := funext isHexDigit_toLower
  have hdigits : (s.map Char.toLower).takeWhile isHexDigit =
      (s.takeWhile isHexDigit).map Char.toLower := by
    rw [List.takeWhile_map, htest]
  have hrest : (s.map Char.toLower).dropWhile isHexDigit =
      (s.dropWhile isHexDigit).map Char.toLower := by
    rw [List.dropWhile_map, htest]
  have hvalue : valueOf 16 ((s.takeWhile isHexDigit).map Char.toLower) =
      valueOf 16 (s.takeWhile isHexDigit) :=
    valueOf_lower fun c hc => List.mem_takeWhile_imp hc
  simp only [group?, hdigits, hrest, hvalue, List.isEmpty_map, List.length_map]
  split <;> rfl

theorem expect?_lower {d : Char} (hd : ∀ c : Char, c.toLower = d ↔ c = d) (s : List Char) :
    expect? d (s.map Char.toLower) = (expect? d s).map (·.map Char.toLower) := by
  cases s with
  | nil => rfl
  | cons c s =>
    simp only [List.map_cons, expect?, hd c]
    split <;> rfl

theorem quad?_lower (s : List Char) : quad? (s.map Char.toLower) = (quad? s).map lowerRest := by
  have hpoint := expect?_lower toLower_eq_point
  simp [quad?, octet?_lower, hpoint, lowerRest, Option.bind_map, Option.map_bind,
    Function.comp_def]

theorem groups_lower (room : Nat) (first : Bool) (s : List Char) :
    groups room first (s.map Char.toLower) =
      ((groups room first s).1, lowerRest (groups room first s).2) := by
  have hcolon := expect?_lower toLower_eq_colon
  induction room generalizing first s with
  | zero => rfl
  | succ room ih =>
    have hstart : (if first then some (s.map Char.toLower)
        else expect? ':' (s.map Char.toLower)) =
        (if first then some s else expect? ':' s).map (·.map Char.toLower) := by
      cases first with
      | true => rfl
      | false => exact hcolon s
    rw [groups, groups, hstart]
    cases (if first then some s else expect? ':' s) with
    | none => rfl
    | some t =>
      have hquad : (if room = 0 then none else quad? (t.map Char.toLower)) =
          (if room = 0 then none else quad? t).map lowerRest := by
        by_cases hroom : room = 0
        · rw [if_pos hroom, if_pos hroom]
          rfl
        · rw [if_neg hroom, if_neg hroom, quad?_lower]
      simp only [Option.map_some, hquad, group?_lower]
      rcases (if room = 0 then none else quad? t) with - | ⟨octets, rest⟩
      · cases group? t with
        | none => rfl
        | some g => simp [lowerRest, ih]
      · match octets with
        | [a, b, c, d] => rfl
        | [] | [_] | [_, _] | [_, _, _] | _ :: _ :: _ :: _ :: _ :: _ =>
          cases group? t with
          | none => rfl
          | some g => simp [lowerRest, ih]

theorem sixteenBytes?_lower (s : List Char) :
    sixteenBytes? (s.map Char.toLower) = (sixteenBytes? s).map lowerRest := by
  have hcolon := expect?_lower toLower_eq_colon
  unfold sixteenBytes?
  rw [groups_lower]
  obtain ⟨head, dotted, t⟩ := groups 8 true s
  simp only [lowerRest]
  by_cases hfull : head.length = 8
  · simp [hfull, lowerRest]
  · cases dotted with
    | true => simp [hfull]
    | false =>
      simp [hfull, hcolon, groups_lower, lowerRest, Option.bind_map, Option.map_bind,
        Function.comp_def]

theorem ofChars?_lower (s : List Char) : ofChars? (s.map Char.toLower) = ofChars? s := by
  unfold ofChars?
  rw [quad?_lower, sixteenBytes?_lower]
  rcases quad? s with - | ⟨octets, - | ⟨c, rest⟩⟩
  · rcases sixteenBytes? s with - | ⟨groups, - | ⟨c, rest⟩⟩ <;> rfl
  · rfl
  · rfl

/-- Texts that differ only in the case of letters spell the same address. -/
theorem ofString?_eq_of_lower_eq {ip ip' : String}
    (h : ip.toList.map Char.toLower = ip'.toList.map Char.toLower) :
    ofString? ip = ofString? ip' := by
  rw [ofString?, ofString?, ← ofChars?_lower, h, ofChars?_lower]

end Reachability.Address
