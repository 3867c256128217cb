import Mathlib.Algebra.Group.Nat.Defs
import Mathlib.Data.List.Infix
import Reachability.Identity

namespace Reachability

/-- A field of a line spells a number of 32 bits. -/
def SpellsIdentity (field : List Char) (n : Nat) : Prop :=
  ∃ digits, (field = digits ∨ field = '+' :: digits) ∧ digits ≠ [] ∧
    (∀ c ∈ digits, c.isDigit = true) ∧ Decimal.digitsValue digits = n ∧ n < 2 ^ 32

/-- A line carries an identity: what follows `identity=` in the first of its words that starts so is
a number of 32 bits. -/
def CarriesIdentity (line : String) (n : Nat) : Prop :=
  ∃ before field after,
    Text.words line.toList = before ++ ("identity=".toList ++ field) :: after ∧
      (∀ word ∈ before, ¬ "identity=".toList <+: word) ∧ SpellsIdentity field n

namespace IdentityCache

variable {c : IdentityCache}

/-- The entry for one address alone starts with a line that carries an identity. -/
def Identifies (c : IdentityCache) (ip : String) (n : Nat) : Prop :=
  ∃ range line rest,
    ((∃ octets, Address.ofString? ip = some (.v4 octets)) ∧ range = ip ++ "/32" ∨
      (∃ groups, Address.ofString? ip = some (.v6 groups)) ∧ range = ip ++ "/128") ∧
    c.entries.get? range = some (line :: rest) ∧ CarriesIdentity line n

theorem readIdentity?_eq_some_iff {field : List Char} {n : Nat} :
    readIdentity? field = some n ↔ SpellsIdentity field n := by
  have hdigits (digits : List Char) :
      (if digits.isEmpty ∨ !digits.all Char.isDigit ∨ Nat.pow 2 32 ≤ Decimal.digitsValue digits then
        none else some (Decimal.digitsValue digits)) = some n ↔
      digits ≠ [] ∧ (∀ c ∈ digits, c.isDigit = true) ∧ Decimal.digitsValue digits = n ∧
        n < 2 ^ 32 := by
    constructor
    · intro h
      split at h
      · cases h
      next hgood =>
        obtain rfl := Option.some.inj h
        simpa [List.isEmpty_iff, not_or] using hgood
    · rintro ⟨hne, hall, rfl, hlt⟩
      rw [if_neg]
      simpa [List.isEmpty_iff, not_or] using ⟨hne, hall, hlt⟩
  unfold SpellsIdentity
  by_cases hplus : ∃ rest, field = '+' :: rest
  · obtain ⟨rest, rfl⟩ := hplus
    refine (hdigits rest).trans ⟨fun h => ⟨rest, .inr rfl, h⟩, ?_⟩
    rintro ⟨digits, rfl | h, hdigits⟩
    · exact absurd (hdigits.2.1 '+' List.mem_cons_self) (by decide)
    · obtain rfl := (List.cons.inj h).2
      exact hdigits
  · have hread : readIdentity? field = if field.isEmpty ∨ !field.all Char.isDigit ∨
        Nat.pow 2 32 ≤ Decimal.digitsValue field then none
        else some (Decimal.digitsValue field) := by
      unfold readIdentity?
      split
      next rest => exact absurd ⟨rest, rfl⟩ hplus
      next => rfl
    rw [hread]
    refine (hdigits field).trans ⟨fun h => ⟨field, .inl rfl, h⟩, ?_⟩
    rintro ⟨digits, rfl | h, hdigits⟩
    · exact hdigits
    · exact absurd ⟨digits, h⟩ hplus

theorem identityField?_eq_some_iff {line field : List Char} :
    identityField? line = some field ↔ ∃ before after,
      Text.words line = before ++ ("identity=".toList ++ field) :: after ∧
        ∀ word ∈ before, ¬ "identity=".toList <+: word := by
  have hnone (word : List Char) :
      "identity=".toList.isPrefixOf? word = none ↔ ¬ "identity=".toList <+: word := by
    rw [← List.isPrefixOf_iff_prefix, ← List.isSome_isPrefixOf?_eq_isPrefixOf]
    exact Option.not_isSome_iff_eq_none.symm
  rw [identityField?, List.findSome?_eq_some_iff]
  simp only [List.isPrefixOf?_eq_some_iff_append_eq, hnone]
  constructor
  · rintro ⟨before, _, after, hwords, rfl, hbefore⟩
    exact ⟨before, after, hwords, hbefore⟩
  · rintro ⟨before, after, hwords, hbefore⟩
    exact ⟨before, _, after, hwords, rfl, hbefore⟩

theorem carriesIdentity_iff {line : String} {n : Nat} : CarriesIdentity line n ↔
    ∃ field, identityField? line.toList = some field ∧ readIdentity? field = some n := by
  simp only [identityField?_eq_some_iff, readIdentity?_eq_some_iff]
  constructor
  · rintro ⟨before, field, after, hwords, hbefore, hspells⟩
    exact ⟨field, ⟨before, after, hwords, hbefore⟩, hspells⟩
  · rintro ⟨field, ⟨before, after, hwords, hbefore⟩, hspells⟩
    exact ⟨before, field, after, hwords, hbefore, hspells⟩

theorem eq_rangeOf_iff {ip range : String} {address : Address} : range = rangeOf ip address ↔
    (∃ octets, address = .v4 octets) ∧ range = ip ++ "/32" ∨
      (∃ groups, address = .v6 groups) ∧ range = ip ++ "/128" := by
  have hbits : rangeOf ip address = ip ++ ("/" ++ toString address.bits) := String.append_assoc ..
  rw [hbits]
  cases address with
  | v4 octets =>
    rw [show "/" ++ toString (Address.v4 octets).bits = "/32" from
      show "/" ++ toString 32 = "/32" by decide]
    simp
  | v6 groups =>
    rw [show "/" ++ toString (Address.v6 groups).bits = "/128" from
      show "/" ++ toString 128 = "/128" by decide]
    simp

/-- An address has an identity if and only if its entry starts with a line that carries it. -/
theorem identityOf_eq_ok_iff {ip : String} {n : Nat} :
    c.identityOf ip = .ok n ↔ c.Identifies ip n := by
  unfold identityOf Identifies
  cases haddress : Address.ofString? ip with
  | none => simp
  | some address =>
    simp only [Option.some.injEq, ← eq_rangeOf_iff, exists_and_left, exists_eq_left]
    rcases hentry : c.entries.get? (rangeOf ip address) with _ | _ | ⟨line, rest⟩
    · simp
    · simp
    · have hline : (∃ line' rest', some (line :: rest) = some (line' :: rest') ∧
          CarriesIdentity line' n) ↔ CarriesIdentity line n := by
        simp
      rw [hline, carriesIdentity_iff]
      cases hfield : identityField? line.toList with
      | none => simp [hfield]
      | some field => cases hread : readIdentity? field <;> simp [hfield, hread]

theorem forM_eq_ok_iff {ε γ : Type} {f : γ → Except ε Unit} {l : List γ} :
    l.forM f = .ok () ↔ ∀ a ∈ l, f a = .ok () := by
  induction l with
  | nil => exact iff_of_true rfl (List.forall_mem_nil _)
  | cons a l ih =>
    rw [List.forall_mem_cons, ← ih, show (a :: l).forM f = (f a >>= fun _ => l.forM f) from rfl]
    cases f a with
    | error e => exact iff_of_false nofun fun h => nomatch h.1
    | ok u => exact (and_iff_right rfl).symm

theorem mapM_ok_iff {ε γ δ : Type} {f : γ → Except ε δ} {l : List γ} :
    (∃ out, l.mapM f = .ok out) ↔ ∀ a ∈ l, ∃ b, f a = .ok b := by
  induction l with
  | nil => exact iff_of_true ⟨[], rfl⟩ (List.forall_mem_nil _)
  | cons a l ih =>
    rw [List.forall_mem_cons, ← ih, List.mapM_cons]
    cases f a with
    | error e => exact iff_of_false nofun fun h => nomatch h.1
    | ok b =>
      cases l.mapM f with
      | error e => exact iff_of_false nofun fun h => nomatch h.2
      | ok rest => exact iff_of_true ⟨b :: rest, rfl⟩ ⟨⟨b, rfl⟩, rest, rfl⟩

theorem length_of_mapM_eq_ok {ε γ δ : Type} {f : γ → Except ε δ} {l : List γ} {out : List δ}
    (h : l.mapM f = .ok out) : out.length = l.length := by
  induction l generalizing out with
  | nil =>
    cases h
    rfl
  | cons a l ih =>
    rw [List.mapM_cons] at h
    cases hb : f a with
    | error e =>
      rw [hb] at h
      cases h
    | ok b =>
      rw [hb] at h
      cases hrest : l.mapM f with
      | error e =>
        rw [hrest] at h
        cases h
      | ok rest =>
        rw [hrest] at h
        cases h
        exact congrArg Nat.succ (ih hrest)

/-- A pod has an identity if and only if it has an address and each of its addresses has one. -/
theorem identityOfPod_ok_iff {p : Pod} :
    (∃ n, c.identityOfPod p = .ok n) ↔ p.ips ≠ [] ∧ ∀ ip ∈ p.ips, ∃ n, c.Identifies ip n := by
  simp only [← identityOf_eq_ok_iff, ← mapM_ok_iff]
  unfold identityOfPod
  cases hids : p.ips.mapM c.identityOf with
  | error e => simp [bind, Except.bind]
  | ok ids =>
    have hne : ids ≠ [] ↔ p.ips ≠ [] := by
      rw [← List.length_pos_iff, ← List.length_pos_iff, length_of_mapM_eq_ok hids]
    rw [and_iff_left ⟨ids, rfl⟩, ← hne, ← List.getLast?_isSome]
    simp only [bind, Except.bind]
    cases ids.getLast? with
    | none => simp
    | some n => simp

/-- A cache covers an inventory if and only if each tracked pod has an address and the cache has an
identity for each of its addresses. -/
theorem covers_eq_ok_iff {i : Inventory} : c.covers i = .ok () ↔
    ∀ pod ∈ i.clientPods.values ++ i.echoPods.values,
      pod.ips ≠ [] ∧ ∀ ip ∈ pod.ips, ∃ n, c.Identifies ip n := by
  unfold covers
  rw [forM_eq_ok_iff, Inventory.trackedPods, List.forall_mem_append, List.forall_mem_append,
    List.forall_mem_map, List.forall_mem_map]
  refine and_congr (forall₂_congr fun pod _ => ?_) (forall₂_congr fun pod _ => ?_)
  all_goals
    rw [← identityOfPod_ok_iff]
    dsimp only
    cases c.identityOfPod pod with
    | error why => simp
    | ok n => simp

end IdentityCache

end Reachability
