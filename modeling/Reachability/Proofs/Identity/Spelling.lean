import Reachability.Proofs.Address
import Reachability.Proofs.Identity

namespace Reachability.IdentityCache

variable {c : IdentityCache} {ip ip' : String} {address : Address}

/-- The cache has the same identity for both texts, or for neither. -/
def TreatsAlike (c : IdentityCache) (ip ip' : String) : Prop :=
  ∀ n, c.identityOf ip = .ok n ↔ c.identityOf ip' = .ok n

/-- No address has entries under two spellings. -/
def HasOneSpelling (c : IdentityCache) : Prop :=
  ∀ ip ip' address, Address.ofString? ip = some address → Address.ofString? ip' = some address →
    (c.entries.get? (rangeOf ip address)).isSome = true →
    (c.entries.get? (rangeOf ip' address)).isSome = true → ip = ip'

theorem rangeOf_inj : rangeOf ip address = rangeOf ip' address ↔ ip = ip' := by
  constructor
  · intro h
    have hlists := congrArg String.toList h
    simp only [rangeOf, String.toList_append, List.append_assoc] at hlists
    exact String.toList_injective (List.append_cancel_right hlists)
  · intro h
    rw [h]

/-- Without an entry under its own spelling an address has no identity. -/
theorem identityOf_of_get?_eq_none (haddress : Address.ofString? ip = some address)
    (hentry : c.entries.get? (rangeOf ip address) = none) :
    c.identityOf ip = .error (.noEntry (rangeOf ip address)) := by
  simp [identityOf, haddress, hentry]

theorem isSome_get?_of_identityOf (haddress : Address.ofString? ip = some address) {n : Nat}
    (h : c.identityOf ip = .ok n) : (c.entries.get? (rangeOf ip address)).isSome = true := by
  cases hentry : c.entries.get? (rangeOf ip address) with
  | none =>
    rw [identityOf_of_get?_eq_none haddress hentry] at h
    cases h
  | some entry => rfl

/-- A cache with one entry, which knows an address under this spelling. -/
def single (range : String) : IdentityCache := ⟨.insert ∅ range ["identity=1"]⟩

theorem get?_single (range other : String) :
    (single range).entries.get? other = if other = range then some ["identity=1"] else none := by
  rw [single, Dict.get?_insert]
  by_cases h : other = range
  · simp [h]
  · have hcompare : compare other range ≠ .eq := fun heq => h (Std.LawfulEqOrd.eq_of_compare heq)
    rw [if_neg hcompare, if_neg h, Dict.get?_empty]

theorem identityOf_single (haddress : Address.ofString? ip = some address) :
    (single (rangeOf ip address)).identityOf ip = .ok 1 := by
  have hfield : identityField? "identity=1".toList = some ['1'] := by decide +kernel
  have hread : readIdentity? ['1'] = some 1 := by decide +kernel
  simp only [identityOf, haddress, get?_single, if_pos, Option.bind_some, List.head?_cons, hfield,
    hread]

theorem hasOneSpelling_single (range : String) : (single range).HasOneSpelling := by
  intro ip ip' address _ _ hip hip'
  have hrange : ∀ other, ((single range).entries.get? other).isSome = true → other = range := by
    intro other hother
    by_contra hne
    rw [get?_single, if_neg hne] at hother
    cases hother
  exact rangeOf_inj.1 ((hrange _ hip).trans (hrange _ hip').symm)

/-- Let two texts spell the same address. If it is an IPv4 address, they are the same text. They are
interchangeable for every cache just if they are the same text: a cache that has one entry for each
address and knows this one under one spelling has no entry for it under another. Changing the case
of letters gives further spellings. -/
theorem identityOf_tells_spellings_apart (h : Address.ofString? ip = some address)
    (h' : Address.ofString? ip' = some address) :
    ((∃ octets, address = .v4 octets) → ip = ip') ∧
    ((∀ c : IdentityCache, c.TreatsAlike ip ip') ↔ ip = ip') ∧
    (∀ c : IdentityCache, c.HasOneSpelling → ip ≠ ip' → ∀ n, c.identityOf ip = .ok n →
      c.identityOf ip' = .error (.noEntry (rangeOf ip' address))) ∧
    ∀ other : String, other.toList.map Char.toLower = ip.toList.map Char.toLower →
      Address.ofString? other = some address := by
  have hunknown : ∀ c : IdentityCache, c.HasOneSpelling → ip ≠ ip' → ∀ n,
      c.identityOf ip = .ok n → c.identityOf ip' = .error (.noEntry (rangeOf ip' address)) := by
    intro c hone hne n hn
    have hentry := isSome_get?_of_identityOf h hn
    refine identityOf_of_get?_eq_none h' (Option.not_isSome_iff_eq_none.1 fun hother => ?_)
    exact hne (hone ip ip' address h h' hentry hother)
  refine ⟨?_, ⟨fun halike => ?_, fun heq c n => by rw [heq]⟩, hunknown, fun other hother => ?_⟩
  · rintro ⟨octets, rfl⟩
    exact Address.eq_of_ofString?_v4 h h'
  · by_contra hne
    have hknown := identityOf_single h
    have hother := hunknown _ (hasOneSpelling_single _) hne 1 hknown
    have hsame := (halike (single (rangeOf ip address)) 1).1 hknown
    rw [hother] at hsame
    cases hsame
  · rw [Address.ofString?_eq_of_lower_eq hother, h]

/-- Two spellings of an address, of which a cache knows one. -/
theorem upperCase_unknown :
    Address.ofString? "fd00::5" = some (.v6 [0xfd00, 0, 0, 0, 0, 0, 0, 5]) ∧
    Address.ofString? "FD00:0::0005" = some (.v6 [0xfd00, 0, 0, 0, 0, 0, 0, 5]) ∧
    (single "fd00::5/128").HasOneSpelling ∧ (single "fd00::5/128").identityOf "fd00::5" = .ok 1 ∧
    (single "fd00::5/128").identityOf "FD00:0::0005" = .error (.noEntry "FD00:0::0005/128") ∧
    Address.ofString? "Fd00::5" = some (.v6 [0xfd00, 0, 0, 0, 0, 0, 0, 5]) := by
  have hlower : Address.ofString? "fd00::5" = some (.v6 [0xfd00, 0, 0, 0, 0, 0, 0, 5]) := by
    decide +kernel
  have hupper : Address.ofString? "FD00:0::0005" = some (.v6 [0xfd00, 0, 0, 0, 0, 0, 0, 5]) := by
    decide +kernel
  have hone := hasOneSpelling_single "fd00::5/128"
  have hknown : (single "fd00::5/128").identityOf "fd00::5" = .ok 1 := by decide +kernel
  obtain ⟨-, -, hunknown, hcases⟩ := identityOf_tells_spellings_apart hlower hupper
  exact ⟨hlower, hupper, hone, hknown, hunknown _ hone (by decide) 1 hknown,
    hcases "Fd00::5" (by decide +kernel)⟩

/-- The cache knows an address that it is asked for, and does not find it. -/
theorem upperCase_not_treatedAlike :
    Address.ofString? "FD00::5" = Address.ofString? "fd00::5" ∧
    (Address.ofString? "fd00::5").isSome = true ∧
    ¬ (single "fd00::5/128").TreatsAlike "fd00::5" "FD00::5" := by
  have hknown : (single "fd00::5/128").identityOf "fd00::5" = .ok 1 := by decide +kernel
  have hunknown : (single "fd00::5/128").identityOf "FD00::5" =
      .error (.noEntry "FD00::5/128") := by decide +kernel
  refine ⟨by decide +kernel, by decide +kernel, fun halike => ?_⟩
  have hsame := (halike 1).1 hknown
  rw [hunknown] at hsame
  cases hsame

end Reachability.IdentityCache
