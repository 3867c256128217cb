import Reachability.Proofs.Identity

namespace Reachability.IdentityCache

variable {c : IdentityCache} {p : Pod}

section FirstFailure

variable {ε γ δ : Type} {l : List γ} {e : ε}

/-- The first element with a property is the head of a list, or the first of the rest. -/
theorem exists_first_cons_iff {P Q : γ → Prop} {x : γ} :
    (∃ before a after, x :: l = before ++ a :: after ∧ (∀ b ∈ before, P b) ∧ Q a) ↔
      Q x ∨ P x ∧ ∃ before a after, l = before ++ a :: after ∧ (∀ b ∈ before, P b) ∧ Q a := by
  constructor
  · rintro ⟨_ | ⟨b, before⟩, a, after, heq, hbefore, ha⟩
    · obtain ⟨rfl, -⟩ := List.cons.inj heq
      exact .inl ha
    · obtain ⟨rfl, rfl⟩ := List.cons.inj heq
      obtain ⟨hx, hbefore⟩ := List.forall_mem_cons.1 hbefore
      exact .inr ⟨hx, before, a, after, rfl, hbefore, ha⟩
  · rintro (hx | ⟨hx, before, a, after, rfl, hbefore, ha⟩)
    · exact ⟨[], x, l, rfl, List.forall_mem_nil _, hx⟩
    · exact ⟨x :: before, a, after, rfl, List.forall_mem_cons.2 ⟨hx, hbefore⟩, ha⟩

/-- A traversal fails as the first element does on which it fails. -/
theorem mapM_eq_error_iff {f : γ → Except ε δ} : l.mapM f = .error e ↔
    ∃ before a after, l = before ++ a :: after ∧ (∀ b ∈ before, ∃ d, f b = .ok d) ∧
      f a = .error e := by
  induction l with
  | nil => simp [pure, Except.pure]
  | cons x l ih =>
    rw [List.mapM_cons, exists_first_cons_iff, ← ih]
    cases f x with
    | error e' => simp [bind, Except.bind]
    | ok d => cases l.mapM f <;> simp [bind, Except.bind, pure, Except.pure]

theorem forM_eq_error_iff {f : γ → Except ε Unit} : l.forM f = .error e ↔
    ∃ before a after, l = before ++ a :: after ∧ (∀ b ∈ before, f b = .ok ()) ∧
      f a = .error e := by
  induction l with
  | nil => simp [pure, Except.pure]
  | cons x l ih =>
    rw [exists_first_cons_iff, ← ih,
      show (x :: l).forM f = (f x >>= fun _ => l.forM f) from rfl]
    cases f x <;> simp [bind, Except.bind]

end FirstFailure

/-- The pod has an address, and each of its addresses has an identity. -/
def Knows (c : IdentityCache) (p : Pod) : Prop :=
  p.ips ≠ [] ∧ ∀ ip ∈ p.ips, ∃ n, c.identityOf ip = .ok n

/-- What keeps a cache from having an identity for a pod: the pod has no address, or there is a
reason for the first of its addresses that has no identity. -/
inductive Misses (c : IdentityCache) (p : Pod) : Mismatch → Prop
  | withoutAddress (hips : p.ips = []) : Misses c p (.withoutAddress p.key)
  | address {before after : List String} {ip : String} {why : Mismatch}
      (hips : p.ips = before ++ ip :: after) (hbefore : ∀ b ∈ before, ∃ n, c.identityOf b = .ok n)
      (hip : c.identityOf ip = .error why) : Misses c p why

theorem identityOfPod_of_ips_eq_nil (h : p.ips = []) :
    c.identityOfPod p = .error (.withoutAddress p.key) := by
  rw [identityOfPod, h]
  rfl

/-- The last address decides, once all others have an identity. -/
theorem identityOfPod_of_ips_eq_append {before : List String} {last : String}
    (h : p.ips = before ++ [last]) :
    c.identityOfPod p = (do let _ ← before.mapM c.identityOf; c.identityOf last) := by
  rw [identityOfPod, h, List.mapM_append]
  cases before.mapM c.identityOf with
  | error why => rfl
  | ok ids =>
    rw [List.mapM_cons, List.mapM_nil]
    cases c.identityOf last with
    | error why => rfl
    | ok n => simp [bind, Except.bind, pure, Except.pure]

theorem identityOfPod_eq_ok_iff {n : Nat} : c.identityOfPod p = .ok n ↔
    c.Knows p ∧ ∃ last, p.ips.getLast? = some last ∧ c.identityOf last = .ok n := by
  rcases List.eq_nil_or_concat p.ips with hips | ⟨before, last, hips⟩
  · simp [identityOfPod_of_ips_eq_nil hips, hips]
  · have hothers : (∃ ids, before.mapM c.identityOf = .ok ids) ↔
        ∀ b ∈ before, ∃ m, c.identityOf b = .ok m := mapM_ok_iff
    rw [List.concat_eq_append] at hips
    rw [identityOfPod_of_ips_eq_append hips, Knows, hips, List.getLast?_concat,
      List.forall_mem_append, ← hothers]
    cases before.mapM c.identityOf with
    | error why => simp [bind, Except.bind]
    | ok ids =>
      change c.identityOf last = .ok n ↔ _
      constructor
      · intro hn
        exact ⟨⟨by simp, ⟨ids, rfl⟩, List.forall_mem_singleton.2 ⟨n, hn⟩⟩, last, rfl, hn⟩
      · rintro ⟨-, last', hlast, hn⟩
        obtain rfl := Option.some.inj hlast
        exact hn

/-- A pod has an identity if and only if the cache knows it. -/
theorem exists_identityOfPod_iff : (∃ n, c.identityOfPod p = .ok n) ↔ c.Knows p := by
  simp only [Knows, identityOf_eq_ok_iff]
  exact identityOfPod_ok_iff

theorem identityOfPod_eq_error_iff {why : Mismatch} :
    c.identityOfPod p = .error why ↔ c.Misses p why := by
  by_cases hips : p.ips = []
  · rw [identityOfPod_of_ips_eq_nil hips]
    constructor
    · intro h
      cases h
      exact .withoutAddress hips
    · rintro (_ | ⟨haddresses, -, -⟩)
      · rfl
      · simp [hips] at haddresses
  · have htraversal : c.identityOfPod p = .error why ↔ p.ips.mapM c.identityOf = .error why := by
      cases hids : p.ips.mapM c.identityOf with
      | error why' =>
        simp [identityOfPod, hids, bind, Except.bind]
      | ok ids =>
        obtain ⟨n, hn⟩ := exists_identityOfPod_iff.2 ⟨hips, mapM_ok_iff.1 ⟨ids, hids⟩⟩
        simp [hn]
    rw [htraversal, mapM_eq_error_iff]
    constructor
    · rintro ⟨before, ip, after, haddresses, hbefore, hip⟩
      exact .address haddresses hbefore hip
    · rintro (hnone | ⟨haddresses, hbefore, hip⟩)
      · exact absurd hnone hips
      · exact ⟨_, _, _, haddresses, hbefore, hip⟩

/-- A cache covers an inventory if and only if it knows each of the tracked pods. -/
theorem covers_eq_ok_iff_knows {i : Inventory} : c.covers i = .ok () ↔
    ∀ pod ∈ i.clientPods.values ++ i.echoPods.values, c.Knows pod := by
  simp only [Knows, identityOf_eq_ok_iff]
  exact covers_eq_ok_iff

/-- The identity of a pod is there if and only if the pod has an address and each of its addresses
has an identity. It is that of the last address, and the others are not compared with it: a cache
covers an inventory if and only if each tracked pod has an identity in this sense. -/
theorem identityOfPod_reads_last (c : IdentityCache) (p : Pod) :
    (∀ n, c.identityOfPod p = .ok n ↔
      (p.ips ≠ [] ∧ ∀ ip ∈ p.ips, ∃ m, c.identityOf ip = .ok m) ∧
        ∃ last, p.ips.getLast? = some last ∧ c.identityOf last = .ok n) ∧
    ∀ i : Inventory, c.covers i = .ok () ↔
      ∀ pod ∈ i.clientPods.values ++ i.echoPods.values, ∃ n, c.identityOfPod pod = .ok n := by
  refine ⟨fun n => identityOfPod_eq_ok_iff, fun i => ?_⟩
  simp only [exists_identityOfPod_iff]
  exact covers_eq_ok_iff_knows

/-- A pod with an address of each family. -/
def dualStackPod : Pod :=
  { cluster := ⟨0, "kind-kind"⟩
    object := { metadata := { name := "client-00001", space := "cilium-test" }
                podIPs := ["10.0.1.5", "fd00::5"] } }

/-- A cache in which the two addresses of that pod have different identities. -/
def splitCache : IdentityCache :=
  ⟨.ofList [("10.0.1.5/32", ["identity=1234"]), ("fd00::5/128", ["identity=5678"])]⟩

/-- A pod may have an identity that one of its addresses does not have, and be covered. -/
theorem splitCache_covers_dualStackPod :
    splitCache.identityOfPod dualStackPod = .ok 5678 ∧
    (¬ ∀ ip ∈ dualStackPod.ips, splitCache.identityOf ip = .ok 5678) ∧
    splitCache.covers { clientPods := .insert ∅ "client-00001" dualStackPod } = .ok () := by
  have hsplit : splitCache.identityOf "10.0.1.5" = .ok 1234 := by decide +kernel
  refine ⟨by decide +kernel, fun h => ?_, by decide +kernel⟩
  cases hsplit.symm.trans (h "10.0.1.5" (.head _))

end Reachability.IdentityCache
