import Mathlib.Data.String.Basic
import Reachability.Cluster.Checks
import Reachability.Proofs.Dict
import Reachability.Proofs.Identity.Dump
import Reachability.Proofs.Identity.Pods

namespace Reachability

namespace IdentityCache

variable {c : IdentityCache} {i : Inventory}

/-- The first tracked pod that the cache does not know, with the reason: clients come before echo
servers, and each in the order of their names. -/
inductive Blames (c : IdentityCache) (i : Inventory) : Role → Pod → Mismatch → Prop
  | client {name : String} {pod : Pod} {why : Mismatch} (hpod : i.clientPods.get? name = some pod)
      (hwhy : c.Misses pod why)
      (hbefore : ∀ other p, other < name → i.clientPods.get? other = some p → c.Knows p) :
      Blames c i .client pod why
  | echo {name : String} {pod : Pod} {why : Mismatch}
      (hclients : ∀ other p, i.clientPods.get? other = some p → c.Knows p)
      (hpod : i.echoPods.get? name = some pod) (hwhy : c.Misses pod why)
      (hbefore : ∀ other p, other < name → i.echoPods.get? other = some p → c.Knows p) :
      Blames c i .echo pod why

/-- The judgement on one pod of a role. -/
def trackedAs (c : IdentityCache) (role : Role) (pod : Pod) : Except Mismatch Unit :=
  match c.identityOfPod pod with
  | .ok _ => .ok ()
  | .error why => .error (.untracked role pod.key why)

theorem trackedAs_eq_ok_iff {role : Role} {pod : Pod} :
    c.trackedAs role pod = .ok () ↔ c.Knows pod := by
  rw [← exists_identityOfPod_iff, trackedAs]
  cases c.identityOfPod pod <;> simp

theorem trackedAs_eq_error_iff {role : Role} {pod : Pod} {e : Mismatch} :
    c.trackedAs role pod = .error e ↔
      ∃ why, c.Misses pod why ∧ e = .untracked role pod.key why := by
  simp only [← identityOfPod_eq_error_iff, trackedAs]
  cases c.identityOfPod pod <;> simp [eq_comm]

/-- All pods of a role are known. -/
theorem forM_trackedAs_eq_ok_iff {role : Role} {pods : Dict String Pod} :
    pods.values.forM (c.trackedAs role) = .ok () ↔
      ∀ name pod, pods.get? name = some pod → c.Knows pod := by
  simp only [forM_eq_ok_iff, trackedAs_eq_ok_iff, Dict.mem_values_iff]
  exact ⟨fun h name pod hpod => h pod ⟨name, hpod⟩, fun h pod ⟨name, hpod⟩ => h name pod hpod⟩

/-- The first pod of a role that is not known is blamed. -/
theorem forM_trackedAs_eq_error_iff {role : Role} {pods : Dict String Pod} {e : Mismatch} :
    pods.values.forM (c.trackedAs role) = .error e ↔
      ∃ name pod why, pods.get? name = some pod ∧ c.Misses pod why ∧
        (∀ other p, other < name → pods.get? other = some p → c.Knows p) ∧
        e = .untracked role pod.key why := by
  simp only [forM_eq_error_iff, Dict.exists_first_value_iff, compare_lt_iff_lt,
    trackedAs_eq_ok_iff, trackedAs_eq_error_iff]
  constructor
  · rintro ⟨name, pod, hpod, ⟨why, hwhy, rfl⟩, hbefore⟩
    exact ⟨name, pod, why, hpod, hwhy, hbefore, rfl⟩
  · rintro ⟨name, pod, why, hpod, hwhy, hbefore, rfl⟩
    exact ⟨name, pod, hpod, ⟨why, hwhy, rfl⟩, hbefore⟩

/-- The clients are judged before the echo servers. -/
theorem covers_eq_bind (c : IdentityCache) (i : Inventory) : c.covers i =
    (do i.clientPods.values.forM (c.trackedAs .client)
        i.echoPods.values.forM (c.trackedAs .echo)) := by
  change forM (i.clientPods.values.map (Role.client, ·) ++ i.echoPods.values.map (Role.echo, ·))
    (fun tracked => c.trackedAs tracked.1 tracked.2) = _
  rw [List.forM_append, List.forM_map, List.forM_map]
  rfl

/-- A cache does not cover an inventory because of the first tracked pod that it does not know. -/
theorem covers_eq_error_iff {e : Mismatch} : c.covers i = .error e ↔
    ∃ role pod why, c.Blames i role pod why ∧ e = .untracked role pod.key why := by
  rw [covers_eq_bind]
  constructor
  · intro h
    cases hclients : i.clientPods.values.forM (c.trackedAs .client) with
    | error e' =>
      rw [hclients] at h
      cases h
      obtain ⟨name, pod, why, hpod, hwhy, hbefore, rfl⟩ := forM_trackedAs_eq_error_iff.1 hclients
      exact ⟨.client, pod, why, .client hpod hwhy hbefore, rfl⟩
    | ok u =>
      rw [hclients] at h
      obtain ⟨name, pod, why, hpod, hwhy, hbefore, rfl⟩ := forM_trackedAs_eq_error_iff.1 h
      have hknown := forM_trackedAs_eq_ok_iff.1 hclients
      exact ⟨.echo, pod, why, .echo hknown hpod hwhy hbefore, rfl⟩
  · rintro ⟨role, pod, why, hblames, rfl⟩
    cases hblames with
    | client hpod hwhy hbefore =>
      rw [forM_trackedAs_eq_error_iff.2 ⟨_, pod, why, hpod, hwhy, hbefore, rfl⟩]
      rfl
    | echo hclients hpod hwhy hbefore =>
      rw [forM_trackedAs_eq_ok_iff.2 hclients]
      exact forM_trackedAs_eq_error_iff.2 ⟨_, pod, why, hpod, hwhy, hbefore, rfl⟩

/-- A cache that does not know some tracked pod blames one. -/
theorem exists_blames {pod : Pod} (hpod : pod ∈ i.clientPods.values ++ i.echoPods.values)
    (hunknown : ¬ c.Knows pod) : ∃ role pod why, c.Blames i role pod why ∧
      c.covers i = .error (.untracked role pod.key why) := by
  cases hcovers : c.covers i with
  | ok u => exact absurd (covers_eq_ok_iff_knows.1 hcovers pod hpod) hunknown
  | error e =>
    obtain ⟨role, pod, why, hblames, rfl⟩ := covers_eq_error_iff.1 hcovers
    exact ⟨role, pod, why, hblames, rfl⟩

end IdentityCache

namespace Check

/-- The verdict of one attempt, on the answer of the agent. -/
def cacheVerdict (i : Inventory) (answer : Except Failure String) : Except Failure Unit := do
  judgeCache i (← answer)

variable {i : Inventory} {dump : String}

theorem judgeCache_of_isReadFrom {cache : IdentityCache} (h : cache.IsReadFrom dump) :
    judgeCache i dump = (cache.covers i).mapError .invalid := by
  rw [judgeCache, IdentityCache.parse_eq_some_iff.2 h]

theorem judgeCache_of_not_isReadFrom (h : ∀ cache : IdentityCache, ¬ cache.IsReadFrom dump) :
    judgeCache i dump = .error .unreadableCache := by
  cases hparse : IdentityCache.parse dump with
  | none => rw [judgeCache, hparse]
  | some cache => exact absurd (IdentityCache.parse_eq_some_iff.1 hparse) (h cache)

theorem judgeCache_eq_ok_iff : judgeCache i dump = .ok () ↔ ∃ cache : IdentityCache,
    cache.IsReadFrom dump ∧ ∀ pod ∈ i.clientPods.values ++ i.echoPods.values, cache.Knows pod := by
  simp only [← IdentityCache.covers_eq_ok_iff_knows, ← IdentityCache.parse_eq_some_iff, judgeCache]
  cases IdentityCache.parse dump with
  | none => simp
  | some cache => cases hcovers : cache.covers i <;> simp [Except.mapError, hcovers]

/-- An attempt asks the agent for a dump of its cache. It succeeds if and only if the answer is a
dump of a cache that has an identity for each address of each tracked pod, each of which has an
address. An answer that is a failure, or no dump, is told as it is; and if the cache does not know
some tracked pod, the attempt blames the first one, by its role, its namespace and name and by what
is the matter with the first of its addresses that is not known, all of which may pass. -/
theorem identitiesProbe_blames_first (agent : Pod) (container : String) (i : Inventory) :
    identitiesProbe agent container i =
      .ask (A := clusterApi) ⟨agent.cluster, .exec agent.key container cacheCommand⟩
        (fun answer => .done (cacheVerdict i answer)) ∧
    (∀ answer, cacheVerdict i answer = .ok () ↔
      ∃ (dump : String) (cache : IdentityCache), answer = .ok dump ∧ cache.IsReadFrom dump ∧
        ∀ pod ∈ i.clientPods.values ++ i.echoPods.values,
          pod.ips ≠ [] ∧ ∀ ip ∈ pod.ips, ∃ n, cache.identityOf ip = .ok n) ∧
    (∀ failure, cacheVerdict i (.error failure) = .error failure) ∧
    (∀ dump, (∀ cache : IdentityCache, ¬ cache.IsReadFrom dump) →
      cacheVerdict i (.ok dump) = .error .unreadableCache) ∧
    ∀ (dump : String) (cache : IdentityCache), cache.IsReadFrom dump →
      ∀ unknown ∈ i.clientPods.values ++ i.echoPods.values, ¬ cache.Knows unknown →
        ∃ role pod why, cache.Blames i role pod why ∧
          cacheVerdict i (.ok dump) = .error (.invalid (.untracked role pod.key why)) ∧
          (Failure.invalid (.untracked role pod.key why)).retryable = true ∧
          (Failure.invalid (.untracked role pod.key why)).message =
            "couldn't find " ++ role.label ++ " pod " ++ (pod.space ++ "/" ++ pod.name) ++
              " in ipcache: " ++ why.message := by
  refine ⟨rfl, fun answer => ?_, fun failure => rfl, fun dump h => judgeCache_of_not_isReadFrom h,
    fun dump cache hread unknown hmem hunknown => ?_⟩
  · cases answer with
    | error failure => exact ⟨nofun, nofun⟩
    | ok dump =>
      refine judgeCache_eq_ok_iff.trans ⟨?_, ?_⟩
      · rintro ⟨cache, hread, hknown⟩
        exact ⟨dump, cache, rfl, hread, hknown⟩
      · rintro ⟨_, cache, hdump, hread, hknown⟩
        obtain rfl := Except.ok.inj hdump
        exact ⟨cache, hread, hknown⟩
  · obtain ⟨role, pod, why, hblames, hcovers⟩ := IdentityCache.exists_blames hmem hunknown
    refine ⟨role, pod, why, hblames, ?_, rfl, rfl⟩
    change judgeCache i dump = _
    rw [judgeCache_of_isReadFrom hread, hcovers]
    rfl

/-- A client with one address, then one with an address of each family, and an echo server without
any. -/
def mixedInventory : Inventory :=
  { clientPods := .ofList [
      ("client-00000", { cluster := ⟨0, "kind-kind"⟩, object := { podIP := "10.0.1.4" } }),
      ("client-00001", IdentityCache.dualStackPod)]
    echoPods := .ofList [("echo-same-node-00002", { cluster := ⟨0, "kind-kind"⟩, object := {} })] }

/-- Entries for the addresses of the first family. -/
def halfEntries : List (String × List String) :=
  [("10.0.1.4/32", ["identity=1000"]), ("10.0.1.5/32", ["identity=1001"])]

/-- The second client is blamed for its second address. -/
theorem halfEntries_blame_client :
    (⟨.ofList halfEntries⟩ : IdentityCache).IsReadFrom
      (Document.mapping (halfEntries.map fun e => (e.1, .texts e.2))).toJson ∧
    IdentityCache.dualStackPod ∈
      mixedInventory.clientPods.values ++ mixedInventory.echoPods.values ∧
    ¬ (⟨.ofList halfEntries⟩ : IdentityCache).Knows IdentityCache.dualStackPod ∧
    cacheVerdict mixedInventory
        (.ok (Document.mapping (halfEntries.map fun e => (e.1, .texts e.2))).toJson) =
      .error (.invalid (.untracked .client ⟨"cilium-test", "client-00001"⟩
        (.noEntry "fd00::5/128"))) := by
  have hread := IdentityCache.isReadFrom_toJson halfEntries
  have hmem : IdentityCache.dualStackPod ∈
      mixedInventory.clientPods.values ++ mixedInventory.echoPods.values := .tail _ (.head _)
  have haddress : (⟨.ofList halfEntries⟩ : IdentityCache).identityOf "fd00::5" =
      .error (.noEntry "fd00::5/128") := by decide +kernel
  have hunknown : ¬ (⟨.ofList halfEntries⟩ : IdentityCache).Knows IdentityCache.dualStackPod := by
    rintro ⟨-, hknown⟩
    obtain ⟨n, hn⟩ := hknown "fd00::5" (.tail _ (.head _))
    cases haddress.symm.trans hn
  have hcovers : (⟨.ofList halfEntries⟩ : IdentityCache).covers mixedInventory =
      .error (.untracked .client ⟨"cilium-test", "client-00001"⟩ (.noEntry "fd00::5/128")) := by
    decide +kernel
  obtain ⟨role, pod, why, hblames, hverdict, -⟩ :=
    (identitiesProbe_blames_first IdentityCache.dualStackPod "" mixedInventory).2.2.2.2 _ _ hread
      _ hmem hunknown
  have heq :=
    (IdentityCache.covers_eq_error_iff.2 ⟨role, pod, why, hblames, rfl⟩).symm.trans hcovers
  rw [Except.error.inj heq] at hverdict
  exact ⟨hread, hmem, hunknown, hverdict⟩

end Check

end Reachability
