import Reachability.Proofs.Identity
import Reachability.Proofs.Validation.Network

namespace Reachability

open Wait (Instant Limits Moment)

/-- A validation that checks identities and succeeds has had from each agent one dump of its
identity cache that knows all pods at once: every client and echo pod has an address, and each of
its addresses has an entry of its own that starts with a line that carries an identity. -/
theorem validate_certifies_identities (w : Wait.World clusterApi) (clients : Clients)
    (settings : Settings) (features : FeatureSet) (hperformance : settings.performance = false)
    (hskip : settings.skipIdentityCheck = false) (patience : Nat) (l : Limits) (t : Instant)
    (s : w.State) {i : Inventory} {m : Moment w}
    (hrun : ((validate clients settings features).run.run ∅).run w patience l ⟨t, s, []⟩ =
      (.returned (.ok (), i), m)) :
    ∀ agent ∈ i.agentPods.values, ∃ dump cache,
      ⟨⟨agent.cluster, .exec agent.key settings.agentContainer Check.cacheCommand⟩, .ok dump⟩ ∈
        ((validate clients settings features).run.run ∅).exchanges w patience l t s ∧
      IdentityCache.parse dump = some cache ∧
      ∀ pod ∈ i.clientPods.values ++ i.echoPods.values,
        pod.ips ≠ [] ∧ ∀ ip ∈ pod.ips, ∃ n, cache.Identifies ip n := by
  obtain ⟨before, after, heq, -, -, -, -, hconnected⟩ :=
    validate_shows hperformance (Wait.Procedure.admits_exchanges hrun)
  intro agent hagent
  obtain ⟨dump, cache, hdump, hparse, hcovers⟩ := hconnected.identities hskip agent hagent
  refine ⟨dump, cache, ?_, hparse, IdentityCache.covers_eq_ok_iff.1 hcovers⟩
  rw [heq]
  exact List.mem_append_right before hdump

/-- The agent of the calm network knows the client and the echo pod. -/
theorem calmNetwork_identified : ∃ (dump : String) (cache : IdentityCache) (n n' : Nat),
    (⟨⟨calmClients.source, .exec ⟨"cilium-test", "cilium"⟩ "cilium-agent" Check.cacheCommand⟩,
      .ok dump⟩ : Exchange) ∈ ((validate calmClients { singleNode := true } ∅).run.run ∅).exchanges
        calmNetwork 0 {} 0 () ∧
    IdentityCache.parse dump = some cache ∧
    cache.Identifies "10.0.1.1" n ∧ cache.Identifies "10.0.1.2" n' := by
  obtain ⟨m, hrun⟩ := calmNetwork_run
  obtain ⟨dump, cache, hdump, hparse, hknown⟩ := validate_certifies_identities calmNetwork
    calmClients { singleNode := true } ∅ rfl rfl 0 {} 0 () hrun _ (.head _)
  obtain ⟨n, hclient⟩ := (hknown _ (.head _)).2 "10.0.1.1" (.head _)
  obtain ⟨n', hecho⟩ := (hknown _ (.tail _ (.head _))).2 "10.0.1.2" (.head _)
  exact ⟨dump, cache, n, n', hdump, hparse, hclient, hecho⟩

end Reachability
