import Reachability.Proofs.Identity.Dump
import Reachability.Proofs.Simulation.Answers

namespace Reachability

namespace Simulation

variable {ns cluster : String} {items : List Topology.Item} {s : Store}

/-- The addresses that the pods of a small cluster can have. -/
def addressPool : List String :=
  ["172.18.0.2", "172.18.0.3"] ++ (List.range 15).map fun n => "10.0.0." ++ toString (n + 2)

theorem ofString?_addressPool : ∀ ip ∈ addressPool,
    (Address.ofString? ip).map (·.bits) = some 32 := by
  decide +kernel

/-- The line about an address that an agent knows after so many others. -/
def identityLine (n : Nat) : String :=
  "identity=" ++ toString (1000 + n) ++ " encryptkey=0 tunnelendpoint=0.0.0.0"

/-- The characters of such a line. -/
def identityChars (n : Nat) : List Char :=
  "identity=".toList ++ Nat.toDigits 10 (1000 + n) ++ " encryptkey=0 tunnelendpoint=0.0.0.0".toList

theorem toList_identityLine (n : Nat) : (identityLine n).toList = identityChars n := by
  have hdigits : (toString (1000 + n)).toList = Nat.toDigits 10 (1000 + n) := Nat.toList_repr
  unfold identityLine identityChars
  rw [String.toList_append, String.toList_append, hdigits]

theorem carriesIdentity_identityLine {n : Nat} (h : n < 15) :
    CarriesIdentity (identityLine n) (1000 + n) := by
  have hchars : ∀ n < 15, (IdentityCache.identityField? (identityChars n)).bind
      IdentityCache.readIdentity? = some (1000 + n) := by decide +kernel
  obtain ⟨field, hfield, hread⟩ := Option.bind_eq_some_iff.1 (hchars n h)
  rw [← toList_identityLine] at hfield
  exact IdentityCache.carriesIdentity_iff.2 ⟨field, hfield, hread⟩

/-- One more address that an agent learns. -/
def learn (d : Dict String (List String)) (ip : String) : Dict String (List String) :=
  d.insert (ip ++ "/32") [identityLine d.size]

theorem Store.identities_eq (s : Store) : s.identities = s.knownAddresses.foldl learn ∅ := rfl

theorem isSome_get?_foldl_learn {d : Dict String (List String)} {k : String}
    (h : (d.get? k).isSome = true) (ips : List String) :
    ((ips.foldl learn d).get? k).isSome = true := by
  induction ips generalizing d with
  | nil => exact h
  | cons ip ips ih =>
    refine ih ?_
    rw [learn, Dict.get?_insert]
    split
    · rfl
    · exact h

/-- Every address that is learned has an entry. -/
theorem isSome_get?_learned {ip : String} {ips : List String} (h : ip ∈ ips)
    (d : Dict String (List String)) :
    ((ips.foldl learn d).get? (ip ++ "/32")).isSome = true := by
  induction ips generalizing d with
  | nil => cases h
  | cons ip' ips ih =>
    rcases List.mem_cons.1 h with rfl | h
    · refine isSome_get?_foldl_learn ?_ ips
      rw [learn, Dict.get?_insert_self]
      rfl
    · exact ih h _

/-- What is learned are addresses, with the lines about them. -/
theorem get?_foldl_learn {k : String} {v : List String} {ips : List String}
    {d : Dict String (List String)} (h : (ips.foldl learn d).get? k = some v) :
    d.get? k = some v ∨
      ∃ ip ∈ ips, ∃ n < d.size + ips.length, k = ip ++ "/32" ∧ v = [identityLine n] := by
  induction ips generalizing d with
  | nil => exact .inl h
  | cons ip ips ih =>
    have hsize := d.size_insert_le (ip ++ "/32") [identityLine d.size]
    rcases ih h with hfirst | ⟨ip', hip', n, hn, rfl, rfl⟩
    · rw [learn, Dict.get?_insert] at hfirst
      split at hfirst
      next heq =>
        obtain rfl := Std.LawfulEqCmp.eq_of_compare heq
        obtain rfl := Option.some.inj hfirst
        refine .inr ⟨ip, List.mem_cons_self, d.size, ?_, rfl, rfl⟩
        rw [List.length_cons]
        lia
      next => exact .inl hfirst
    · refine .inr ⟨ip', List.mem_cons_of_mem _ hip', n, ?_, rfl, rfl⟩
      rw [List.length_cons]
      rw [learn] at hn
      lia

/-- A store whose pods have few addresses, all of them from the pool. -/
structure Store.Pooled (s : Store) : Prop where
  pool : s.knownAddresses ⊆ addressPool
  few : s.knownAddresses.length < 15

theorem Store.parse_identityDump (s : Store) :
    IdentityCache.parse s.identityDump = some ⟨s.identities⟩ := by
  have hread := IdentityCache.isReadFrom_toJson s.identities.entries
  rw [s.identities.ofList_entries] at hread
  exact IdentityCache.parse_eq_some_iff.2 hread

namespace Store.Pooled

theorem entry (h : s.Pooled) {m : String × List String} (hm : m ∈ s.identities.entries) :
    ∃ ip ∈ s.knownAddresses, ∃ n < 15, m = (ip ++ "/32", [identityLine n]) := by
  obtain ⟨k, v⟩ := m
  rw [identities_eq] at hm
  rcases get?_foldl_learn (Dict.mem_entries_iff.1 hm) with hnone | ⟨ip, hip, n, hn, rfl, rfl⟩
  · cases hnone
  · have hsize : (∅ : Dict String (List String)).size = 0 := rfl
    have hfew := h.few
    exact ⟨ip, hip, n, by lia, rfl⟩

theorem identifies (h : s.Pooled) {ip : String} (hip : ip ∈ s.knownAddresses) :
    ∃ n, IdentityCache.Identifies ⟨s.identities⟩ ip n := by
  obtain ⟨v, hv⟩ := Option.isSome_iff_exists.1 (isSome_get?_learned hip ∅)
  rw [← identities_eq] at hv
  obtain ⟨ip', -, n, hn, heq⟩ := h.entry (Dict.mem_entries_iff.2 hv)
  obtain rfl := (Prod.mk.inj heq).2
  refine ⟨1000 + n, ip ++ "/32", identityLine n, [], .inl ⟨?_, rfl⟩, hv,
    carriesIdentity_identityLine hn⟩
  obtain ⟨address, haddress, hbits⟩ :=
    Option.map_eq_some_iff.1 (ofString?_addressPool ip (h.pool hip))
  cases address with
  | v4 octets => exact ⟨octets, haddress⟩
  | v6 groups => cases hbits

end Store.Pooled

theorem podAddress_mem_addressPool {template : Manifest.PodTemplate} {number : Nat} {node : Node}
    (hnumber : number < 15) (hnode : node ∈ Store.nodes { name := cluster }) :
    podAddress template number node ∈ addressPool := by
  unfold podAddress addressPool
  split
  · have hips : ∀ node ∈ Store.nodes { name := cluster },
        node.hostIP ∈ ["172.18.0.2", "172.18.0.3"] := by
      simp [Store.nodes, Store.firstNode, Store.secondNode]
    exact List.mem_append_left _ (hips node hnode)
  · refine List.mem_append_right _ (List.mem_map.2 ⟨number, List.mem_range.2 hnumber, ?_⟩)
    rw [Nat.div_eq_of_lt (by lia), Nat.mod_eq_of_lt (by lia)]
    rfl

namespace Store.Hosts

/-- Each pod of the run has one address, from the pool. -/
theorem exists_address (hs : s.Hosts cluster ns items) {e : ObjectKey × Manifest.Pod}
    (he : e ∈ (holdings cluster ns items).pods) :
    ∃ ip ∈ addressPool, e.2.podIPs = [some ip] := by
  obtain ⟨k, hk⟩ := List.mem_iff_getElem?.1 he
  have hfew := hs.few
  obtain ⟨hlt, -⟩ := List.getElem?_eq_some_iff.1 hk
  obtain ⟨o, -, node, hnode, rfl⟩ := numbered_holdings cluster ns items k e hk
  exact ⟨_, podAddress_mem_addressPool (by lia) (mem_nodes_of_mem_crew hnode), rfl⟩

/-- The agents know the addresses of the pods of the run. -/
theorem knownAddresses_perm (hs : s.Hosts cluster ns items) : s.knownAddresses.Perm
    ((holdings cluster ns items).pods.flatMap fun e => e.2.podIPs.filterMap id) := by
  have hagents : (Store.fresh cluster).pods.entries.filter (fun e =>
      e.1.space ≠ agentSpace && !s.omitted.any fun start =>
        start.toList.isPrefixOf e.1.name.toList) = [] := by
    rw [List.filter_eq_nil_iff]
    intro e he
    simp [(key_of_mem_fresh he).1]
  have hrun : (holdings cluster ns items).pods.filter (fun e =>
      e.1.space ≠ agentSpace && !s.omitted.any fun start =>
        start.toList.isPrefixOf e.1.name.toList) = (holdings cluster ns items).pods := by
    rw [List.filter_eq_self]
    intro e he
    simp [(key_of_mem_holdings he).1, hs.ordinary, hs.omitted]
  have hperm := hs.pods_perm.filter fun e =>
    e.1.space ≠ agentSpace && !s.omitted.any fun start => start.toList.isPrefixOf e.1.name.toList
  rw [List.filter_append, hagents, hrun, List.append_nil] at hperm
  exact hperm.flatMap_right _

theorem pooled (hs : s.Hosts cluster ns items) : s.Pooled where
  pool ip hip := by
    obtain ⟨e, he, hip⟩ := List.mem_flatMap.1 (hs.knownAddresses_perm.mem_iff.1 hip)
    obtain ⟨ip', hpool, hips⟩ := hs.exists_address he
    rw [hips] at hip
    obtain rfl := List.mem_singleton.1 hip
    exact hpool
  few := by
    have hone : ∀ e ∈ (holdings cluster ns items).pods, (e.2.podIPs.filterMap id).length = 1 := by
      intro e he
      obtain ⟨ip, -, hips⟩ := hs.exists_address he
      rw [hips]
      rfl
    rw [hs.knownAddresses_perm.length_eq, List.length_flatMap, List.map_congr_left hone]
    simpa using hs.few

/-- What an agent prints covers pods that the cluster lists. -/
theorem judgeCache_identityDump (hs : s.Hosts cluster ns items) {i : Inventory}
    (hlisted : ∀ pod ∈ i.clientPods.values ++ i.echoPods.values,
      ∃ selector, pod.object ∈ s.listPods ns selector) :
    Check.judgeCache i s.identityDump = .ok () := by
  have hcovers : IdentityCache.covers ⟨s.identities⟩ i = .ok () := by
    refine IdentityCache.covers_eq_ok_iff.2 fun pod hpod => ?_
    obtain ⟨selector, hobject⟩ := hlisted pod hpod
    obtain ⟨hheld, -⟩ := List.mem_filter.1 ((hs.listPods_perm selector).mem_iff.1 hobject)
    obtain ⟨e, he, heq⟩ := List.mem_map.1 hheld
    obtain ⟨ip, -, hips⟩ := hs.exists_address he
    have hown : pod.ips = [ip] := by
      rw [Pod.ips, Manifest.Pod.ips, ← heq, hips]
      rfl
    have hknown : ip ∈ s.knownAddresses :=
      hs.knownAddresses_perm.mem_iff.2 (List.mem_flatMap.2 ⟨e, he, by simp [hips]⟩)
    rw [hown]
    exact ⟨List.cons_ne_nil _ _, List.forall_mem_singleton.2 (hs.pooled.identifies hknown)⟩
  rw [Check.judgeCache, s.parse_identityDump]
  exact congrArg (Except.mapError Failure.invalid) hcovers

end Store.Hosts

end Simulation

end Reachability
