import Mathlib.Data.List.Induction
import Mathlib.Data.List.Nodup
import Reachability.Topology.Zone

namespace Reachability.Topology

/-- The zone that a node names. -/
def zoneLabel? (node : Manifest.Node) : Option String :=
  node.metadata.label? "topology.kubernetes.io/zone"

/-- The first zone, in the order of the nodes, that an earlier node has too. -/
def FirstRepeated (zones : List String) (zone : String) : Prop :=
  ∃ before after, zones = before ++ zone :: after ∧ before.Nodup ∧ zone ∈ before

/-- The choice among the zones that some nodes have, in the order of the nodes. -/
structure Picks (zones : List String) (zone : String) : Prop where
  /-- Where two nodes share a zone, the first that is shared, and so one with two nodes. -/
  shared : (∃ z, 2 ≤ zones.count z) → FirstRepeated zones zone ∧ 2 ≤ zones.count zone
  /-- Where they share none, the last. -/
  apart : (¬ ∃ z, 2 ≤ zones.count z) → ∀ last, zones.getLast? = some last → zone = last
  /-- Always one of theirs, if they have any. -/
  mem : zones ≠ [] → zone ∈ zones
  empty : zones = [] → zone = ""

variable {zones seen : List String} {zone last : String} {nodes : List Manifest.Node}

theorem FirstRepeated.two_le_count (h : FirstRepeated zones zone) : 2 ≤ zones.count zone := by
  obtain ⟨before, after, rfl, -, hmem⟩ := h
  have hbefore := List.count_pos_iff.2 hmem
  rw [List.count_append, List.count_cons_self]
  lia

theorem exists_two_le_count_iff : (∃ z, 2 ≤ zones.count z) ↔ ¬ zones.Nodup := by
  simp [List.nodup_iff_count_le_one, Nat.lt_iff_add_one_le]

/-- Where a zone is repeated, one is the first to be. -/
theorem exists_firstRepeated (h : ¬ zones.Nodup) : ∃ zone, FirstRepeated zones zone := by
  induction zones using List.reverseRecOn with
  | nil => exact absurd List.nodup_nil h
  | append_singleton zones z ih =>
    by_cases hzones : zones.Nodup
    · refine ⟨z, zones, [], rfl, hzones, ?_⟩
      by_contra hz
      exact h (List.nodup_append.2 ⟨hzones, List.nodup_singleton z, by grind⟩)
    · obtain ⟨zone, before, after, rfl, hbefore⟩ := ih hzones
      exact ⟨zone, before, after ++ [z], by simp, hbefore⟩

/-- The search stops at the first zone that it has seen. -/
theorem selectZoneFrom_eq_of_repeated {before after : List String}
    (hzones : nodes.map zoneOf = before ++ zone :: after) (hnew : (before ++ seen).Nodup)
    (hmem : zone ∈ before ++ seen) : selectZoneFrom seen last nodes = zone := by
  induction before generalizing seen last nodes with
  | nil =>
    obtain ⟨node, rest, rfl, rfl, -⟩ := List.map_eq_cons_iff.1 hzones
    exact if_pos hmem
  | cons z before ih =>
    obtain ⟨node, rest, rfl, rfl, hrest⟩ := List.map_eq_cons_iff.1 hzones
    have hz : zoneOf node ∉ seen := fun hz =>
      (List.nodup_cons.1 hnew).1 (List.mem_append_right before hz)
    rw [selectZoneFrom, if_neg hz]
    exact ih hrest (List.nodup_middle.2 hnew) (List.perm_middle.mem_iff.2 hmem)

/-- Without a zone that it has seen, the search goes on to the last. -/
theorem selectZoneFrom_eq_of_nodup (hnew : (nodes.map zoneOf ++ seen).Nodup) :
    selectZoneFrom seen last nodes = (nodes.map zoneOf).getLast?.getD last := by
  induction nodes generalizing seen last with
  | nil => rfl
  | cons node rest ih =>
    have hz : zoneOf node ∉ seen := fun hz =>
      (List.nodup_cons.1 hnew).1 (List.mem_append_right _ hz)
    rw [selectZoneFrom, if_neg hz, ih (List.nodup_middle.2 hnew), List.map_cons,
      List.getLast?_cons, Option.getD_some]

theorem FirstRepeated.selectZone_eq (h : FirstRepeated (nodes.map zoneOf) zone) :
    selectZone nodes = zone := by
  obtain ⟨before, after, hzones, hbefore, hmem⟩ := h
  exact selectZoneFrom_eq_of_repeated hzones (by simpa using hbefore) (by simpa using hmem)

theorem selectZone_eq_of_nodup (h : (nodes.map zoneOf).Nodup) :
    selectZone nodes = (nodes.map zoneOf).getLast?.getD "" :=
  selectZoneFrom_eq_of_nodup (by simpa using h)

theorem picks_selectZone (nodes : List Manifest.Node) :
    Picks (nodes.map zoneOf) (selectZone nodes) := by
  by_cases hzones : (nodes.map zoneOf).Nodup
  · have hlast := selectZone_eq_of_nodup hzones
    exact {
      shared h := absurd hzones (exists_two_le_count_iff.1 h)
      apart _ last h := by rw [hlast, h, Option.getD_some]
      mem h := by
        rw [hlast, List.getLast?_eq_some_getLast h]
        exact List.getLast_mem h
      empty h := by rw [hlast, h, List.getLast?_nil, Option.getD_none] }
  · obtain ⟨zone, hzone⟩ := exists_firstRepeated hzones
    obtain rfl := hzone.selectZone_eq
    have htwo := hzone.two_le_count
    exact {
      shared _ := ⟨hzone, htwo⟩
      apart h := absurd (exists_two_le_count_iff.2 hzones) h
      mem _ := List.count_pos_iff.1 (by lia)
      empty h := absurd (h ▸ List.nodup_nil) hzones }

/-- No other zone may be picked. -/
theorem Picks.selectZone_eq (h : Picks (nodes.map zoneOf) zone) : selectZone nodes = zone := by
  by_cases hzones : (nodes.map zoneOf).Nodup
  · rw [selectZone_eq_of_nodup hzones]
    cases hlast : (nodes.map zoneOf).getLast? with
    | none => exact (h.empty (List.getLast?_eq_none_iff.1 hlast)).symm
    | some last =>
      exact (h.apart (fun hshared => exists_two_le_count_iff.1 hshared hzones) last hlast).symm
  · exact (h.shared (exists_two_le_count_iff.2 hzones)).1.selectZone_eq

/-- The nodes that name their zone have the zones that they name. -/
theorem map_zoneOf_filter (nodes : List Manifest.Node) :
    (nodes.filter fun n => (zoneLabel? n).isSome).map zoneOf = nodes.filterMap zoneLabel? := by
  induction nodes with
  | nil => rfl
  | cons node nodes ih =>
    cases hlabel : zoneLabel? node with
    | none => rw [List.filter_cons_of_neg (by simp [hlabel]), List.filterMap_cons_none hlabel, ih]
    | some zone =>
      have hzone : zoneOf node = zone := congrArg (Option.getD · "") hlabel
      rw [List.filter_cons_of_pos (by simp [hlabel]), List.filterMap_cons_some hlabel,
        List.map_cons, hzone, ih]

/-- The zone is picked among the zones of all nodes, where those that name none have the one
without a name. So if all nodes name their zones, the zone is picked among the names; and in general
it is what should be picked among the names if and only if the nodes without a name make no
difference. -/
theorem selectZone_picks (nodes : List Manifest.Node) :
    Picks (nodes.map zoneOf) (selectZone nodes) ∧
    ((∀ node ∈ nodes, (zoneLabel? node).isSome = true) →
      Picks (nodes.filterMap zoneLabel?) (selectZone nodes)) ∧
    (Picks (nodes.filterMap zoneLabel?) (selectZone nodes) ↔
      selectZone (nodes.filter fun n => (zoneLabel? n).isSome) = selectZone nodes) := by
  have hnamed := picks_selectZone (nodes.filter fun n => (zoneLabel? n).isSome)
  refine ⟨picks_selectZone nodes, fun hall => ?_, fun h => ?_, fun h => ?_⟩
  · rwa [map_zoneOf_filter, List.filter_eq_self.2 hall] at hnamed
  · exact (map_zoneOf_filter nodes ▸ h).selectZone_eq
  · rwa [map_zoneOf_filter, h] at hnamed

/-- A node in a zone. -/
def zonedNode (zone : String) : Manifest.Node :=
  { metadata := { labels := .insert ∅ "topology.kubernetes.io/zone" zone } }

/-- Of three nodes, the last two share a zone. -/
theorem zonedNodes_pick_shared :
    (∀ node ∈ [zonedNode "zone-a", zonedNode "zone-b", zonedNode "zone-b"],
      (zoneLabel? node).isSome = true) ∧
    Picks ["zone-a", "zone-b", "zone-b"]
      (selectZone [zonedNode "zone-a", zonedNode "zone-b", zonedNode "zone-b"]) := by
  have hall : ∀ node ∈ [zonedNode "zone-a", zonedNode "zone-b", zonedNode "zone-b"],
      (zoneLabel? node).isSome = true := by decide +kernel
  exact ⟨hall, (selectZone_picks _).2.1 hall⟩

/-- Two nodes that name no zone are taken for a zone of two nodes, although two others do share a
zone; and behind the only node of a zone, one that names none hides it. -/
theorem unzonedNodes_hide_zones :
    ¬ Picks ([{}, {}, zonedNode "zone-a", zonedNode "zone-a"].filterMap zoneLabel?)
      (selectZone [{}, {}, zonedNode "zone-a", zonedNode "zone-a"]) ∧
    ¬ Picks ([zonedNode "zone-a", {}].filterMap zoneLabel?)
      (selectZone [zonedNode "zone-a", {}]) := by
  constructor
  · intro h
    exact absurd (h.mem (by decide +kernel)) (by decide +kernel)
  · intro h
    exact absurd (h.mem (by decide +kernel)) (by decide +kernel)

end Reachability.Topology
