import Mathlib.Data.List.Induction
import Reachability.Proofs.Dict
import Reachability.Proofs.Topology.Workloads

namespace Reachability

open Reachability.Topology (plan)

variable {f g : Feature} {name name' : String} {b b' : Bool} {named : List (String × Bool)}

namespace Feature

/-- A spelling of the feature's name, in any case of its letters. -/
def IsSpelled (f : Feature) (name : String) : Prop :=
  Text.equalIgnoringAsciiCase f.name name = true

instance : Decidable (f.IsSpelled name) := inferInstanceAs (Decidable (_ = true))

/-- A text spells one feature at most. -/
theorem IsSpelled.eq (hf : f.IsSpelled name) (hg : g.IsSpelled name) : f = g := by
  have hnames : f.name.toList.map Char.toLower = g.name.toList.map Char.toLower :=
    (beq_iff_eq.1 hf).trans (beq_iff_eq.1 hg).symm
  revert hnames
  cases f <;> cases g <;> decide

theorem parse_eq_ok_iff : parse name = .ok f ↔ f.IsSpelled name := by
  unfold parse
  split
  next g hfind =>
    have hg : g.IsSpelled name :=
      List.find?_some (p := fun f : Feature => Text.equalIgnoringAsciiCase f.name name) hfind
    constructor
    · rintro ⟨⟩
      exact hg
    · intro hf
      rw [hf.eq hg]
  next hfind =>
    refine iff_of_false nofun fun hf => ?_
    exact List.find?_eq_none.1 hfind f (mem_all f) hf

end Feature

namespace FeatureSet

/-- The latest override of a feature counts. -/
theorem reported_ofNamed_concat (named : List (String × Bool)) (entry : String × Bool)
    (f : Feature) : (ofNamed (named ++ [entry])).reported f =
      if f.IsSpelled entry.1 then some entry.2 else (ofNamed named).reported f := by
  rw [ofNamed, List.foldl_append, ← ofNamed, List.foldl_cons, List.foldl_nil]
  dsimp only
  split
  next g hparse =>
    have hg := Feature.parse_eq_ok_iff.1 hparse
    by_cases hfg : f = g
    · subst hfg
      simp [report, hg]
    · have hf : ¬ f.IsSpelled entry.1 := fun hf => hfg (hf.eq hg)
      simp [report, hfg, hf]
  next hparse =>
    have hf : ¬ f.IsSpelled entry.1 := fun hf => by
      rw [Feature.parse_eq_ok_iff.2 hf] at hparse
      cases hparse
    simp [hf]

/-- A feature is reported as some override of it says. -/
theorem exists_override_of_reported (h : (ofNamed named).reported f = some b) :
    ∃ name, (name, b) ∈ named ∧ f.IsSpelled name := by
  induction named using List.reverseRecOn with
  | nil => cases h
  | append_singleton named entry ih =>
    rw [reported_ofNamed_concat] at h
    split at h
    next hspelled =>
      obtain rfl := Option.some.inj h
      exact ⟨entry.1, by simp, hspelled⟩
    next =>
      obtain ⟨name, hmem, hspelled⟩ := ih h
      exact ⟨name, List.mem_append_left _ hmem, hspelled⟩

/-- A feature that has an override is reported. -/
theorem exists_reported_of_override (hmem : (name, b) ∈ named) (hname : f.IsSpelled name) :
    ∃ b', (ofNamed named).reported f = some b' := by
  induction named using List.reverseRecOn with
  | nil => cases hmem
  | append_singleton named entry ih =>
    rw [reported_ofNamed_concat]
    split
    next => exact ⟨entry.2, rfl⟩
    next hother =>
      rcases List.mem_append.1 hmem with hmem | hlast
      · exact ih hmem
      · obtain rfl := List.mem_singleton.1 hlast
        exact absurd hname hother

variable {overrides : Dict String Bool} {order order' : VisitingOrder overrides}

/-- Whatever the order, a map is visited entry by entry. -/
theorem mem_order_iff (order : VisitingOrder overrides) :
    (name, b) ∈ order.entries ↔ overrides.get? name = some b :=
  order.perm.mem_iff.trans Dict.mem_entries_iff

/-- An order that comes to this entry last. -/
def visitingLast (h : overrides.get? name = some b) : VisitingOrder overrides where
  entries := overrides.entries.erase (name, b) ++ [(name, b)]
  perm := (List.perm_append_singleton _ _).trans
    (List.perm_cons_erase (Dict.mem_entries_iff.2 h)).symm

/-- What a feature can be reported as is what the map has for some spelling of it. -/
theorem exists_order_reported_iff :
    (∃ order : VisitingOrder overrides, (ofOverrides order).reported f = some b) ↔
      ∃ name, overrides.get? name = some b ∧ f.IsSpelled name := by
  constructor
  · rintro ⟨order, hreported⟩
    obtain ⟨name, hmem, hname⟩ := exists_override_of_reported hreported
    exact ⟨name, (mem_order_iff order).1 hmem, hname⟩
  · rintro ⟨name, hget, hname⟩
    exact ⟨visitingLast hget, (reported_ofNamed_concat ..).trans (if_pos hname)⟩

/-- All spellings of a feature that the map has go with one value. -/
def Unanimous (overrides : Dict String Bool) : Prop :=
  ∀ (f : Feature) (name name' : String) (b b' : Bool), overrides.get? name = some b →
    overrides.get? name' = some b' → f.IsSpelled name → f.IsSpelled name' → b = b'

/-- If whatever a feature is reported as in one order is no other than in another, then the
spellings of each feature agree. -/
theorem unanimous_of_reported
    (h : ∀ (order order' : VisitingOrder overrides) (f : Feature) (b b' : Bool),
      (ofOverrides order).reported f = some b → (ofOverrides order').reported f = some b' →
        b = b') : Unanimous overrides := by
  intro f name name' b b' hget hget' hname hname'
  obtain ⟨order, hb⟩ := exists_order_reported_iff.2 ⟨name, hget, hname⟩
  obtain ⟨order', hb'⟩ := exists_order_reported_iff.2 ⟨name', hget', hname'⟩
  exact h order order' f b b' hb hb'

theorem Unanimous.reported_eq (h : Unanimous overrides)
    (hb : (ofOverrides order).reported f = some b) : (ofOverrides order').reported f = some b := by
  obtain ⟨name, hget, hname⟩ := exists_order_reported_iff.1 ⟨order, hb⟩
  obtain ⟨b', hb'⟩ := exists_reported_of_override ((mem_order_iff order').2 hget) hname
  obtain ⟨name', hget', hname'⟩ := exists_order_reported_iff.1 ⟨order', hb'⟩
  rw [ofOverrides, hb', h f name name' b b' hget hget' hname hname']

theorem Unanimous.ofOverrides_eq (h : Unanimous overrides)
    (order order' : VisitingOrder overrides) : ofOverrides order = ofOverrides order' :=
  FeatureSet.ext fun _ => Option.ext fun _ => ⟨h.reported_eq, h.reported_eq⟩

end FeatureSet

/-- Unless pods are measured, a plan shows which features are enabled. -/
theorem enabled_eq_of_plan_eq {settings : Settings} {features features' : FeatureSet}
    {zone : String} (hperformance : settings.performance = false)
    (h : plan settings features zone = plan settings features' zone) (f : Feature) :
    features.enabled f = features'.enabled f := by
  have hsteps : Topology.connections settings features =
      Topology.connections settings features' := by
    have hplan := congrArg Topology.Plan.steps h
    simp only [plan, hperformance, Bool.false_eq_true, if_false,
      Topology.planConnectivity_steps] at hplan
    exact List.append_cancel_left hplan
  cases f with
  | hostPort =>
    have hsame : Topology.sameNodeWorkload settings features =
        Topology.sameNodeWorkload settings features' :=
      Topology.Item.deployment.inj (Prod.mk.inj (List.cons.inj hsteps).1).2
    have hport (features : FeatureSet) :
        (Topology.sameNodeWorkload settings features).hostPort.isSome =
          features.enabled .hostPort := by
      simp only [Topology.sameNodeWorkload, Topology.echoWorkload]
      cases features.enabled .hostPort <;> rfl
    rw [← hport, ← hport, hsame]
  | ingressController =>
    have hmem (features : FeatureSet) :
        (.source, .ingress) ∈ Topology.connections settings features ↔
          features.enabled .ingressController = true := by
      simp [Topology.mem_connections_ingress]
    rw [Bool.eq_iff_iff, ← hmem, ← hmem, hsteps]
  | nodeWithoutCilium =>
    have hmem (features : FeatureSet) :
        (.destination, .daemonSet (Topology.hostNetworkWorkload settings)) ∈
            Topology.connections settings features ↔
          features.enabled .nodeWithoutCilium = true := by
      simp [Topology.mem_connections_daemonSet]
    rw [Bool.eq_iff_iff, ← hmem, ← hmem, hsteps]

open FeatureSet (Unanimous ofOverrides)

/-- All orders in which the overrides of a run can be visited lead to one plan if and only if pods
are measured, for which no feature matters, or the spellings of each feature agree. -/
theorem plan_ofOverrides_eq_iff (settings : Settings) (zone : String) :
    (∀ order order' : VisitingOrder settings.features,
      plan settings (ofOverrides order) zone = plan settings (ofOverrides order') zone) ↔
      settings.performance = true ∨ Unanimous settings.features := by
  constructor
  · intro h
    cases hperformance : settings.performance with
    | true => exact .inl rfl
    | false =>
      refine .inr (FeatureSet.unanimous_of_reported fun order order' f b b' hb hb' => ?_)
      have henabled := enabled_eq_of_plan_eq hperformance (h order order') f
      simpa [FeatureSet.enabled, hb, hb'] using henabled
  · rintro (hperformance | hunanimous) order order'
    · -- a plan for measurements looks at no feature
      simp only [plan, hperformance, if_true]
    · rw [hunanimous.ofOverrides_eq order order']

/-- A map of overrides may be visited in any order. What a feature is reported as in some order is
what the map has for some spelling of it, and each such value is reported in some order. So all
orders come to the same features if and only if the spellings of each feature agree; and they lead
to the same plan, unless pods are measured, if and only if these agree. -/
theorem overrides_mean_one_iff (overrides : Dict String Bool) :
    (∀ (f : Feature) (b : Bool),
      (∃ order : VisitingOrder overrides, (ofOverrides order).reported f = some b) ↔
        ∃ name, overrides.get? name = some b ∧ f.IsSpelled name) ∧
    ((∀ order order' : VisitingOrder overrides, ofOverrides order = ofOverrides order') ↔
      Unanimous overrides) ∧
    ∀ (settings : Settings) (zone : String), settings.features = overrides →
      ((∀ order order' : VisitingOrder overrides,
        plan settings (ofOverrides order) zone = plan settings (ofOverrides order') zone) ↔
          settings.performance = true ∨ Unanimous overrides) := by
  refine ⟨fun f b => FeatureSet.exists_order_reported_iff, ⟨fun h => ?_, ?_⟩, ?_⟩
  · refine FeatureSet.unanimous_of_reported fun order order' f b b' hb hb' => ?_
    rw [h order order', hb'] at hb
    exact (Option.some.inj hb).symm
  · exact fun h order order' => h.ofOverrides_eq order order'
  · rintro settings zone rfl
    exact plan_ofOverrides_eq_iff settings zone

/-- Two spellings of one feature, with different values. -/
def twoSpellings : Dict String Bool := .ofList [("HostPort", true), ("hostport", false)]

/-- The two spellings, visited the other way round. -/
def twoSpellingsReversed : VisitingOrder twoSpellings :=
  ⟨twoSpellings.entries.reverse, List.reverse_perm _⟩

/-- Visited in one order, the two spellings enable the feature; in the other they disable it, and
the plans differ. -/
theorem twoSpellings_disagree :
    ofOverrides (.byName twoSpellings) ≠ ofOverrides twoSpellingsReversed ∧
    plan { features := twoSpellings } (ofOverrides (.byName twoSpellings)) "" ≠
      plan { features := twoSpellings } (ofOverrides twoSpellingsReversed) "" := by
  have hdisabled : (ofOverrides (.byName twoSpellings)).enabled .hostPort = false := by
    decide +kernel
  have henabled : (ofOverrides twoSpellingsReversed).enabled .hostPort = true := by
    decide +kernel
  refine ⟨fun h => ?_, fun h => ?_⟩
  · rw [h, henabled] at hdisabled
    cases hdisabled
  · rw [enabled_eq_of_plan_eq rfl h, henabled] at hdisabled
    cases hdisabled

end Reachability
