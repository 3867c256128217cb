import Reachability.Proofs.Cluster.Readiness

namespace Reachability.Manifest.Deployment

variable {d : Deployment} {s : DeploymentStatus}

/-- The old replicas are to be told for this status: the controller is not known to be behind, as
many replicas as desired are updated, and there are others. -/
structure Reckons (d : Deployment) (s : DeploymentStatus) : Prop where
  status : d.status = some s
  not_behind : ¬ d.Behind s
  updated : d.replicas.getD 1 ≤ s.updated.getD 0
  other : s.updated.getD 0 < s.replicas.getD 0

theorem countsSettled_eq_terminating_iff {name : String} {remaining : Int32} :
    d.countsSettled s = some (.error (.terminating name remaining)) ↔
      d.replicas.getD 1 ≤ s.updated.getD 0 ∧ s.updated.getD 0 < s.replicas.getD 0 ∧
        name = d.metadata.title ∧ remaining.toInt = leftover s := by
  unfold countsSettled readiness.settled leftover
  by_cases hupdated : s.updated.getD 0 < d.replicas.getD 1
  · have hnot : ¬ d.replicas.getD 1 ≤ s.updated.getD 0 := Int32.not_le.2 hupdated
    simp [hupdated, hnot]
  · have hle : d.replicas.getD 1 ≤ s.updated.getD 0 := Int32.not_lt.1 hupdated
    rw [if_neg hupdated]
    by_cases hother : s.updated.getD 0 < s.replicas.getD 0
    · rw [if_pos hother, Option.map_eq_some_iff, ← difference?_eq_some_iff]
      simp only [hother, hle, true_and]
      constructor
      · rintro ⟨_, hcount, heq⟩
        cases heq
        exact ⟨rfl, hcount⟩
      · rintro ⟨rfl, hcount⟩
        exact ⟨remaining, hcount, rfl⟩
    · rw [if_neg hother]
      refine iff_of_false (fun h => ?_) fun h => hother h.2.1
      split at h <;> cases h

theorem readiness_eq_terminating_iff {name : String} {remaining : Int32} :
    d.readiness = some (.error (.terminating name remaining)) ↔
      ∃ s, d.Reckons s ∧ name = d.metadata.title ∧ remaining.toInt = leftover s := by
  constructor
  · intro h
    cases hstatus : d.status with
    | none =>
      rw [readiness_of_status_eq_none hstatus] at h
      cases h
    | some s =>
      by_cases hbehind : d.Behind s
      · obtain ⟨generation, observed, hreadiness⟩ := readiness_of_behind hstatus hbehind
        rw [hreadiness] at h
        cases h
      · rw [readiness_of_not_behind hstatus hbehind, countsSettled_eq_terminating_iff] at h
        obtain ⟨hupdated, hother, hname, hremaining⟩ := h
        exact ⟨s, ⟨hstatus, hbehind, hupdated, hother⟩, hname, hremaining⟩
  · rintro ⟨s, hreckons, hname, hremaining⟩
    rw [readiness_of_not_behind hreckons.status hreckons.not_behind,
      countsSettled_eq_terminating_iff]
    exact ⟨hreckons.updated, hreckons.other, hname, hremaining⟩

/-- No more than `2 ^ 31 - 1` replicas are reported in all, so to be short of that many more takes a
negative number of updated replicas, and so of desired ones. -/
theorem Uncountable.desired_neg (h : d.Uncountable s) : d.replicas.getD 1 < 0 := by
  have htotal := (s.replicas.getD 0).toInt_lt
  have hle := Int32.le_iff_toInt_le.1 h.updated
  have hmany := h.many
  have hneg : (d.replicas.getD 1).toInt < 0 := by
    unfold leftover at hmany
    omega
  exact Int32.lt_iff_toInt_lt.2 hneg

/-- Old replicas are told with the number that there are, for which 32 bits are enough. Where they
are not, there is no judgement: this happens if and only if the controller is not known to be
behind, at least as many replicas as desired are updated, and `2 ^ 31` or more are left beside them;
never, if the number of desired replicas is left out or not negative. -/
theorem readiness_counts_leftover (d : Deployment) :
    (∀ name remaining, d.readiness = some (.error (.terminating name remaining)) ↔
      ∃ s, d.Reckons s ∧ name = d.metadata.title ∧ remaining.toInt = leftover s) ∧
    (d.readiness = none ↔ ∃ s, d.status = some s ∧ ¬ d.Behind s ∧
      d.replicas.getD 1 ≤ s.updated.getD 0 ∧ 2147483648 ≤ leftover s) ∧
    (0 ≤ d.replicas.getD 1 → d.readiness ≠ none) := by
  refine ⟨fun name remaining => readiness_eq_terminating_iff, ?_, fun hdesired hnone => ?_⟩
  · rw [readiness_eq_none_iff]
    refine exists_congr fun s => ⟨fun h => ⟨h.status, h.not_behind, h.updated, h.many⟩, ?_⟩
    rintro ⟨hstatus, hbehind, hupdated, hmany⟩
    exact ⟨hstatus, hbehind, hupdated, hmany⟩
  · obtain ⟨s, hs⟩ := readiness_eq_none_iff.1 hnone
    exact Int32.not_lt.2 hdesired hs.desired_neg

/-- A deployment of which two replicas are left beside the updated one. -/
def crowdedDeployment : Deployment :=
  { metadata := { name := "client" }
    replicas := some 1
    status := some { replicas := some 3, updated := some 1 } }

theorem crowdedDeployment_leftover :
    (∃ s, crowdedDeployment.Reckons s ∧ "client" = crowdedDeployment.metadata.title ∧
      (2 : Int32).toInt = leftover s) ∧
    0 ≤ crowdedDeployment.replicas.getD 1 ∧ crowdedDeployment.readiness ≠ none := by
  have hdesired : 0 ≤ crowdedDeployment.replicas.getD 1 := by decide
  obtain ⟨hcounts, -, hjudged⟩ := readiness_counts_leftover crowdedDeployment
  exact ⟨(hcounts "client" 2).1 rfl, hdesired, hjudged hdesired⟩

/-- The least numbers of desired and updated replicas that 32 bits hold, and no replica at all. -/
def depletedDeployment : Deployment :=
  { metadata := { name := "client" }
    replicas := some (-2147483648)
    status := some { replicas := some 0, updated := some (-2147483648) } }

/-- The replicas left are to be told, and cannot be counted: the difference is reckoned although 32
bits do not hold it, and there is no judgement. -/
theorem depletedDeployment_uncountable :
    (∃ s, depletedDeployment.Reckons s ∧ leftover s = 2147483648) ∧
    depletedDeployment.readiness = none := by
  refine ⟨⟨_, ⟨rfl, ?_, by decide, by decide⟩, by decide⟩, by decide⟩
  rintro ⟨generation, observed, hgeneration, -⟩
  cases hgeneration

end Reachability.Manifest.Deployment
