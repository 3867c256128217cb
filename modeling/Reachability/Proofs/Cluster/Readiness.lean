import Mathlib.Logic.Basic
import Reachability.Cluster.Readiness

namespace Reachability.Manifest.Deployment

variable {d : Deployment} {s : DeploymentStatus}

/-- The controller has seen the latest generation of the object. A number that is left out is zero.
-/
def CaughtUp (d : Deployment) (s : DeploymentStatus) : Prop :=
  d.metadata.generation.getD 0 ≤ s.observedGeneration.getD 0

/-- The controller reports a generation before that of the object. -/
def Behind (d : Deployment) (s : DeploymentStatus) : Prop :=
  ∃ generation observed, d.metadata.generation = some generation ∧
    s.observedGeneration = some observed ∧ observed < generation

/-- The controller has not caught up, but one of the two generations is left out. -/
def Unreported (d : Deployment) (s : DeploymentStatus) : Prop :=
  (d.metadata.generation = none ∨ s.observedGeneration = none) ∧ ¬ d.CaughtUp s

/-- As many replicas as desired are updated, available and ready, and none is left beside those that
are updated. -/
structure Complete (d : Deployment) (s : DeploymentStatus) : Prop where
  updated : d.replicas.getD 1 ≤ s.updated.getD 0
  available : d.replicas.getD 1 ≤ s.available.getD 0
  ready : d.replicas.getD 1 ≤ s.ready.getD 0
  no_other : s.replicas.getD 0 ≤ s.updated.getD 0

/-- The replicas beside the updated ones. A number that is left out is zero. -/
def leftover (s : DeploymentStatus) : Int := (s.replicas.getD 0).toInt - (s.updated.getD 0).toInt

/-- The replicas beside the updated ones are to be told, and 32 bits do not hold their number. -/
structure Uncountable (d : Deployment) (s : DeploymentStatus) : Prop where
  status : d.status = some s
  not_behind : ¬ d.Behind s
  updated : d.replicas.getD 1 ≤ s.updated.getD 0
  many : 2147483648 ≤ leftover s

/-- The judgement on the counts of one deployment. -/
def countsSettled (d : Deployment) (s : DeploymentStatus) : Option (Except Unready Unit) :=
  readiness.settled d.metadata.title (d.replicas.getD 1) (s.updated.getD 0) (s.available.getD 0)
    (s.ready.getD 0) (s.replicas.getD 0)

theorem countsSettled_eq_ok_iff : d.countsSettled s = some (.ok ()) ↔ d.Complete s := by
  unfold countsSettled readiness.settled
  constructor
  · intro h
    split at h
    · cases h
    next hupdated =>
      split at h
      · obtain ⟨remaining, -, hremaining⟩ := Option.map_eq_some_iff.1 h
        cases hremaining
      next hother =>
        split at h
        · cases h
        next hserving =>
          rw [not_or, Int32.not_lt, Int32.not_lt] at hserving
          exact ⟨Int32.not_lt.1 hupdated, hserving.1, hserving.2, Int32.not_lt.1 hother⟩
  · rintro ⟨hupdated, havailable, hready, hother⟩
    rw [if_neg (Int32.not_lt.2 hupdated), if_neg (Int32.not_lt.2 hother),
      if_neg (not_or.2 ⟨Int32.not_lt.2 havailable, Int32.not_lt.2 hready⟩)]

theorem lt_of_leftover_large (h : 2147483648 ≤ leftover s) :
    s.updated.getD 0 < s.replicas.getD 0 := by
  refine Int32.lt_iff_toInt_lt.2 ?_
  unfold leftover at h
  omega

theorem countsSettled_eq_none_iff :
    d.countsSettled s = none ↔ d.replicas.getD 1 ≤ s.updated.getD 0 ∧ 2147483648 ≤ leftover s := by
  unfold countsSettled readiness.settled
  by_cases hupdated : s.updated.getD 0 < d.replicas.getD 1
  · have hnot : ¬ d.replicas.getD 1 ≤ s.updated.getD 0 := Int32.not_le.2 hupdated
    simp [hupdated, hnot]
  · have hle : d.replicas.getD 1 ≤ s.updated.getD 0 := Int32.not_lt.1 hupdated
    rw [if_neg hupdated]
    by_cases hother : s.updated.getD 0 < s.replicas.getD 0
    · rw [if_pos hother, Option.map_eq_none_iff, difference?_eq_none_iff hother]
      exact (and_iff_right hle).symm
    · rw [if_neg hother]
      refine iff_of_false (fun h => ?_) fun h => hother (lt_of_leftover_large h.2)
      split at h <;> cases h

theorem readiness_of_status_eq_none (h : d.status = none) :
    d.readiness = some (.error (.withoutStatus d.metadata.title)) := by
  rw [readiness, h]

theorem readiness_of_behind (h : d.status = some s) (hbehind : d.Behind s) :
    ∃ generation observed,
      d.readiness = some (.error (.unobserved d.metadata.title generation observed)) := by
  obtain ⟨generation, observed, hgeneration, hobserved, hlt⟩ := hbehind
  refine ⟨generation, observed, ?_⟩
  rw [readiness, h]
  simp only [hgeneration, hobserved, if_pos hlt]

/-- Unless it reports to be behind, the controller is taken at its word about the counts. -/
theorem readiness_of_not_behind (h : d.status = some s) (hbehind : ¬ d.Behind s) :
    d.readiness = d.countsSettled s := by
  rw [readiness, h]
  cases hgeneration : d.metadata.generation with
  | none => rfl
  | some generation =>
    cases hobserved : s.observedGeneration with
    | none =>
      simp only [hobserved]
      rfl
    | some observed =>
      have hle : ¬ observed < generation := fun hlt =>
        hbehind ⟨generation, observed, hgeneration, hobserved, hlt⟩
      simp only [hobserved, if_neg hle]
      rfl

/-- What is left out makes the only difference between a controller that does not report to be
behind and one that has caught up. -/
theorem not_behind_iff (h : ¬ d.Unreported s) : ¬ d.Behind s ↔ d.CaughtUp s := by
  unfold Unreported CaughtUp at *
  unfold Behind
  cases hgeneration : d.metadata.generation with
  | none => simpa [hgeneration] using h
  | some generation =>
    cases hobserved : s.observedGeneration with
    | none => simpa [hgeneration, hobserved] using h
    | some observed => simp

theorem readiness_eq_none_iff : d.readiness = none ↔ ∃ s, d.Uncountable s := by
  cases hstatus : d.status with
  | none =>
    rw [readiness_of_status_eq_none hstatus]
    exact iff_of_false nofun fun ⟨s, hs⟩ => nomatch hstatus.symm.trans hs.status
  | some s =>
    by_cases hbehind : d.Behind s
    · obtain ⟨generation, observed, hreadiness⟩ := readiness_of_behind hstatus hbehind
      rw [hreadiness]
      refine iff_of_false nofun fun ⟨s', hs'⟩ => hs'.not_behind ?_
      exact Option.some.inj (hstatus.symm.trans hs'.status) ▸ hbehind
    · rw [readiness_of_not_behind hstatus hbehind, countsSettled_eq_none_iff]
      constructor
      · rintro ⟨hupdated, hmany⟩
        exact ⟨s, hstatus, hbehind, hupdated, hmany⟩
      · rintro ⟨s', hs', -, hupdated, hmany⟩
        obtain rfl := Option.some.inj (hstatus.symm.trans hs')
        exact ⟨hupdated, hmany⟩

/-- A deployment is judged ready if and only if it has a status, its controller does not report to
be behind, and its replicas are complete. There is no judgement if and only if the replicas that are
left are to be told and 32 bits do not hold their number. In every other case the cause is told and
may pass. So unless a generation is left out, no deployment is judged ready before its controller
has caught up. -/
theorem readiness_judges (d : Deployment) :
    (d.readiness = some (.ok ()) ↔ ∃ s, d.status = some s ∧ ¬ d.Behind s ∧ d.Complete s) ∧
    (d.readiness = none ↔ ∃ s, d.Uncountable s) ∧
    (d.readiness ≠ some (.ok ()) → d.readiness ≠ none →
      ∃ why, d.readiness.map (·.mapError Failure.notReady) = some (.error (.notReady why)) ∧
        (Failure.notReady why).retryable = true) ∧
    ((∀ s, d.status = some s → ¬ d.Unreported s) →
      (d.readiness = some (.ok ()) ↔ ∃ s, d.status = some s ∧ d.CaughtUp s ∧ d.Complete s)) := by
  have hready : d.readiness = some (.ok ()) ↔
      ∃ s, d.status = some s ∧ ¬ d.Behind s ∧ d.Complete s := by
    cases hstatus : d.status with
    | none => simp [readiness_of_status_eq_none hstatus]
    | some s =>
      by_cases hbehind : d.Behind s
      · obtain ⟨generation, observed, hreadiness⟩ := readiness_of_behind hstatus hbehind
        simp [hreadiness, hbehind]
      · rw [readiness_of_not_behind hstatus hbehind, countsSettled_eq_ok_iff]
        simp [hbehind]
  refine ⟨hready, readiness_eq_none_iff, fun hnot hsome => ?_, fun hreported => hready.trans ?_⟩
  · cases hwhy : d.readiness with
    | none => exact absurd hwhy hsome
    | some judgement =>
      cases judgement with
      | ok u => exact absurd hwhy hnot
      | error why => exact ⟨why, rfl, rfl⟩
  · refine exists_congr fun s => and_congr_right fun hstatus => and_congr_left fun _ => ?_
    exact not_behind_iff (hreported s hstatus)

/-- A deployment with one replica, which serves. -/
def servingDeployment (generation observed : Option Int) : Deployment :=
  { metadata := { name := "client", generation := generation }
    replicas := some 1
    status := some { observedGeneration := observed, replicas := some 1, updated := some 1,
                     available := some 1, ready := some 1 } }

/-- A controller that reports to have seen the latest generation is believed. -/
theorem servingDeployment_ready :
    (∀ s, (servingDeployment (some 2) (some 2)).status = some s →
      ¬ (servingDeployment (some 2) (some 2)).Unreported s) ∧
    (servingDeployment (some 2) (some 2)).readiness = some (.ok ()) ∧
    ∃ why, (servingDeployment (some 2) (some 1)).readiness.map (·.mapError Failure.notReady) =
      some (.error (.notReady why)) ∧ (Failure.notReady why).retryable = true := by
  have hreported : ∀ s, (servingDeployment (some 2) (some 2)).status = some s →
      ¬ (servingDeployment (some 2) (some 2)).Unreported s := by
    intro s hs
    obtain rfl := Option.some.inj hs
    rintro ⟨hnone, -⟩
    simp [servingDeployment] at hnone
  have hearlier : (servingDeployment (some 2) (some 1)).readiness ≠ some (.ok ()) := by
    intro hready
    cases hready
  have hsome : (servingDeployment (some 2) (some 1)).readiness ≠ none := nofun
  refine ⟨hreported, ((readiness_judges _).2.2.2 hreported).2 ⟨_, rfl, ?_, ?_⟩,
    (readiness_judges _).2.2.1 hearlier hsome⟩
  · exact Int.le_refl 2
  · exact ⟨by decide, by decide, by decide, by decide⟩

/-- A controller that has reported no generation yet is believed as well, although the object has
one that it has not seen. -/
theorem servingDeployment_ready_unseen :
    (servingDeployment (some 2) none).readiness = some (.ok ()) ∧
    ¬ ∃ s, (servingDeployment (some 2) none).status = some s ∧
      (servingDeployment (some 2) none).CaughtUp s ∧
      (servingDeployment (some 2) none).Complete s := by
  refine ⟨rfl, ?_⟩
  rintro ⟨s, hs, hcaught, -⟩
  obtain rfl := Option.some.inj hs
  have hle : (2 : Int) ≤ 0 := hcaught
  lia

end Reachability.Manifest.Deployment
