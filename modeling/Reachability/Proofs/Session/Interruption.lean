import Reachability.Proofs.Cluster.Interruption
import Reachability.Proofs.Topology.Plan
import Reachability.Session

namespace Reachability

open Wait (Interrupt Interrupted Limits Instant)
open Manifest (Kind)
open Reachability.Topology (Item)

theorem absent_of_interrupted {i : Interrupt} {lookup : Except Failure α}
    (h : Interrupted i lookup) : Interrupted i (absent lookup) := by
  obtain ⟨what, last, rfl⟩ := h
  exact ⟨what, last, by simp [absent]⟩

theorem created_of_interrupted {i : Interrupt} {creation : Except Failure α}
    (h : Interrupted i creation) : Interrupted i (created creation) := by
  obtain ⟨what, last, rfl⟩ := h
  exact ⟨what, last, by simp [created]⟩

theorem createObject_heeds (cluster : Cluster) (ns : String) (o : Manifest.Object) :
    (createObject cluster ns o).Heeds :=
  .attempt_bind (.request _ _ _) (fun _ => .ofExcept _)
    fun _ _ h => .ofExcept (created_of_interrupted h)

theorem make_heeds (cluster : Cluster) (ns : String) (item : Item) :
    (make cluster ns item).Heeds :=
  .bind (.forM (createObject_heeds cluster ns) _) fun _ => .ite (.record _)

theorem ensure_heeds (cluster : Cluster) (ns : String) (item : Item) :
    (ensure cluster ns item).Heeds :=
  .attempt_bind (.request _ _ _)
    (fun _ => .bind (.ofExcept _) fun _ => .ite (make_heeds cluster ns item))
    fun _ _ h => .bind (.ofExcept (absent_of_interrupted h))

theorem ensure_halts (i : Interrupt) (cluster : Cluster) (ns : String) (item : Item) :
    (ensure cluster ns item).Halts i :=
  .attempt_bind (.request _ _ _ _) fun _ h => .bind (.ofExcept (absent_of_interrupted h))

/-- The question whether a namespace is there is not passed over if it is interrupted. -/
theorem awaitGone_heeds (cluster : Cluster) (ns : String) : (awaitGone cluster ns).Heeds := by
  refine Check.Heeds.attempt_bind (.request ..) (fun r => ?_) ?_
  · split
    · exact .poll (by decide) _ _
    · split
      · exact .throw _
      · exact .pure ()
  · rintro i r ⟨what, last, rfl⟩
    simp only [endsWait_interrupt, if_true]
    exact .throw ⟨what, last, rfl⟩

theorem awaitGone_halts (i : Interrupt) (cluster : Cluster) (ns : String) :
    (awaitGone cluster ns).Halts i := by
  refine Check.Halts.attempt_bind (.request ..) ?_
  rintro r ⟨what, last, rfl⟩
  simp only [endsWait_interrupt, if_true]
  exact .throw ⟨what, last, rfl⟩

/-- Interrupted deletions are passed over, but not the interruption. -/
theorem teardown_heeds (cluster : Cluster) (ns : String) : (teardown cluster ns).Heeds :=
  Check.HeedsTo.bind
    (.forM_passedOver (fun _ => .passOver (.request ..)) (fun _ _ => .passOver (.request ..)) _)
    (fun _ => awaitGone_heeds cluster ns) (fun i _ _ => awaitGone_halts i cluster ns)
    fun _ _ h => nomatch h

theorem teardown_halts (i : Interrupt) (cluster : Cluster) (ns : String) :
    (teardown cluster ns).Halts i :=
  Check.HaltsTo.bind (.forM_passedOver (fun _ => .passOver (.request ..)) _)
    (fun _ _ => awaitGone_halts i cluster ns) fun _ h => nomatch h

/-- Teardowns of all clusters. -/
theorem teardowns_heed (clients : Clients) (ns : String) :
    Survey.Heeds (clients.distinct.forM fun cluster => Survey.check (teardown cluster ns)) :=
  .forM (fun cluster => .check (teardown_heeds cluster ns)) _

theorem chooseZone_heeds (clients : Clients) (settings : Settings) :
    (chooseZone clients settings).Heeds := by
  unfold chooseZone
  split
  · exact .map (.request _ _ _) _
  · exact .pure _

theorem takeSteps_heeds (clients : Clients) (ns : String) (steps : List (Topology.Side × Item)) :
    (takeSteps clients ns steps).Heeds :=
  .forM (fun _ => ensure_heeds _ _ _) _

theorem deploy_heeds (clients : Clients) (settings : Settings) (features : FeatureSet) :
    (deploy clients settings features).Heeds := by
  have hcreate : Survey.Heeds (do
      let plan := Topology.plan settings features (← chooseZone clients settings)
      takeSteps clients settings.testNamespace plan.steps
      return plan) :=
    .bind (chooseZone_heeds clients settings) fun zone =>
      .bind (takeSteps_heeds clients settings.testNamespace _) fun _ => .pure _
  unfold deploy
  dsimp only
  split
  · exact .bind (teardowns_heed clients settings.testNamespace) fun _ => hcreate
  · exact hcreate

theorem Clients.distinct_eq_cons (clients : Clients) :
    ∃ rest, clients.distinct = clients.source :: rest := by
  unfold distinct
  split
  · exact ⟨[], rfl⟩
  · exact ⟨[clients.destination], rfl⟩

theorem teardowns_halt (i : Interrupt) (clients : Clients) (ns : String) :
    Survey.Halts i (clients.distinct.forM fun cluster => Survey.check (teardown cluster ns)) := by
  obtain ⟨rest, hdistinct⟩ := clients.distinct_eq_cons
  rw [hdistinct]
  exact .forM_cons (.check (teardown_halts i clients.source ns))

/-- The first thing that a deployment does is a request whose interruption ends it. -/
theorem deploy_halts (i : Interrupt) (clients : Clients) (settings : Settings)
    (features : FeatureSet) : (deploy clients settings features).Halts i := by
  unfold deploy
  dsimp only
  split
  · exact (teardowns_halt i clients settings.testNamespace).bind
  · unfold chooseZone
    split
    · exact Survey.Halts.bind (.bind (.request i _ _ _))
    · obtain ⟨rest, hsteps⟩ := Topology.plan_steps_eq_cons settings features ""
      have hzone : Survey.HaltsTo i (pure "") fun r => r = .ok "" := ⟨fun _ => rfl⟩
      refine hzone.bind ?_ nofun
      intro zone hzone
      cases hzone
      rw [hsteps]
      have hfirst := ensure_halts i clients.source settings.testNamespace
        (.space settings.testNamespace)
      exact Survey.Halts.bind (.forM_cons hfirst)

namespace Survey

theorem listPods_heeds (what : String) (cluster : Cluster) (ns selector : String) :
    (listPods what cluster ns selector).Heeds :=
  .bind (.request _ _ _) fun _ => .pure _

theorem agentPods_heeds (clients : Clients) (settings : Settings) :
    (agentPods clients settings).Heeds :=
  .forM (fun _ => .bind (listPods_heeds _ _ _ _) fun _ => .record _) _

theorem deployments_heeds (cluster : Cluster) (settings : Settings) (names : List String) :
    (deployments cluster settings names).Heeds := by
  unfold deployments
  split
  · exact .pure ()
  · exact .check (Check.deployments_heeds _ _ _ _)

theorem endpoint_heeds (settings : Settings) (pod : Pod) : (endpoint settings pod).Heeds :=
  .check (Check.endpoint_heeds _ _ _)

theorem performancePods_heeds (clients : Clients) (settings : Settings) :
    (performancePods clients settings).Heeds := by
  refine .bind (listPods_heeds _ _ _ _) fun pods => .forM (fun pod => ?_) _
  cases !settings.performanceHostNetwork with
  | false => exact .record _
  | true => exact .bind (endpoint_heeds settings pod) fun _ => .record _

theorem clientPods_heeds (clients : Clients) (settings : Settings) :
    (clientPods clients settings).Heeds :=
  .bind (listPods_heeds _ _ _ _) fun _ =>
    .forM (fun pod => .bind (endpoint_heeds settings pod) fun _ => .record _) _

theorem singleEchoPod_heeds (cluster : Cluster) (settings : Settings) (deployment what : String) :
    (singleEchoPod cluster settings deployment what).Heeds := by
  refine .bind (listPods_heeds _ _ _ _) fun pods => ?_
  split
  · exact .pure _
  · exact .throw _

theorem podNames_heeds (settings : Settings) (target : Pod) : (podNames settings target).Heeds :=
  .bind .inventory fun _ => .check (.within (.forM (fun _ => Check.podNames_heeds _ _) _) _)

theorem echoPodNames_heeds (cluster : Cluster) (settings : Settings) (deployment what : String) :
    (echoPodNames cluster settings deployment what).Heeds :=
  .bind (singleEchoPod_heeds _ _ _ _) fun pod => podNames_heeds settings pod

theorem clusterNames_heeds (settings : Settings) : (clusterNames settings).Heeds :=
  .bind .inventory fun _ => .check (.within (.forM Check.clusterNames_heeds _) _)

theorem externalEchoPods_heeds (clients : Clients) (settings : Settings) :
    (externalEchoPods clients settings).Heeds :=
  .bind (listPods_heeds _ _ _ _) fun _ => .record _

theorem echoPods_heeds (clients : Clients) (settings : Settings) :
    (echoPods clients settings).Heeds :=
  .forM (fun _ => .bind (listPods_heeds _ _ _ _) fun _ =>
    .forM (fun pod => .bind (endpoint_heeds settings pod) fun _ => .record _) _) _

theorem echoServices_heeds (clients : Clients) (settings : Settings) :
    (echoServices clients settings).Heeds :=
  .forM (fun _ => .bind (.request _ _ _) fun _ => .record _) _

theorem resolvedServices_heeds (settings : Settings) : (resolvedServices settings).Heeds :=
  .bind .inventory fun i => .forM (fun s => .check (Check.service_heeds i s _)) _

theorem ingressServices_heeds (clients : Clients) (settings : Settings) :
    (ingressServices clients settings).Heeds :=
  .bind (.request _ _ _) fun _ => .record _

theorem nodePorts_heeds (settings : Settings) : (nodePorts settings).Heeds := by
  refine .bind .inventory fun i => .forM (fun agent => ?_) _
  split
  · exact .pure ()
  · exact .forM (fun s => .check (Check.nodePorts_heeds i _ s _)) _

theorem hostNetworkPods_heeds (clients : Clients) (settings : Settings) :
    (hostNetworkPods clients settings).Heeds :=
  .bind (listPods_heeds _ _ _ _) fun _ => .record _

/-- An interruption is no sign that a cluster does not know of external workloads. -/
theorem externalWorkloads_heeds (clients : Clients) : (externalWorkloads clients).Heeds := by
  refine .forM (fun cluster => Heeds.attempt_bind (.request ..) (fun r => ?_) ?_) _
  · split
    · exact .record _
    · split
      · exact .pure ()
      · exact .throw _
  · rintro i r ⟨what, last, rfl⟩
    simp only [isNotFound_interrupt, Bool.false_eq_true, if_false]
    exact .throw ⟨what, last, rfl⟩

theorem identities_heeds (settings : Settings) : (identities settings).Heeds :=
  .bind .inventory fun i =>
    .check (.within (.forM (fun agent => Check.identities_heeds agent _ i) _) _)

theorem connectivity_heeds (clients : Clients) (settings : Settings) (features : FeatureSet) :
    (connectivity clients settings features).Heeds := by
  refine .bind (clientPods_heeds clients settings) fun _ => ?_
  refine .bind (echoPodNames_heeds _ settings _ _) fun _ => ?_
  refine .ite_bind (echoPodNames_heeds _ settings _ _) fun _ => ?_
  refine .ite_bind (externalEchoPods_heeds clients settings) fun _ => ?_
  refine .bind (clusterNames_heeds settings) fun _ => ?_
  refine .bind (echoPods_heeds clients settings) fun _ => ?_
  refine .bind (echoServices_heeds clients settings) fun _ => ?_
  refine .bind (resolvedServices_heeds settings) fun _ => ?_
  refine .ite_bind (ingressServices_heeds clients settings) fun _ => ?_
  refine .ite_bind (nodePorts_heeds settings) fun _ => ?_
  refine .bind (hostNetworkPods_heeds clients settings) fun _ => ?_
  refine .bind (externalWorkloads_heeds clients) fun _ => ?_
  exact .ite (identities_heeds settings)

end Survey

theorem validate_heeds (clients : Clients) (settings : Settings) (features : FeatureSet) :
    (validate clients settings features).Heeds := by
  refine .bind (Survey.agentPods_heeds clients settings) fun _ => ?_
  refine .bind (Survey.deployments_heeds _ settings _) fun _ => ?_
  refine .bind (Survey.deployments_heeds _ settings _) fun _ => ?_
  split
  · exact Survey.performancePods_heeds clients settings
  · exact Survey.connectivity_heeds clients settings features

theorem runAll_heeds (clients : Clients) (settings : Settings) (features : FeatureSet) :
    (runAll clients settings features).Heeds := by
  refine .bind (deploy_heeds clients settings features) fun _ => ?_
  refine .bind (validate_heeds clients settings features) fun _ => ?_
  exact .ite (teardowns_heed clients settings.testNamespace)

theorem runAll_halts (i : Interrupt) (clients : Clients) (settings : Settings)
    (features : FeatureSet) : (runAll clients settings features).Halts i :=
  .bind (deploy_halts i clients settings features)

theorem run_heeds (clients : Clients) (settings : Settings) (features : FeatureSet) :
    (run clients settings features).Heeds := by
  refine ⟨Wait.Procedure.Heeds.bind ((runAll_heeds clients settings features).heeds ∅) ?_ ?_⟩
  · rintro ⟨e | _, inventory⟩
    · exact trivial
    · exact trivial
  · rintro i ⟨e | _, inventory⟩ hstopped
    · exact Check.interrupted_error hstopped
    · exact absurd hstopped Check.not_interrupted_ok

theorem run_halts (i : Interrupt) (clients : Clients) (settings : Settings)
    (features : FeatureSet) : (run clients settings features).Halts i := by
  refine ⟨Wait.Procedure.Halts.bind ((runAll_halts i clients settings features).halts ∅) ?_⟩
  rintro ⟨e | _, inventory⟩ hstopped
  · exact Check.interrupted_error hstopped
  · exact absurd hstopped Check.not_interrupted_ok

/-- Under limits that end at `e`, a run is the one that nothing ends, cut off there: with the same
end if that comes earlier, and otherwise with the calls made before `e`, none after that, and the
interruption as its failure. -/
theorem run_cut_exactly (w : Wait.World clusterApi) (clients : Clients) (settings : Settings)
    (features : FeatureSet) {l : Limits} {e : Instant} (hends : l.endsAt = some e)
    {patience : Nat} (hpatience : e < patience) (patience' : Nat) (t : Instant) (s : w.State) :
    let free := (run clients settings features).run.run w patience {} ⟨t, s, []⟩
    let limited := (run clients settings features).run.run w patience' l ⟨t, s, []⟩
    (free.1 ≠ .stalled → free.2.now < e → limited = free) ∧
      (free.1 = .stalled ∨ e ≤ free.2.now →
        ∃ (i : Interrupt) (what : String) (last : Option Failure),
          limited.1 = .returned (.error (i.failure what last)) ∧
          (i = .cancelled ↔ ∃ c, l.cancelledAt = some c ∧
            (c ≤ t ∨ ∀ d, l.deadline = some d → c ≤ d)) ∧
          limited.2.now = max e t ∧
          limited.2.calls = free.2.calls.filter fun c => decide (c.1 < e)) := by
  have hcut := (run_heeds clients settings features).heeds.cutsExactly
    (fun i => (run_halts i clients settings features).halts) hends hpatience patience' t s
  refine ⟨hcut.unaffected, fun hlate => ?_⟩
  obtain ⟨_, hreturned, ⟨what, last, rfl⟩, hnow, hcalls⟩ := hcut.interrupted hlate
  exact ⟨_, what, last, hreturned, Limits.interrupt_max_eq_cancelled_iff t hends, hnow, hcalls⟩

/-- Clusters whose connections break after two milliseconds each. -/
def brokenClusters : Wait.World clusterApi where
  State := Unit
  start _ _ := ((), some (2, fun _ => ((), .error (.api (.transport "broken")))))
  choose _ _ := ((), ⟨0, Nat.succ_pos _⟩)

/-- The first teardown is cut off after its third deletion. -/
theorem brokenClusters_run_cancelled :
    ∃ what last,
      let limited := (run (.single ⟨0, "kind"⟩) { forceDeploy := true } ∅).run.run brokenClusters 0
        { cancelledAt := some 5, deadline := some 5 } ⟨0, (), []⟩
      limited.1 = .returned (.error (.cancelled what last)) ∧ limited.2.now = 5 ∧
        limited.2.calls.map (·.1) = [0, 2, 4] := by
  obtain ⟨i, what, last, hreturned, hi, hnow, hcalls⟩ :=
    (run_cut_exactly brokenClusters (.single ⟨0, "kind"⟩) { forceDeploy := true } ∅
      (l := { cancelledAt := some 5, deadline := some 5 }) rfl (Nat.lt_succ_self 5) 0 0 ()).2
      (.inr (by decide +kernel))
  obtain rfl : i = .cancelled := hi.2 ⟨5, rfl, .inr fun d hd => Nat.le_of_eq (Option.some.inj hd)⟩
  refine ⟨what, _, hreturned, hnow, ?_⟩
  rw [hcalls]
  decide +kernel

end Reachability
