import Reachability.Proofs.Cluster.Allotment
import Reachability.Proofs.Validation.Network
import Reachability.Wait.Script

namespace Reachability

open Wait (Instant Limits Session after? defaultPacing endpointPacing)

namespace Settings

/-- What the settings allow for one wait each, in seconds. -/
def timeouts (s : Settings) : List UInt64 :=
  [s.podReadyTimeout, s.endpointTimeout, s.identityTimeout, s.serviceReadyTimeout]

/-- What a validation adds to the clock: one of the timeouts in milliseconds, or a pause between two
attempts. -/
inductive Allows (s : Settings) : Nat → Prop
  | timeout {seconds : UInt64} (h : seconds ∈ s.timeouts) : Allows s (milliseconds seconds)
  | pause {pacing : Nat} (h : pacing ∈ [defaultPacing, endpointPacing]) : Allows s pacing

theorem allowsPauses (s : Settings) : AllowsPauses s.Allows :=
  ⟨.pause (by simp), .pause (by simp)⟩

theorem allows_podReadyTime (s : Settings) : s.Allows s.podReadyTime :=
  .timeout (by simp [timeouts])

theorem allows_endpointTime (s : Settings) : s.Allows s.endpointTime :=
  .timeout (by simp [timeouts])

theorem allows_identityTime (s : Settings) : s.Allows s.identityTime :=
  .timeout (by simp [timeouts])

theorem allows_serviceReadyTime (s : Settings) : s.Allows s.serviceReadyTime :=
  .timeout (by simp [timeouts])

/-- The clock counts whole seconds, so what it has counted of the current one does not matter. -/
theorem after?_milliseconds_eq_none_iff {now : Instant} {seconds : UInt64} :
    after? now (milliseconds seconds) = none ↔ Nat.pow 2 63 ≤ now / 1000 + seconds.toNat := by
  rw [Wait.after?_eq_none_iff, milliseconds, Nat.add_mul_div_right _ _ (by decide)]

end Settings

namespace Survey

variable (clients : Clients) (settings : Settings) (features : FeatureSet)

theorem listPods_allots {allowed : Nat → Prop} (what : String) (cluster : Cluster)
    (ns selector : String) : (listPods what cluster ns selector).Allots allowed :=
  .bind (.request ..) fun _ => .pure _

theorem agentPods_allots : (agentPods clients settings).Allots settings.Allows :=
  .forM (fun _ => .bind (listPods_allots ..) fun _ => .record _) _

theorem deployments_allots (cluster : Cluster) (names : List String) :
    (deployments cluster settings names).Allots settings.Allows := by
  unfold deployments
  split
  · exact .pure ()
  · exact .check (Check.deployments_allots settings.allowsPauses settings.allows_podReadyTime ..)

theorem endpoint_allots (pod : Pod) : (endpoint settings pod).Allots settings.Allows :=
  .check (Check.endpoint_allots settings.allowsPauses settings.allows_endpointTime ..)

theorem performancePods_allots : (performancePods clients settings).Allots settings.Allows :=
  .bind (listPods_allots ..) fun _ =>
    .forM (fun pod => .ite_bind (endpoint_allots settings pod) fun _ => .record _) _

theorem clientPods_allots : (clientPods clients settings).Allots settings.Allows :=
  .bind (listPods_allots ..) fun _ =>
    .forM (fun pod => .bind (endpoint_allots settings pod) fun _ => .record _) _

theorem singleEchoPod_allots (cluster : Cluster) (deployment what : String) :
    (singleEchoPod cluster settings deployment what).Allots settings.Allows := by
  refine .bind (listPods_allots ..) fun pods => ?_
  split
  · exact .pure _
  · exact .throw _

theorem podNames_allots (target : Pod) : (podNames settings target).Allots settings.Allows :=
  .bind .inventory fun _ => .check <| .within settings.allows_identityTime <|
    .forM (fun source => Check.podNames_allots settings.allowsPauses source target) _

theorem echoPodNames_allots (cluster : Cluster) (deployment what : String) :
    (echoPodNames cluster settings deployment what).Allots settings.Allows :=
  .bind (singleEchoPod_allots settings ..) fun target => podNames_allots settings target

theorem clusterNames_allots : (clusterNames settings).Allots settings.Allows :=
  .bind .inventory fun _ => .check <| .within settings.allows_identityTime <|
    .forM (fun source => Check.clusterNames_allots settings.allowsPauses source) _

theorem externalEchoPods_allots : (externalEchoPods clients settings).Allots settings.Allows :=
  .bind (listPods_allots ..) fun _ => .record _

theorem echoPods_allots : (echoPods clients settings).Allots settings.Allows :=
  .forM (fun _ => .bind (listPods_allots ..) fun _ =>
    .forM (fun pod => .bind (endpoint_allots settings pod) fun _ => .record _) _) _

theorem echoServices_allots : (echoServices clients settings).Allots settings.Allows :=
  .forM (fun _ => .bind (.request ..) fun _ => .record _) _

theorem resolvedServices_allots : (resolvedServices settings).Allots settings.Allows :=
  .bind .inventory fun i =>
    .forM (fun s => .check
      (Check.service_allots settings.allowsPauses settings.allows_serviceReadyTime i s)) _

theorem ingressServices_allots : (ingressServices clients settings).Allots settings.Allows :=
  .bind (.request ..) fun _ => .record _

theorem nodePorts_allots : (nodePorts settings).Allots settings.Allows := by
  refine .bind .inventory fun i => .forM (fun agent => ?_) _
  split
  · exact .pure ()
  · exact .forM
      (fun s => .check
        (Check.nodePorts_allots settings.allowsPauses settings.allows_serviceReadyTime i _ s)) _

theorem hostNetworkPods_allots : (hostNetworkPods clients settings).Allots settings.Allows :=
  .bind (listPods_allots ..) fun _ => .record _

theorem externalWorkloads_allots : (externalWorkloads clients).Allots settings.Allows := by
  refine .forM (fun cluster => .bind (.check (.attempt (.request ..))) fun answer => ?_) _
  split
  · exact .record _
  · split
    · exact .pure ()
    · exact .throw _

theorem identities_allots : (identities settings).Allots settings.Allows :=
  .bind .inventory fun i => .check <| .within settings.allows_identityTime <|
    .forM (fun agent => Check.identities_allots settings.allowsPauses agent _ i) _

theorem connectivity_allots :
    (connectivity clients settings features).Allots settings.Allows := by
  refine .bind (clientPods_allots clients settings) fun _ => ?_
  refine .bind (echoPodNames_allots settings ..) fun _ => ?_
  refine .ite_bind (echoPodNames_allots settings ..) fun _ => ?_
  refine .ite_bind (externalEchoPods_allots clients settings) fun _ => ?_
  refine .bind (clusterNames_allots settings) fun _ => ?_
  refine .bind (echoPods_allots clients settings) fun _ => ?_
  refine .bind (echoServices_allots clients settings) fun _ => ?_
  refine .bind (resolvedServices_allots settings) fun _ => ?_
  refine .ite_bind (ingressServices_allots clients settings) fun _ => ?_
  refine .ite_bind (nodePorts_allots settings) fun _ => ?_
  refine .bind (hostNetworkPods_allots clients settings) fun _ => ?_
  refine .bind (externalWorkloads_allots clients settings) fun _ => ?_
  split
  · exact identities_allots settings
  · exact .pure ()

end Survey

/-- Whatever a validation allows a wait comes from the settings. -/
theorem validate_allots (clients : Clients) (settings : Settings) (features : FeatureSet) :
    (validate clients settings features).Allots settings.Allows := by
  refine .bind (Survey.agentPods_allots clients settings) fun _ => ?_
  refine .bind (Survey.deployments_allots settings ..) fun _ => ?_
  refine .bind (Survey.deployments_allots settings ..) fun _ => ?_
  split
  · exact Survey.performancePods_allots clients settings
  · exact Survey.connectivity_allots clients settings features

/-- A validation, from whatever inventory, crashes only once the clock cannot reckon one of the
timeouts of the settings or a pause, or right after a deployment that cannot be judged. -/
theorem validate_crashesBy (clients : Clients) (settings : Settings) (features : FeatureSet)
    (i : Inventory) (w : Wait.World clusterApi) (patience : Nat) (l : Limits)
    (m : Wait.Moment w) :
    Wait.CrashesBy settings.Allows FindsUncountable
      (((validate clients settings features).run.run i).run w patience l m) :=
  Wait.Procedure.Allots.run ((validate_allots clients settings features).allots i) patience l m

/-- A timeout of the settings makes a context, with a deadline no later than the other's, where the
clock can reckon its end, and crashes where it cannot; and whatever the clusters do, a validation
crashes only after the clock has gone too far for one of the timeouts or for a pause between two
attempts, or when it has just been told of a deployment of which it cannot count the replicas left
over. -/
theorem crashes_at_timeouts (settings : Settings) :
    (∀ seconds ∈ settings.timeouts, ∀ (α : Type) (s : Session) (i : Nat)
      (cancellation : Option (Nat × Nat)),
      let step := s.act (α := α) cancellation (.child i (Settings.milliseconds seconds))
      (step.2 = .crashed ↔ Nat.pow 2 63 ≤ s.now / 1000 + seconds.toNat) ∧
      (s.now / 1000 + seconds.toNat < Nat.pow 2 63 →
        step = (s.withContext
          (s.tokens.child (s.context i) (s.now + Settings.milliseconds seconds)), .nothing))) ∧
    ∀ (clients : Clients) (features : FeatureSet) (i : Inventory) (w : Wait.World clusterApi)
      (patience : Nat) (l : Limits) (m : Wait.Moment w),
      let run := ((validate clients settings features).run.run i).run w patience l m
      run.1 = .crashed →
        (∃ seconds ∈ settings.timeouts, Nat.pow 2 63 ≤ run.2.now / 1000 + seconds.toNat) ∨
        (∃ pacing ∈ [defaultPacing, endpointPacing],
          Nat.pow 2 63 ≤ (run.2.now + pacing) / 1000) ∨
        run.2.EndsBadly FindsUncountable := by
  refine ⟨fun seconds _ α s i cancellation => ?_, fun clients features i w patience l m => ?_⟩
  · rw [← Settings.after?_milliseconds_eq_none_iff, ← Nat.not_le,
      ← Settings.after?_milliseconds_eq_none_iff]
    cases hclock : after? s.now (Settings.milliseconds seconds) with
    | none => simp [Session.act, hclock]
    | some d => simp [Session.act, hclock, Wait.eq_of_after?_eq_some hclock]
  · intro run hcrashed
    rcases validate_crashesBy clients settings features i w patience l m hcrashed with
      ⟨_, hallows, hclock⟩ | hbad
    · cases hallows with
      | timeout hmem => exact .inl ⟨_, hmem, Settings.after?_milliseconds_eq_none_iff.1 hclock⟩
      | pause hmem => exact .inr (.inl ⟨_, hmem, Wait.after?_eq_none_iff.1 hclock⟩)
    · exact .inr (.inr hbad)

/-- The longest timeout that the settings can hold. -/
def endlessSettings : Settings :=
  { singleNode := true, podReadyTimeout := 18446744073709551615 }

/-- It is too long for a clock that has only just started: it makes no context, and a validation of
a network where everything works crashes. -/
theorem endless_timeout_crashes :
    (∃ (s : Session) (i : Nat) (cancellation : Option (Nat × Nat)), s.now / 1000 < Nat.pow 2 63 ∧
      ∃ seconds ∈ endlessSettings.timeouts,
        (s.act (α := Unit) cancellation (.child i (Settings.milliseconds seconds))).2 = .crashed) ∧
    (((validate calmClients endlessSettings ∅).run.run ∅).run calmNetwork 0 {} ⟨0, (), []⟩).1 =
      .crashed := by
  refine ⟨⟨{ contexts := [{ token := 0 }], tokens := { next := 1 } }, 0, none, by decide,
    18446744073709551615, by decide, ?_⟩, by decide +kernel⟩
  have hclock : after? 0 (Settings.milliseconds 18446744073709551615) = none := by decide
  simp only [Session.act, hclock]

end Reachability
