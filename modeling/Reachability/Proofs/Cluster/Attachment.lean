import Reachability.Cluster.Checks
import Reachability.Proofs.Cluster.Sequence
import Reachability.Proofs.Wait.Retries
import Reachability.Wire.Reply

namespace Reachability

open Wait (Limits Moment Outcome Procedure FailedAttempt World)

variable {α β : Type} {w : World clusterApi} {patience : Nat} {t : FailedAttempt w} {l : Limits}
  {m : Moment w}

namespace Check

/-- A check ends with the failure of an attempt that it comes to, or goes on after it, as the
failure demands; what fails is the call that the attempt begins with. -/
structure Reports (c : Check α) : Prop where
  settles {w : World clusterApi} {patience : Nat} {t : FailedAttempt w} {l : Limits} {m : Moment w}
    (h : c.run.ComesTo patience t l m) (hseen : t.SeenBy patience) :
    t.Settled (c.run.run w patience l m)
  hands_on {w : World clusterApi} {patience : Nat} {t : FailedAttempt w} {l : Limits} {m : Moment w}
    (h : c.run.ComesTo patience t l m) {f : Failure} (hanswered : t.Answered (.error f)) :
    t.failure = f

namespace Reports

/-- A check without waits. -/
theorem of_not_comesTo {c : Check α}
    (h : ∀ {w : World clusterApi} {patience : Nat} {t : FailedAttempt w} {l : Limits}
      {m : Moment w}, ¬ c.run.ComesTo patience t l m) : c.Reports :=
  ⟨fun hcomes => absurd hcomes h, fun hcomes => absurd hcomes h⟩

theorem pure (a : α) : Reports (Pure.pure a : Check α) := of_not_comesTo id

theorem throw (f : Failure) : Reports (MonadExcept.throw f : Check α) := of_not_comesTo id

theorem choose? (l : List α) : (Check.choose? l).Reports := by
  cases l with
  | nil => exact of_not_comesTo id
  | cons a rest => exact of_not_comesTo id

theorem poll (pacing : Nat) (what : String) {probe : Wait.Probe clusterApi α}
    (hprobe : probe.PassesOn) : (Check.poll pacing what probe).Reports where
  settles h hseen := by
    obtain ⟨rfl, rfl, rfl, hof⟩ | ⟨_, _, _, hnever⟩ := h
    · rw [run_poll]
      exact hof.settled hseen
    · exact hnever.elim
  hands_on h _ hanswered := by
    obtain ⟨-, -, -, hof⟩ | ⟨_, _, _, hnever⟩ := h
    · exact hof.failure_eq hanswered hprobe
    · exact hnever.elim

theorem bind {c : Check α} {f : α → Check β} (hc : c.Reports) (hf : ∀ a, (f a).Reports) :
    (c >>= f).Reports where
  settles h hseen := by
    rw [run_bind]
    obtain hfirst | ⟨r, m', hrun, hrest⟩ := Procedure.ComesTo.of_bind h
    · refine (hc.settles hfirst hseen).andThen (fun _ _ => rfl) fun r m' => ?_
      cases r with
      | ok a => exact Procedure.run_precedes ..
      | error e => exact .refl m'
    · have hreturned : c.run.run _ _ _ _ = (.returned r, m') := hrun
      rw [hreturned]
      cases r with
      | ok a => exact (hf a).settles hrest hseen
      | error e => exact hrest.elim
  hands_on h _ hanswered := by
    obtain hfirst | ⟨r, m', -, hrest⟩ := Procedure.ComesTo.of_bind h
    · exact hc.hands_on hfirst hanswered
    · cases r with
      | ok a => exact (hf a).hands_on hrest hanswered
      | error e => exact hrest.elim

theorem within {c : Check α} (hc : c.Reports) (timeout : Nat) :
    (Check.within timeout c).Reports where
  settles h hseen := by
    obtain ⟨d, hclock, hbody | ⟨_, _, _, hnever⟩⟩ := h
    · rw [run_within_of_some hclock]
      exact hc.settles hbody hseen
    · exact hnever.elim
  hands_on h _ hanswered := by
    obtain ⟨d, -, hbody | ⟨_, _, _, hnever⟩⟩ := h
    · exact hc.hands_on hbody hanswered
    · exact hnever.elim

theorem forM {γ : Type} {f : γ → Check Unit} (hf : ∀ a, (f a).Reports) :
    (l : List γ) → (l.forM f).Reports
  | [] => .pure ()
  | a :: l => .bind (hf a) fun _ => forM hf l

end Reports

end Check

/-- The checks that run commands in pods until these succeed. -/
inductive CommandWait where
  | podNames (source target : Pod)
  | clusterNames (pod : Pod)
  | service (i : Inventory) (s : Manifest.Service) (timeout : Nat)
  | nodePorts (i : Inventory) (nodeIP : String) (s : Manifest.Service) (timeout : Nat)
  | identities (agent : Pod) (container : String) (i : Inventory)

def CommandWait.check : CommandWait → Check Unit
  | podNames source target => Check.podNames source target
  | clusterNames pod => Check.clusterNames pod
  | service i s timeout => Check.service i s timeout
  | nodePorts i nodeIP s timeout => Check.nodePorts i nodeIP s timeout
  | identities agent container i => Check.identities agent container i

theorem Check.vantagePod_reports (i : Inventory) : (Check.vantagePod i).Reports := by
  refine .bind (.choose? _) fun pod => ?_
  cases pod with
  | none => exact .throw _
  | some pod => exact .pure pod

theorem Check.command_passesOn (pod : Pod) (container : String) (words : List String) :
    (Check.command pod container words).PassesOn := fun _ => rfl

theorem Check.lookupProbe_passesOn (pod : Pod) (s : Manifest.Service) :
    (Check.lookupProbe pod s).PassesOn := fun _ => rfl

theorem Check.identitiesProbe_passesOn (agent : Pod) (container : String) (i : Inventory) :
    (Check.identitiesProbe agent container i).PassesOn := fun _ => rfl

theorem CommandWait.reports (c : CommandWait) : c.check.Reports := by
  have command (pod : Pod) (container : String) (words : List String) (what : String) :
      Check.Reports (do
        let _ ← Check.poll Wait.defaultPacing what (Check.command pod container words)) :=
    .bind (.poll _ _ (Check.command_passesOn pod container words)) fun _ => .pure ()
  cases c with
  | podNames source target => exact command ..
  | clusterNames pod => exact command ..
  | service i s timeout =>
    refine .bind (Check.vantagePod_reports i) fun pod => ?_
    exact .within (.poll _ _ (Check.lookupProbe_passesOn pod s)) timeout
  | nodePorts i nodeIP s timeout =>
    refine .bind (Check.vantagePod_reports i) fun pod => ?_
    exact .within (.forM (fun port => command ..) s.nodePorts) timeout
  | identities agent container i =>
    exact .poll _ _ (Check.identitiesProbe_passesOn agent container i)

namespace Wire.AttachFailure

/-- The refusal, if the server refuses the request or says that the client is at fault. -/
def refusal? : AttachFailure → Option Refusal
  | .request (.refused r) => some r
  | .request _ => none
  | .notSwitched status =>
    if Status.isClientError status then some (attachRefusal status) else none

/-- A refusal keeps its meaning for the pod; whatever else happens is a failed command. -/
theorem attachFailure_eq (pod : ObjectKey) (words : List String) (why : AttachFailure) :
    attachFailure pod words why =
      match why.refusal? with
      | some r => .ofApi "pod" pod.name (.refused r)
      | none => .exec pod words why.message "" := by
  cases why with
  | request why => cases why <;> rfl
  | notSwitched status =>
    cases h : Status.isClientError status <;> simp [attachFailure, refusal?, h]

end Wire.AttachFailure

/-- An attempt to run a command fails since nobody may attach to the pod. -/
structure Wait.FailedAttempt.Unattached (t : FailedAttempt w) (pod : ObjectKey)
    (words : List String) (why : Wire.AttachFailure) : Prop where
  asks : ∃ cluster container, t.call = ⟨cluster, .exec pod container words⟩
  answered : t.Answered (.error (Wire.attachFailure pod words why))

/-- What a check makes of an attempt that cannot attach to its pod. It goes on as far as the clock
can reckon the pause after the next attempt. -/
structure Wait.FailedAttempt.AttachmentDecides (t : FailedAttempt w) (pod : ObjectKey)
    (words : List String) (why : Wire.AttachFailure)
    (u : Outcome (Except Failure Unit) × Moment w) : Prop where
  rejected (r : Refusal) (h : why.refusal? = some r)
    (hcode : r.code < 500 ∧ r.code ≠ 404 ∧ r.code ≠ 409 ∧ r.code ≠ 429) :
    u = (.returned (.error (.api (.refused r))), t.failed)
  missing (r : Refusal) (h : why.refusal? = some r) (hcode : r.code = 404) :
    t.failure = .notFound "pod" pod.name ∧ (¬ t.Overruns → t.Resumed u)
  deferred (r : Refusal) (h : why.refusal? = some r) (hcode : r.code = 429 ∨ 500 ≤ r.code) :
    t.failure = .api (.refused r) ∧ (¬ t.Overruns → t.Resumed u)
  broken (h : why.refusal? = none) :
    t.failure = .exec pod words why.message "" ∧ (¬ t.Overruns → t.Resumed u)

/-- When nobody may attach to a pod, what the server says decides how a check that runs a command
there goes on, whatever came before. A pod that is forbidden ends the check at once with the words
of the server. A pod that is missing is not found, and like a server that is overloaded or at fault
and a connection that breaks, it is tried again until the wait ends. -/
theorem CommandWait.attachment_decides (c : CommandWait)
    (hcomes : c.check.run.ComesTo patience t l m) (hseen : t.SeenBy patience) {pod : ObjectKey}
    {words : List String} {why : Wire.AttachFailure} (hunattached : t.Unattached pod words why) :
    t.AttachmentDecides pod words why (c.check.run.run w patience l m) := by
  have hsettled := c.reports.settles hcomes hseen
  have hfailure := c.reports.hands_on hcomes hunattached.answered
  rw [Wire.AttachFailure.attachFailure_eq] at hfailure
  have hkept {r : Refusal} (h : why.refusal? = some r) (hfound : r.code ≠ 404)
      (hfree : r.code ≠ 409) : t.failure = .api (.refused r) := by
    rw [hfailure, h]
    exact Failure.ofApi_of_neither (by simp [ApiFailure.isNotFound, hfound])
      (by simp [ApiFailure.isAlreadyExists, hfree])
  constructor
  · rintro r h ⟨hlow, hfound, hfree, hbusy⟩
    have hf := hkept h hfound hfree
    rw [← hf]
    refine hsettled.returned ?_
    simp [hf, Failure.retryable, ApiFailure.retryable, hfound, hfree, hbusy, hlow]
  · intro r h hcode
    have hf : t.failure = .notFound "pod" pod.name := by
      rw [hfailure, h]
      exact Failure.ofApi_of_isNotFound (by simp [ApiFailure.isNotFound, hcode])
    exact ⟨hf, hsettled.resumed (by rw [hf]; rfl)⟩
  · intro r h hcode
    have hf := hkept h (by lia) (by lia)
    refine ⟨hf, hsettled.resumed ?_⟩
    simp only [hf, Failure.retryable, ApiFailure.retryable, Bool.or_eq_true, beq_iff_eq,
      decide_eq_true_eq]
    lia
  · intro h
    have hf : t.failure = .exec pod words why.message "" := by rw [hfailure, h]
    exact ⟨hf, hsettled.resumed (by rw [hf]; rfl)⟩

/-- A cluster on which one attempt to attach to a pod after the other fails, in these ways. -/
def closedCluster : World clusterApi where
  State := List Wire.AttachFailure
  start s c :=
    match c.request, s with
    | .exec pod _ words, why :: rest =>
      (rest, some (5, fun s => (s, .error (Wire.attachFailure pod words why))))
    | _, _ => (s, none)
  choose s _ := (s, ⟨0, Nat.succ_pos _⟩)

def closedPod : Pod :=
  { cluster := ⟨0, "kind"⟩
    object := { metadata := { name := some "client", space := some "cilium-test" } } }

/-- The call by which the pod looks up the name of the API server. -/
def closedCall : Call := ⟨⟨0, "kind"⟩, .exec closedPod.key "" ["nslookup", "kubernetes.default"]⟩

/-- An attempt of that pod, a second after each of those before it. -/
def closedAttempt (k : Nat) (failures : List Wire.AttachFailure) (l : Limits) (f : Failure) :
    FailedAttempt closedCluster where
  limits := l
  pacing := Wait.defaultPacing
  what := "lookup for kubernetes.default from pod " ++ closedPod.key.toString
  call := closedCall
  earlier := k
  begun :=
    { now := k * 1000
      state := failures.drop k
      started := ((List.range k).map fun j => (j * 1000, closedCall)).reverse }
  failed :=
    { now := k * 1000 + 5
      state := failures.drop (k + 1)
      started := ((List.range (k + 1)).map fun j => (j * 1000, closedCall)).reverse }
  failure := f

/-- A broken connection is followed by another attempt, which is forbidden and ends the wait. -/
theorem closedPod_forbidden :
    let failures : List Wire.AttachFailure :=
      [.request (.transport "broken pipe"), .notSwitched 403]
    (Check.clusterNames closedPod).run.run closedCluster 0 { deadline := some 2500 }
        { now := 0, state := failures } =
      (.returned (.error (.api (.refused (Wire.attachRefusal 403)))),
        { now := 1005, state := [], started := [(1000, closedCall), (0, closedCall)] }) := by
  intro failures
  let t := closedAttempt 1 failures { deadline := some 2500 }
    (.api (.refused (Wire.attachRefusal 403)))
  have hof : t.Of (Check.command closedPod "" ["nslookup", "kubernetes.default"])
      { now := 0, state := failures } :=
    ⟨⟨_, rfl⟩, .more ⟨by decide, rfl⟩ rfl rfl (by decide) (.none _), ⟨by decide, by decide⟩,
      rfl⟩
  have hcomes : (Check.clusterNames closedPod).run.ComesTo 0 t { deadline := some 2500 }
      { now := 0, state := failures } := .inl ⟨rfl, rfl, rfl, hof⟩
  have hunattached : t.Unattached closedPod.key ["nslookup", "kubernetes.default"]
      (.notSwitched 403) := ⟨⟨_, _, rfl⟩, ⟨_, _, _, rfl, rfl⟩⟩
  have hdecides := (CommandWait.clusterNames closedPod).attachment_decides hcomes
    (by rintro (h | h) <;> cases h) hunattached
  exact hdecides.rejected (Wire.attachRefusal 403) rfl (by decide)

/-- A pod that is missing is asked for again and again until the time is over, and its absence is
only the last failure that is reported. -/
theorem closedPod_missing :
    let failures := List.replicate 3 (.notSwitched 404)
    let l : Limits := { deadline := some 2500 }
    let start : Moment closedCluster := { now := 0, state := failures }
    let t := closedAttempt 0 failures l (.notFound "pod" "client")
    let u := (Check.clusterNames closedPod).run.run closedCluster 0 l start
    (Check.clusterNames closedPod).run.ComesTo 0 t l start ∧
      t.Unattached closedPod.key ["nslookup", "kubernetes.default"] (.notSwitched 404) ∧
      t.failed.now = 5 ∧ u.1 = .returned (.error (.deadlineExceeded t.what t.failure)) ∧
      u.2.now = 2500 ∧ u.2.calls.map (·.1) = [0, 1000, 2000] := by
  intro failures l start t u
  have hof : t.Of (Check.command closedPod "" ["nslookup", "kubernetes.default"]) start :=
    ⟨⟨_, rfl⟩, .none _, ⟨by decide, rfl⟩, rfl⟩
  exact ⟨.inl ⟨rfl, rfl, rfl, hof⟩, ⟨⟨_, _, rfl⟩, ⟨_, _, _, rfl, rfl⟩⟩, rfl, by decide +kernel,
    by decide +kernel, by decide +kernel⟩

end Reachability
