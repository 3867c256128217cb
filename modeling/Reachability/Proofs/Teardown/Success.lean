import Reachability.Proofs.Cluster.Settlement
import Reachability.Proofs.Session.Removal

namespace Reachability

open Simulation
open Wait (Instant Limits Moment Outcome Procedure Settles World)

variable {ns : String}

/-- The question whether a namespace is there. -/
def spaceLookup (cluster : Cluster) (ns : String) : Call := ⟨cluster, .get .space ⟨"", ns⟩⟩

/-- A look-up has failed after these exchanges. A failure that reads as if the wait had ended counts
only if the namespace had been found before. -/
def LookupFails (cluster : Cluster) (ns : String) (before : List Exchange) (f : Failure) : Prop :=
  f.endsWait = true → ∃ found, ⟨spaceLookup cluster ns, .ok found⟩ ∈ before

/-- The last look-up of the namespace on the cluster has failed. -/
def LastLookupFails (cluster : Cluster) (ns : String) (exchanges : List Exchange) : Prop :=
  ∃ before f after, exchanges = before ++ ⟨spaceLookup cluster ns, .error f⟩ :: after ∧
    LookupFails cluster ns before f ∧ ∀ x ∈ after, x.call ≠ spaceLookup cluster ns

theorem LastLookupFails.cons {cluster : Cluster} {exchanges : List Exchange}
    (h : LastLookupFails cluster ns exchanges) (earlier : List Exchange) :
    LastLookupFails cluster ns (earlier ++ exchanges) := by
  obtain ⟨before, f, after, rfl, hf, hafter⟩ := h
  refine ⟨earlier ++ before, f, after, (List.append_assoc ..).symm, fun hends => ?_, hafter⟩
  obtain ⟨found, hfound⟩ := hf hends
  exact ⟨found, List.mem_append_right _ hfound⟩

section Runs

variable {w : World clusterApi} {cluster : Cluster} {patience : Nat} {l : Limits}
  {m m' : Moment w.recorded}

theorem run_deletions_attended {subjects : List (Manifest.Kind × String)} {r : Except Failure Unit}
    (hm : m.Attended l)
    (hrun : (deletions cluster ns subjects).run.run w.recorded patience l m = (.returned r, m')) :
    m'.Attended l := by
  induction subjects generalizing m with
  | nil =>
    cases hrun
    exact hm
  | cons subject subjects ih =>
    rw [deletions_cons, Check.run_bind, passDeletion, Check.run_attempt_bind] at hrun
    rcases hfirst : Wait.raceOnce w.recorded l (subject.1.phrase ++ " deletion")
      (probe cluster (deletionOf cluster ns subject).request) m with ⟨answer | _ | _, m₁⟩ <;>
      rw [hfirst] at hrun
    · exact ih (Wait.raceOnce_settles hm hfirst).attended hrun
    · cases hrun
    · cases hrun

/-- If the wait for it to go succeeds, every look-up of the namespace has been answered. -/
theorem run_awaitGone_answered (hm : m.Attended l)
    (hrun : (awaitGone cluster ns).run.run w.recorded patience l m = (.returned (.ok ()), m')) :
    m'.Answered := by
  rw [awaitGone, Check.run_attempt_bind] at hrun
  rcases hfirst : Wait.raceOnce w.recorded l "namespace lookup"
    (probe cluster (.get .space ⟨"", ns⟩)) m with ⟨answer | _ | _, m₁⟩ <;> rw [hfirst] at hrun
  · have hsettles := Wait.raceOnce_settles hm hfirst
    cases answer with
    | ok found =>
      have hpoll := (Check.run_poll patience l m₁ ..).symm.trans hrun
      refine (Wait.pollFrom_settles hsettles.attended hpoll).resolve_right ?_
      rintro ⟨-, i, hinterrupted⟩
      exact Check.not_interrupted_ok hinterrupted
    | error f =>
      cases hends : f.endsWait with
      | true =>
        simp only [Wait.andThen, hends, if_true] at hrun
        cases hrun
      | false =>
        simp only [Wait.andThen, hends, Bool.false_eq_true, if_false] at hrun
        cases hrun
        refine hsettles.resolve_right ?_
        rintro ⟨-, i, what, last, heq⟩
        cases heq
        simp at hends
  · cases hrun
  · cases hrun

/-- A teardown that succeeds has got all its answers, the last of which is a failed look-up. -/
theorem run_teardown_answered (hm : m.Attended l)
    (hrun : (teardown cluster ns).run.run w.recorded patience l m = (.returned (.ok ()), m')) :
    m'.Answered ∧ ∃ before f,
      m'.record = m.record ++ (before ++ [⟨spaceLookup cluster ns, .error f⟩]) ∧
      LookupFails cluster ns before f ∧ ∀ x ∈ before, x.call.cluster = cluster := by
  constructor
  · rw [teardown_eq, Check.run_bind] at hrun
    rcases hfirst : (deletions cluster ns (everything ns)).run.run w.recorded patience l m with
      ⟨⟨e | _⟩ | _ | _, m₁⟩ <;> rw [hfirst] at hrun
    · cases hrun
    · exact run_awaitGone_answered (run_deletions_attended hm hfirst) hrun
    · cases hrun
    · cases hrun
  · obtain ⟨exchanges, hadmits, hrecord⟩ :=
      Procedure.run_accounted (Wait.recorded_keeps w m.record) hrun [] (List.append_nil _).symm
    have hcluster := (teardown_confined cluster ns).asks.asks _ _ hadmits
    obtain ⟨deleted, after, e | _, rfl, -, hafter⟩ :=
      Procedure.Admits.of_bind (b := Except.ok ()) hadmits
    · cases hafter.2
    · obtain ⟨before, f, rfl, hf⟩ := awaitGone_last hafter
      refine ⟨deleted ++ before, f, ?_, fun hends => ?_, fun x hx => (hcluster x ?_).1⟩
      · rw [List.append_assoc]
        exact hrecord
      · obtain ⟨found, hfound⟩ := hf hends
        exact ⟨found, List.mem_append_right _ hfound⟩
      · rw [← List.append_assoc]
        exact List.mem_append_left _ hx

/-- Teardowns of clusters that are told apart, one after the other. -/
theorem run_teardowns_answered {clusters : List Cluster} (hnodup : clusters.Nodup)
    {i i' : Inventory} (hm : m.Answered)
    (hrun : ((clusters.forM fun cluster => Survey.check (teardown cluster ns)).run.run i).run
      w.recorded patience l m = (.returned (.ok (), i'), m')) :
    m'.Answered ∧ ∃ exchanges, m'.record = m.record ++ exchanges ∧
      (∀ x ∈ exchanges, x.call.cluster ∈ clusters) ∧
      ∀ cluster ∈ clusters, LastLookupFails cluster ns exchanges := by
  induction clusters generalizing i m with
  | nil =>
    cases hrun
    exact ⟨hm, [], (List.append_nil _).symm, List.forall_mem_nil _, List.forall_mem_nil _⟩
  | cons cluster clusters ih =>
    obtain ⟨hcluster, hclusters⟩ := List.nodup_cons.1 hnodup
    obtain ⟨_, i₁, m₁, hfirst, hrest⟩ := Survey.run_bind_ok hrun
    rw [Survey.run_check] at hfirst
    rcases hteardown : (teardown cluster ns).run.run w.recorded patience l m with
      ⟨r | _ | _, m₀⟩ <;> rw [hteardown] at hfirst <;> cases hfirst
    obtain ⟨hm₁, before, f, hrecord₁, hf, hbefore⟩ := run_teardown_answered (.inl hm) hteardown
    obtain ⟨hm', exchanges, hrecord, hasked, hothers⟩ := ih hclusters hm₁ hrest
    refine ⟨hm', before ++ [⟨spaceLookup cluster ns, .error f⟩] ++ exchanges, ?_, ?_, ?_⟩
    · rw [hrecord, hrecord₁, List.append_assoc]
    · refine List.forall_mem_append.2 ⟨List.forall_mem_append.2 ⟨fun x hx => ?_, ?_⟩, ?_⟩
      · exact List.mem_cons.2 (.inl (hbefore x hx))
      · exact List.forall_mem_singleton.2 List.mem_cons_self
      · exact fun x hx => List.mem_cons_of_mem _ (hasked x hx)
    · refine List.forall_mem_cons.2 ⟨?_, fun other hother => (hothers other hother).cons _⟩
      refine ⟨before, f, exchanges, by simp, hf, fun x hx heq => ?_⟩
      have hsame : x.call.cluster = cluster := congrArg Call.cluster heq
      exact hcluster (hsame ▸ hasked x hx)

end Runs

/-- The teardowns of all clusters of a run, with which a deployment may begin. -/
def teardowns (clients : Clients) (ns : String) : Survey Unit :=
  clients.distinct.forM fun cluster => Survey.check (teardown cluster ns)

theorem deploy_eq_of_force (clients : Clients) {settings : Settings} (features : FeatureSet)
    (hforce : settings.forceDeploy = true) : deploy clients settings features =
      (do teardowns clients settings.testNamespace; provision clients settings features) := by
  rw [deploy_eq, hforce]
  rfl

theorem Clients.distinct_nodup (clients : Clients) : clients.distinct.Nodup := by
  unfold distinct
  split
  next => simp
  next hdiffer => simpa using fun heq => hdiffer (congrArg Cluster.id heq)

/-- How the teardowns with which a deployment begins have ended: either on every cluster with a
failed look-up of the namespace, and the deployment goes on from there, or with the deployment
itself. -/
def Precede (clients : Clients) (settings : Settings) (features : FeatureSet)
    {w : World clusterApi} (patience : Nat) (l : Limits) (exchanges : List Exchange)
    (torn : Outcome (Except Failure Unit × Inventory) × Moment w)
    (deployed : Outcome (Except Failure Topology.Plan × Inventory) × Moment w) : Prop :=
  (∃ inventory, torn.1 = .returned (.ok (), inventory) ∧
    torn.2.asked = exchanges.map (·.call) ∧
    (∀ cluster ∈ clients.distinct, LastLookupFails cluster settings.testNamespace exchanges) ∧
    deployed = ((provision clients settings features).run.run inventory).run w patience l torn.2) ∨
  ((∀ plan inventory, deployed.1 ≠ .returned (.ok plan, inventory)) ∧ deployed.2 = torn.2)

/-- A teardown that succeeds was told in the end that the look-up of the namespace fails, however
the clusters answer: every call was answered, and the last one was that look-up. The failure need
not say that the namespace is missing, but if it reads as if the wait had ended, the namespace had
been found before. So a deployment that begins with teardowns provisions nothing until the last
look-up of the namespace has failed on each of its clusters. -/
theorem teardown_succeeds_on_failed_lookup (w : World clusterApi) (patience : Nat) (l : Limits)
    (t : Instant) (s : w.State) :
    (∀ (cluster : Cluster) (ns : String) (m : Moment w),
      (teardown cluster ns).run.run w patience l ⟨t, s, []⟩ = (.returned (.ok ()), m) →
      ∃ before f,
        (teardown cluster ns).run.exchanges w patience l t s =
          before ++ [⟨spaceLookup cluster ns, .error f⟩] ∧
        m.asked = before.map (·.call) ++ [spaceLookup cluster ns] ∧
        LookupFails cluster ns before f) ∧
    ∀ (clients : Clients) (settings : Settings) (features : FeatureSet) (inventory : Inventory),
      settings.forceDeploy = true →
      let torn := (teardowns clients settings.testNamespace).run.run inventory
      Precede clients settings features patience l (torn.exchanges w patience l t s)
        (torn.run w patience l ⟨t, s, []⟩)
        (((deploy clients settings features).run.run inventory).run w patience l ⟨t, s, []⟩) := by
  constructor
  · intro cluster ns m hrun
    obtain ⟨m', hrecorded, rfl, hexchanges⟩ := exists_recorded_run hrun
    obtain ⟨hanswered, before, f, hrecord, hf, -⟩ :=
      run_teardown_answered (.inl (Wait.Moment.answered_start t s)) hrecorded
    have hbefore : m'.record = before ++ [⟨spaceLookup cluster ns, .error f⟩] := hrecord
    refine ⟨before, f, hexchanges.symm.trans hbefore, ?_, hf⟩
    rw [Wait.Moment.Answered, hbefore, List.map_append] at hanswered
    exact hanswered
  · intro clients settings features inventory hforce torn
    rw [deploy_eq_of_force clients features hforce, Survey.run_bind]
    rcases hrun : torn.run w patience l ⟨t, s, []⟩ with ⟨⟨e | _, inventory'⟩ | _ | _, m⟩
    · exact .inr ⟨by rintro _ _ ⟨⟩, rfl⟩
    · obtain ⟨m', hrecorded, rfl, hexchanges⟩ := exists_recorded_run hrun
      obtain ⟨hanswered, exchanges, hrecord, -, hlast⟩ := run_teardowns_answered
        clients.distinct_nodup (Wait.Moment.answered_start t s) hrecorded
      have heq : m'.record = exchanges := hrecord
      rw [← hexchanges, heq]
      refine .inl ⟨inventory', rfl, ?_, hlast, rfl⟩
      rw [Wait.Moment.Answered, heq] at hanswered
      exact hanswered
    · exact .inr ⟨by rintro _ _ ⟨⟩, rfl⟩
    · exact .inr ⟨by rintro _ _ ⟨⟩, rfl⟩

def forbidden : Failure :=
  .api (.refused
    { status := "Failure"
      message := "namespaces is forbidden"
      reason := "Forbidden"
      code := 403 })

/-- A cluster with the namespace of the runs, whose deletion it rejects at first. Whether it is
there, it does not tell the first time. -/
def discreetCluster : Machine where
  store :=
    { Store.fresh "kind" with
      rejections := 1
      objects := .ofList [(⟨.space, ⟨"", "cilium-test"⟩⟩, .space (.named "cilium-test"))] }
  rules :=
    [{ applies := fun r => decide (r = .get .space ⟨"", "cilium-test"⟩)
       times := some 1
       failure := some forbidden }]

/-- The failure that a call was answered with. -/
def Exchange.failure? (x : Exchange) : Option Failure :=
  match x.answer with
  | .ok _ => none
  | .error f => some f

/-- The namespace is still there, and the last look-up did not say that it is missing, but that its
state must not be read. -/
theorem discreetCluster_teardown_succeeds :
    let torn := (teardown ⟨0, "kind"⟩ "cilium-test").run
    let u := torn.run (world false) 0 {} ⟨0, [discreetCluster], []⟩
    u.1 = .returned (.ok ()) ∧
      ((torn.exchanges (world false) 0 {} 0 [discreetCluster]).getLast?.map fun x =>
        (x.call, x.failure?)) = some (spaceLookup ⟨0, "kind"⟩ "cilium-test", some forbidden) ∧
      forbidden.isNotFound = false ∧
      (machinesAt u.2.state).map (·.store.has .space ⟨"", "cilium-test"⟩) = [true] := by
  decide +kernel

theorem Wait.exists_moment {α : Type} {w : World clusterApi} {u : Outcome α × Moment w}
    {o : Outcome α} (h : u.1 = o) : ∃ m, u = (o, m) :=
  ⟨u.2, Prod.ext h rfl⟩

/-- The last look-up of the teardown has failed, and a deployment that begins with one goes on. -/
theorem discreetCluster_deploys :
    let torn := (teardowns (.single ⟨0, "kind"⟩) "cilium-test").run.run ∅
    let deployed := ((deploy (.single ⟨0, "kind"⟩) { forceDeploy := true } ∅).run.run ∅).run
      (world false) 0 {} ⟨0, [discreetCluster], []⟩
    (∃ before f, (teardown ⟨0, "kind"⟩ "cilium-test").run.exchanges (world false) 0 {} 0
      [discreetCluster] = before ++ [⟨spaceLookup ⟨0, "kind"⟩ "cilium-test", .error f⟩]) ∧
    (machinesAt deployed.2.state).map (·.store.creates) = [11] ∧
    Precede (.single ⟨0, "kind"⟩) { forceDeploy := true } ∅ 0 {}
      (torn.exchanges (world false) 0 {} 0 [discreetCluster])
      (torn.run (world false) 0 {} ⟨0, [discreetCluster], []⟩) deployed := by
  obtain ⟨hteardown, hdeploy⟩ :=
    teardown_succeeds_on_failed_lookup (world false) 0 {} 0 [discreetCluster]
  have hsucceeds : ((teardown ⟨0, "kind"⟩ "cilium-test").run.run (world false) 0 {}
      ⟨0, [discreetCluster], []⟩).1 = .returned (.ok ()) := by decide +kernel
  obtain ⟨m, hrun⟩ := Wait.exists_moment hsucceeds
  refine ⟨?_, by decide +kernel, hdeploy (.single ⟨0, "kind"⟩) { forceDeploy := true } ∅ ∅ rfl⟩
  exact (hteardown _ _ m hrun).imp fun _ => Exists.imp fun _ => And.left

end Reachability
