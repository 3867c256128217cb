import Reachability.Proofs.Cluster.Conduct
import Reachability.Proofs.Cluster.Record
import Reachability.Proofs.Wait.Sequence
import Reachability.Proofs.Wait.Timeouts
import Reachability.Simulation.World

namespace Reachability

open Wait (Aim Breaks Instant Limits Moment Outcome Reached TakesTurns World)

variable {α γ : Type} {w : World clusterApi}

/-- A part of a check that waits for one aim and does nothing else. -/
def AimsAt (c : Check Unit) (x : Aim clusterApi α) : Prop :=
  ∀ (w : World clusterApi) (patience : Nat) (l : Limits) (m : Moment w),
    c.run.run w patience l m = Wait.andThen (x.run w patience l m) fun r m =>
      (.returned (r.map fun _ => ()), m)

theorem AimsAt.poll (x : Aim clusterApi Unit) :
    AimsAt (Check.poll Wait.defaultPacing x.what x.probe) x := by
  intro w patience l m
  rw [Check.run_poll]
  change x.run w patience l m = _
  rcases x.run w patience l m with ⟨⟨_ | _⟩ | _ | _, m'⟩ <;> rfl

/-- The result of the wait is not looked at. -/
theorem AimsAt.poll_discarded (x : Aim clusterApi α) :
    AimsAt (do let _ ← Check.poll Wait.defaultPacing x.what x.probe) x := by
  intro w patience l m
  rw [Check.run_bind, Check.run_poll]
  change Wait.andThen (x.run w patience l m) _ = _
  rcases x.run w patience l m with ⟨⟨_ | _⟩ | _ | _, m'⟩ <;> rfl

theorem forM_takesTurns {f : γ → Check Unit} {aim : γ → Aim clusterApi α}
    (hf : ∀ a, AimsAt (f a) (aim a)) (items : List γ) {l : Limits} {e : Instant}
    (hends : l.endsAt = some e) (patience : Nat) (m : Moment w) :
    TakesTurns w l (items.map aim) m ((items.forM f).run.run w patience l m) := by
  induction items generalizing m with
  | nil => exact .nil w l m
  | cons a items ih =>
    have hpatience : l.endsAt = none → ∀ k, k < patience := by
      rw [hends]
      exact nofun
    have hloop : (a :: items).forM f = f a >>= fun _ => items.forM f := rfl
    rw [List.map_cons, hloop, Check.run_bind, hf a]
    -- the aim is reached or fails for good, or the wait for it crashes, or it is given up
    by_cases h : ∃ k r, ((aim a).schedule w m.now m.state).Concludes l k r
    · obtain ⟨k, r, hconcludes⟩ := h
      obtain ⟨m', hrun, hnow, hcalls, hstate⟩ :=
        Aim.run_of_concludes hconcludes fun hnone => hpatience hnone k
      rw [hrun]
      cases r with
      | ok v => exact .cons hconcludes hnow (hstate v rfl) hcalls (ih m')
      | error f =>
        refine .of_givesUp _ (fun j v hok => ?_)
          (fun j t hcrashes => hcrashes.not_concludes hconcludes)
          ⟨⟨k + 1, hcalls, hconcludes.made_iff⟩, .inl ⟨k, f, hconcludes, rfl, hnow⟩⟩
        cases (hok.unique hconcludes).2
    · have hnone : ∀ k r, ¬ ((aim a).schedule w m.now m.state).Concludes l k r :=
        fun k r hconcludes => h ⟨k, r, hconcludes⟩
      by_cases hcrash : ∃ k t, ((aim a).schedule w m.now m.state).Crashes l k t
      · obtain ⟨k, t, hcrashes⟩ := hcrash
        obtain ⟨m', n, hrun, rfl, hcalls, hmade⟩ :=
          Aim.run_of_crashes hcrashes fun hl => hpatience hl k
        rw [hrun]
        exact .of_crashes _ hcrashes hcalls hmade
      · have hcalm : ∀ k t, ¬ ((aim a).schedule w m.now m.state).Crashes l k t :=
          fun k t hcrashes => hcrash ⟨k, t, hcrashes⟩
        obtain ⟨m', last, n, i, hrun, hnow, hcalls, hmade, hlast, hi⟩ :=
          Aim.run_of_not_concludes patience hends hnone hcalm
        rw [hrun]
        refine .of_givesUp _ (fun k v => hnone k _) hcalm
          ⟨⟨n, hcalls, hmade⟩, .inr ⟨hnone, i, last, rfl, fun e' he' => ?_, hlast, hi⟩⟩
        obtain rfl := Option.some.inj (hends.symm.trans he')
        exact hnow

/-- A run that waits for the aims in turn, for all of them within one timeout. -/
structure SharesTimeout (w : World clusterApi) (l : Limits) (timeout : Nat)
    (aims : List (Aim clusterApi α)) (m : Moment w)
    (u : Outcome (Except Failure Unit) × Moment w) : Prop where
  crashed (h : Nat.pow 2 63 ≤ (m.now + timeout) / 1000) : u = (.crashed, m)
  breaks (h : (m.now + timeout) / 1000 < Nat.pow 2 63) : u.1 = .crashed ↔
    ∃ calls t, Breaks w (l.withDeadline (m.now + timeout)) aims m.now m.state calls t
  succeeds (h : (m.now + timeout) / 1000 < Nat.pow 2 63) : u.1 = .returned (.ok ()) ↔
    ∃ calls t s, Reached w (l.withDeadline (m.now + timeout)) aims m.now m.state calls t s
  turns (h : (m.now + timeout) / 1000 < Nat.pow 2 63) :
    TakesTurns w (l.withDeadline (m.now + timeout)) aims m u

section Within

variable {timeout patience : Nat} {l : Limits} {m : Moment w} {c : Check α}

theorem Check.run_within_of_none (h : Wait.after? m.now timeout = none) :
    (Check.within timeout c).run.run w patience l m = (.crashed, m) := by
  refine Wait.Procedure.run_within.trans ?_
  rw [h]

theorem Check.run_within_of_some {d : Instant} (h : Wait.after? m.now timeout = some d) :
    (Check.within timeout c).run.run w patience l m =
      c.run.run w patience (l.withDeadline d) m := by
  refine Wait.Procedure.run_within.trans ?_
  rw [h]
  exact Wait.andThen_done _ patience l

end Within

theorem within_sharesTimeout {f : γ → Check Unit} {aim : γ → Aim clusterApi α}
    (hf : ∀ a, AimsAt (f a) (aim a)) (items : List γ) (timeout patience : Nat) (l : Limits)
    (m : Moment w) :
    SharesTimeout w l timeout (items.map aim) m
      ((Check.within timeout (items.forM f)).run.run w patience l m) := by
  cases hclock : Wait.after? m.now timeout with
  | none =>
    have hlate := Wait.after?_eq_none_iff.1 hclock
    rw [Check.run_within_of_none hclock]
    exact ⟨fun _ => rfl, fun h => absurd hlate (Nat.not_le_of_lt h),
      fun h => absurd hlate (Nat.not_le_of_lt h), fun h => absurd hlate (Nat.not_le_of_lt h)⟩
  | some d =>
    obtain rfl := Wait.eq_of_after?_eq_some hclock
    obtain ⟨e, hends⟩ : ∃ e, (l.withDeadline (m.now + timeout)).endsAt = some e := by
      rw [Limits.endsAt_withDeadline]
      exact ⟨_, rfl⟩
    have hturns := forM_takesTurns hf items hends patience m
    rw [Check.run_within_of_some hclock]
    refine ⟨fun h => ?_, fun _ => hturns.crashed_iff, fun _ => hturns.ok_iff, fun _ => hturns⟩
    rw [Wait.after?_eq_none_iff.2 h] at hclock
    cases hclock

/-- The wait for a deployment to be ready. -/
def deploymentAim (cluster : Cluster) (ns name : String) : Aim clusterApi Unit where
  what := "deployment " ++ name
  call := ⟨cluster, .get .deployment ⟨ns, name⟩⟩
  judge := Check.judgeDeployment

/-- The wait for a port of a service to answer at a node, as seen from a pod. -/
def nodePortAim (pod : Pod) (nodeIP : String) (s : Manifest.Service) (port : Int) :
    Aim clusterApi String where
  what := "NodePort " ++ nodeIP ++ ":" ++ toString port ++ " (" ++ s.metadata.title ++ ")"
  call := ⟨pod.cluster,
    .exec pod.key pod.workloadContainer ["nc", "-w", "3", "-z", nodeIP, toString port]⟩
  judge := some

/-- Once a client pod has been chosen, the node ports are waited for. -/
theorem run_nodePorts {i : Inventory} (hclients : i.clientPods.values ≠ []) (nodeIP : String)
    (s : Manifest.Service) (timeout patience : Nat) (l : Limits) (m : Moment w) :
    ∃ pod ∈ i.clientPods.values,
      (Check.nodePorts i nodeIP s timeout).run.run w patience l m =
        (Check.within timeout <| s.nodePorts.forM fun port => do
          let _ ← Check.poll Wait.defaultPacing (nodePortAim pod nodeIP s port).what
            (nodePortAim pod nodeIP s port).probe).run.run w patience l
          { m with state := (w.choose m.state (i.clientPods.values.length - 1)).1 } := by
  rw [Check.nodePorts, Check.vantagePod, Check.run_bind, Check.run_bind]
  cases hpods : i.clientPods.values with
  | nil => exact absurd hpods hclients
  | cons first rest =>
    refine ⟨(first :: rest)[(w.choose m.state rest.length).2], List.getElem_mem _, ?_⟩
    rfl

/-- Deployments, and the node ports of a service, are waited for one after the other under one
deadline, however the clusters answer: each is asked for first at the instant at which the one
before it was reached. The check succeeds if all are reached before its limits end. If not, it ends
by then with the failure of the first that is not reached, and does not ask for those after it. It
crashes at once if the timeout takes the clock beyond what it can reckon, and later if the pause
after an attempt that is due does, or if a deployment is found that cannot be judged; then, too, it
does not ask for those after it. -/
theorem waits_in_turn_share_timeout (w : World clusterApi) (patience : Nat) (l : Limits)
    (m : Moment w) (timeout : Nat) :
    (∀ (cluster : Cluster) (ns : String) (names : List String),
      SharesTimeout w l timeout (names.map (deploymentAim cluster ns)) m
        ((Check.deployments cluster ns names timeout).run.run w patience l m)) ∧
    ∀ (i : Inventory) (nodeIP : String) (s : Manifest.Service), i.clientPods.values ≠ [] →
      ∃ pod ∈ i.clientPods.values,
        SharesTimeout w l timeout (s.nodePorts.map (nodePortAim pod nodeIP s))
          { m with state := (w.choose m.state (i.clientPods.values.length - 1)).1 }
          ((Check.nodePorts i nodeIP s timeout).run.run w patience l m) := by
  refine ⟨fun cluster ns names => ?_, fun i nodeIP s hclients => ?_⟩
  · exact within_sharesTimeout (fun name => AimsAt.poll (deploymentAim cluster ns name)) names
      timeout patience l m
  · obtain ⟨pod, hpod, hrun⟩ := run_nodePorts hclients nodeIP s timeout patience l m
    refine ⟨pod, hpod, ?_⟩
    rw [hrun]
    exact within_sharesTimeout (fun port => AimsAt.poll_discarded (nodePortAim pod nodeIP s port))
      s.nodePorts timeout patience l _

/-- A cluster with one deployment, which is ready. -/
def sparseCluster : Simulation.Machine where
  store :=
    { Simulation.Store.fresh "kind" with
      objects := .ofList
        [(⟨.deployment, ⟨"cilium-test", "client"⟩⟩,
          .deployment (Simulation.Store.settled "cilium-test" { metadata := .named "client" }))] }

/-- A client pod that is not on the cluster. -/
def strayClient : Inventory :=
  { clientPods := .insert ∅ "client"
      { cluster := ⟨0, "kind"⟩
        object := { metadata := { name := some "client", space := some "cilium-test" } } } }

def twoPorts : Manifest.Service :=
  { metadata := .named "echo"
    ports := [{ number := 80, nodePort := some 30010 }, { number := 81, nodePort := some 30011 }] }

/-- Of three deployments, the first is there, the second is asked for until the time is over, and
the third is never asked for. Of two node ports, the second is not tried. -/
theorem sparseCluster_waits :
    let start : Moment (Simulation.world false) := ⟨0, [sparseCluster], []⟩
    let aims := ["client", "server", "other"].map (deploymentAim ⟨0, "kind"⟩ "cilium-test")
    let check := Check.deployments ⟨0, "kind"⟩ "cilium-test" ["client", "server", "other"] 2500
    let u := check.run.run (Simulation.world false) 0 {} start
    TakesTurns (Simulation.world false) (({} : Limits).withDeadline 2500) aims start u ∧
      u.1 = .returned (.error (.deadlineExceeded "deployment server"
        (.notFound "deployment" "server"))) ∧
      u.2.now = 2500 ∧ u.2.calls.map (·.1) = [0, 0, 1000, 2000] ∧
    let u' := (Check.nodePorts strayClient "172.18.0.2" twoPorts 2500).run.run
      (Simulation.world false) 0 {} start
    (∃ pod ∈ strayClient.clientPods.values,
      TakesTurns (Simulation.world false) (({} : Limits).withDeadline 2500)
        (twoPorts.nodePorts.map (nodePortAim pod "172.18.0.2" twoPorts)) start u') ∧
      u'.1 = .returned (.error (.deadlineExceeded "NodePort 172.18.0.2:30010 (echo)"
        (.notFound "pod" "client"))) ∧
      u'.2.calls.map (·.1) = [0, 1000, 2000] := by
  obtain ⟨hdeployments, hnodePorts⟩ := waits_in_turn_share_timeout (Simulation.world false) 0 {}
    ⟨0, [sparseCluster], []⟩ 2500
  obtain ⟨pod, hpod, hports⟩ := hnodePorts strayClient "172.18.0.2" twoPorts (by decide +kernel)
  exact ⟨(hdeployments ⟨0, "kind"⟩ "cilium-test" ["client", "server", "other"]).turns (by decide),
    by decide +kernel, by decide +kernel, by decide +kernel, ⟨pod, hpod, hports.turns (by decide)⟩,
    by decide +kernel, by decide +kernel⟩

/-- The longest timeout that a setting allows: the deployment is ready at once, and yet the check
crashes. -/
theorem sparseCluster_crashes :
    let timeout := Settings.milliseconds 18446744073709551615
    let aims := [deploymentAim ⟨0, "kind"⟩ "cilium-test" "client"]
    (∃ calls t s, Reached (Simulation.world false) (({} : Limits).withDeadline (0 + timeout)) aims 0
      [sparseCluster] calls t s) ∧
    ((Check.deployments ⟨0, "kind"⟩ "cilium-test" ["client"] timeout).run.run
      (Simulation.world false) 0 {} ⟨0, [sparseCluster], []⟩).1 = .crashed := by
  intro timeout aims
  have hready : ((deploymentAim ⟨0, "kind"⟩ "cilium-test" "client").schedule
      (Simulation.world false) 0 [sparseCluster]).Concludes
        (({} : Limits).withDeadline (0 + timeout)) 0 (.ok ()) :=
    ⟨⟨fun j hj => absurd hj (Nat.not_lt_zero j), by decide, by decide⟩, ⟨by decide +kernel, nofun⟩,
      by decide +kernel⟩
  exact ⟨⟨_, _, _, .cons hready (.nil _ _)⟩, by decide +kernel⟩

end Reachability
