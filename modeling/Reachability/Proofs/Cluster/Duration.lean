import Reachability.Cluster.Checks
import Reachability.Proofs.Cluster.Record
import Reachability.Proofs.Wait.Timeouts

namespace Reachability

open Wait (Instant Limits Moment Probe Procedure World)

variable {α β γ : Type}

/-- A request for a list. -/
def Request.Lists : Request → Prop
  | .listPods .. | .listServices .. | .listNodes | .listExternalWorkloads => True
  | _ => False

/-- Lists are answered at once, rightly or not. Other calls may take any time, or never end. -/
def Wait.World.ListsAtOnce (w : World clusterApi) : Prop :=
  ∀ (s : w.State) (c : Call), c.request.Lists →
    ∃ s' finish, w.start s c = (s', some (0, finish))

theorem Wait.World.ListsAtOnce.recorded {w : World clusterApi} (h : w.ListsAtOnce) :
    w.recorded.ListsAtOnce := by
  intro ⟨s, exchanges⟩ c hc
  obtain ⟨s', finish, hstart⟩ := h s c hc
  exact ⟨(s', exchanges), _, by simp only [World.recorded, hstart, Option.map_some]; rfl⟩

namespace Wait

variable {w : World clusterApi}

/-- However it is run, it does not stall, and is over after so many milliseconds. -/
structure Procedure.Takes (w : World clusterApi) (p : Procedure clusterApi α) (time : Nat) :
    Prop where
  overBy (patience : Nat) (l : Limits) (m : Moment w) :
    OverBy (m.now + time) (p.run w patience l m)

/-- A list is there at once, unless the wait has ended. -/
theorem raceOnce_list (hlists : w.ListsAtOnce) {c : Call} (hc : c.request.Lists) (l : Limits)
    (what : String) (m : Moment w) :
    OverBy m.now (raceOnce w l what (Probe.call (A := clusterApi) c) m) := by
  obtain ⟨s, finish, hstart⟩ := hlists m.state c hc
  by_cases hended : ∃ e, l.endsAt = some e ∧ e ≤ m.now
  · obtain ⟨e, he, hle⟩ := hended
    simp [OverBy, raceOnce, cutOff, Limits.endedBy, he, hle]
  · have hearly : ∀ e, l.endsAt = some e → m.now + 0 < e := fun e he =>
      Nat.lt_of_not_le fun hle => hended ⟨e, he, hle⟩
    have hgoes : l.endedBy m.now = false := by
      simpa [← Bool.not_eq_true, Limits.endedBy_iff] using hended
    simp only [raceOnce, hgoes, Bool.false_eq_true, if_false, Probe.call,
      Probe.run_ask_of_answered hstart hearly, Probe.run]
    exact ⟨by simp, Nat.le_refl _⟩

namespace Procedure.Takes

theorem done (a : α) (time : Nat) : (Procedure.done a).Takes w time :=
  ⟨fun _ _ m => ⟨by simp [Procedure.run], Nat.le_add_right m.now time⟩⟩

theorem bind {p : Procedure clusterApi α} {f : α → Procedure clusterApi β} {time time' : Nat}
    (hp : p.Takes w time) (hf : ∀ a, (f a).Takes w time') : (p.bind f).Takes w (time + time') := by
  refine ⟨fun patience l m => ?_⟩
  rw [run_bind]
  refine (hp.overBy patience l m).andThen (by lia) fun a m' hle => ?_
  obtain ⟨hstalled, hnow⟩ := (hf a).overBy patience l m'
  exact ⟨hstalled, by lia⟩

theorem request (hlists : w.ListsAtOnce) {c : Call} (hc : c.request.Lists) (what : String) :
    (Procedure.request (A := clusterApi) what c).Takes w 0 := by
  refine ⟨fun patience l m => ?_⟩
  have hrun : (Procedure.request (A := clusterApi) what c).run w patience l m =
      raceOnce w l what (Probe.call (A := clusterApi) c) m := by
    simp [Procedure.request, run_race]
  rw [hrun]
  exact raceOnce_list hlists hc l what m

theorem draw {n : Nat} {next : Fin (n + 1) → Procedure clusterApi α} {time : Nat}
    (hnext : ∀ i, (next i).Takes w time) : (Procedure.draw n next).Takes w time :=
  ⟨fun patience l m =>
    (hnext _).overBy patience l { m with state := (w.choose m.state n).1 }⟩

/-- A part that pauses between its attempts is over when its time is, whatever the calls do. -/
theorem within {p : Procedure clusterApi α} (hp : p.Pauses) (timeout : Nat) :
    (Procedure.within timeout p .done).Takes w timeout := by
  refine ⟨fun patience l m => ?_⟩
  rw [run_within]
  cases hclock : after? m.now timeout with
  | none => exact ⟨by simp, Nat.le_add_right m.now timeout⟩
  | some d =>
    have hd := eq_of_after?_eq_some hclock
    simp only [andThen_done]
    exact (hp.run (Limits.endsAt_withDeadline l d) patience m).mono (by lia)

end Procedure.Takes

end Wait

namespace Check

/-- Every wait of the check pauses between its attempts. -/
structure Pauses (c : Check α) : Prop where
  pauses : c.run.Pauses

namespace Pauses

theorem pure (a : α) : Pauses (Pure.pure a) := ⟨trivial⟩

theorem bind {c : Check α} {f : α → Check β} (hc : c.Pauses) (hf : ∀ a, (f a).Pauses) :
    Pauses (c >>= f) := by
  refine ⟨Procedure.Pauses.bind hc.pauses fun r => ?_⟩
  cases r with
  | error e => trivial
  | ok a => exact (hf a).pauses

theorem poll {pacing : Nat} (hpacing : 0 < pacing) (what : String) (probe : Probe clusterApi α) :
    (Check.poll pacing what probe).Pauses :=
  ⟨hpacing, fun _ => trivial⟩

theorem forM {f : γ → Check Unit} (hf : ∀ a, (f a).Pauses) (l : List γ) : (l.forM f).Pauses := by
  induction l with
  | nil => exact pure ()
  | cons a l ih => exact bind (hf a) fun _ => ih

end Pauses

/-- The check does not stall, and is over after so many milliseconds. -/
structure Takes (w : World clusterApi) (c : Check α) (time : Nat) : Prop where
  takes : c.run.Takes w time

section Takes

variable {w : World clusterApi}

theorem Takes.request (hlists : w.ListsAtOnce) {r : Request} (hr : r.Lists) (what : String)
    (cluster : Cluster) : (Check.request what cluster r).Takes w 0 :=
  ⟨.request hlists (c := ⟨cluster, r⟩) hr what⟩

theorem Takes.attempt {c : Check α} {time : Nat} (hc : c.Takes w time) :
    c.attempt.Takes w time :=
  ⟨hc.takes.bind fun _ => .done _ 0⟩

theorem Takes.within {c : Check α} (hc : c.Pauses) (timeout : Nat) :
    (Check.within timeout c).Takes w timeout :=
  ⟨.within hc.pauses timeout⟩

/-- Nothing takes time but the second part. -/
theorem Takes.bind {c : Check α} {f : α → Check β} {time : Nat} (hc : c.Takes w 0)
    (hf : ∀ a, (f a).Takes w time) : Takes w (c >>= f) time := by
  refine ⟨Nat.zero_add time ▸ hc.takes.bind fun r => ?_⟩
  cases r with
  | error e => exact .done _ time
  | ok a => exact (hf a).takes

theorem vantagePod_takes (i : Inventory) : (vantagePod i).Takes w 0 := by
  have hchoose (pods : List Pod) : (choose? pods).Takes w 0 := by
    cases pods with
    | nil => exact ⟨.done _ 0⟩
    | cons pod pods => exact ⟨.draw fun _ => .done _ 0⟩
  refine .bind (hchoose _) fun chosen => ?_
  cases chosen with
  | none => exact ⟨.done _ 0⟩
  | some pod => exact ⟨.done _ 0⟩

theorem deployments_takes (cluster : Cluster) (ns : String) (names : List String) (timeout : Nat) :
    (deployments cluster ns names timeout).Takes w timeout :=
  .within (.forM (fun _ => .poll (by decide) ..) names) timeout

theorem endpoint_takes (cluster : Cluster) (pod : ObjectKey) (timeout : Nat) :
    (endpoint cluster pod timeout).Takes w timeout :=
  .within (.poll (by decide) ..) timeout

theorem podNames_pauses (source target : Pod) : (podNames source target).Pauses :=
  .bind (.poll (by decide) ..) fun _ => .pure ()

theorem clusterNames_pauses (pod : Pod) : (clusterNames pod).Pauses :=
  .bind (.poll (by decide) ..) fun _ => .pure ()

theorem service_takes (i : Inventory) (s : Manifest.Service) (timeout : Nat) :
    (service i s timeout).Takes w timeout :=
  .bind (vantagePod_takes i) fun _ => .within (.poll (by decide) ..) timeout

theorem nodePorts_takes (i : Inventory) (nodeIP : String) (s : Manifest.Service) (timeout : Nat) :
    (nodePorts i nodeIP s timeout).Takes w timeout :=
  .bind (vantagePod_takes i) fun _ =>
    .within (.forM (fun _ => .bind (.poll (by decide) ..) fun _ => .pure ()) _) timeout

theorem identities_pauses (agent : Pod) (container : String) (i : Inventory) :
    (identities agent container i).Pauses :=
  .poll (by decide) ..

end Takes

end Check

end Reachability
