import Reachability.Proofs.Cluster.Conduct
import Reachability.Proofs.Cluster.Interruption
import Reachability.Proofs.Cluster.Record

namespace Reachability.Wait

variable {α β : Type} {w : World clusterApi} {l : Limits}

/-- Every call so far has been answered. -/
def Moment.Answered (m : Moment w.recorded) : Prop := m.asked = m.record.map (·.call)

theorem Moment.answered_start (t : Instant) (s : w.State) :
    Moment.Answered (w := w) ⟨t, (s, []), []⟩ :=
  rfl

theorem Moment.Answered.later {m : Moment w.recorded} (h : m.Answered) (t : Instant) :
    Moment.Answered { m with now := t } :=
  h

/-- Every call so far has been answered, or the wait has ended. -/
def Moment.Attended (l : Limits) (m : Moment w.recorded) : Prop :=
  m.Answered ∨ l.endedBy m.now = true

theorem Moment.Attended.answered {m : Moment w.recorded} (h : m.Attended l)
    (hlive : l.endedBy m.now ≠ true) : m.Answered :=
  h.resolve_right hlive

/-- A part of a wait has left no call without an answer, or has been interrupted. -/
def Settles (l : Limits) (r : Except Failure α) (m : Moment w.recorded) : Prop :=
  m.Answered ∨ l.endedBy m.now = true ∧ ∃ i, Interrupted i r

theorem Settles.attended {r : Except Failure α} {m : Moment w.recorded} (h : Settles l r m) :
    m.Attended l :=
  h.imp_right And.left

/-- A probe that comes to a result has got all its answers. -/
theorem Probe.run_answered {limit : Option Instant} {probe : Probe clusterApi α}
    {m m' : Moment w.recorded} {r : Except Failure α} (hm : m.Answered)
    (hrun : probe.run w.recorded limit m = (.returned r, m')) : m'.Answered := by
  induction probe generalizing m with
  | done r =>
    cases hrun
    exact hm
  | crash => cases hrun
  | ask c next ih =>
    rcases run_ask_cases limit c next m with hcut | ⟨s, delay, finish, hstart, hanswered⟩
    · cases hcut.symm.trans hrun
    · rw [hanswered] at hrun
      refine ih _ ?_ hrun
      have hasked := m.asked_answered c delay (finish s).1
      have hrecord : (m.answered c delay (finish s).1).record = m.record ++ [⟨c, (finish s).2⟩] :=
        (recorded_keeps w m.record).finish (List.append_nil _).symm hstart
      rw [Moment.Answered, hasked, hm, hrecord, List.map_append]
      rfl

/-- A wait that is cut off has ended. -/
theorem cutOff_ended {w : World clusterApi} {what : String} {last : Option Failure}
    {m m' : Moment w} {r : Except Failure α} (hrun : cutOff l what last m = (.returned r, m')) :
    l.endedBy m'.now = true := by
  unfold cutOff at hrun
  split at hrun
  next e hends =>
    cases hrun
    exact Limits.endedBy_iff.2 ⟨e, hends, Nat.le_max_left _ _⟩
  next => cases hrun

theorem cutOff_settles {what : String} {last : Option Failure} {m m' : Moment w.recorded}
    {r : Except Failure α} (hrun : cutOff l what last m = (.returned r, m')) : Settles l r m' :=
  .inr ⟨cutOff_ended hrun, (cutOff_interrupted hrun).2⟩

theorem raceOnce_settles {what : String} {probe : Probe clusterApi α} {m m' : Moment w.recorded}
    {r : Except Failure α} (hm : m.Attended l)
    (hrun : raceOnce w.recorded l what probe m = (.returned r, m')) : Settles l r m' := by
  unfold raceOnce at hrun
  split at hrun
  next => exact cutOff_settles hrun
  next hlive =>
    split at hrun
    next hprobe =>
      cases hrun
      exact .inl (Probe.run_answered (hm.answered hlive) hprobe)
    next => exact cutOff_settles hrun
    next => cases hrun

theorem Polling.settles {pacing : Nat} {what : String} {probe : Probe clusterApi α}
    {m m' : Moment w.recorded} {u : Outcome (Except Failure α) × Moment w.recorded}
    {r : Except Failure α} (h : Polling w.recorded l pacing what probe m u) (hm : m.Attended l)
    (hu : u = (.returned r, m')) : Settles l r m' := by
  have hanswered {m m₁ : Moment w.recorded} {r : Except Failure α} (hm : m.Attended l)
      (hstarts : Starts l pacing m)
      (hprobe : probe.run w.recorded l.endsAt m = (.returned r, m₁)) : m₁.Answered :=
    Probe.run_answered (hm.answered (Bool.eq_false_iff.1 hstarts.live)) hprobe
  induction h with
  | unobserved => cases hu
  | overrun => cases hu
  | crashed => cases hu
  | ended => exact cutOff_settles hu
  | unanswered => exact cutOff_settles hu
  | awaited => exact cutOff_settles hu
  | decided hstarts hrun =>
    cases hu
    exact .inl (hanswered hm hstarts hrun)
  | again hstarts hrun _ _ _ ih => exact ih (.inl ((hanswered hm hstarts hrun).later _)) hu

theorem pollFrom_settles {pacing : Nat} {what : String} {probe : Probe clusterApi α}
    {attempts : Nat} {last : Option Failure} {m m' : Moment w.recorded} {r : Except Failure α}
    (hm : m.Attended l)
    (hrun : pollFrom w.recorded l pacing what probe attempts last m = (.returned r, m')) :
    Settles l r m' :=
  (pollFrom_polling ..).settles hm hrun

/-- A call that comes to a result is recorded with it, unless it has been interrupted: then there is
nothing new in the record. -/
theorem raceOnce_call_record {what : String} {c : Call} {m m' : Moment w.recorded}
    {answer : Except Failure c.request.Answer}
    (hrun : raceOnce w.recorded l what (.call (A := clusterApi) c) m = (.returned answer, m')) :
    m'.record = m.record ++ [⟨c, answer⟩] ∨ m'.record = m.record ∧ ∃ i, Interrupted i answer := by
  have hkeeps := recorded_keeps w m.record
  have hm : m.record = m.record ++ [] := (List.append_nil _).symm
  unfold raceOnce Probe.call at hrun
  split at hrun
  next =>
    obtain ⟨hstate, hinterrupted⟩ := cutOff_interrupted hrun
    exact .inr ⟨congrArg Prod.snd hstate, hinterrupted⟩
  next =>
    rcases Probe.run_ask_cases l.endsAt c .done m with
      hcut | ⟨s, delay, finish, hstart, hanswered⟩
    · rw [hcut] at hrun
      obtain ⟨hstate, hinterrupted⟩ := cutOff_interrupted hrun
      refine .inr ⟨?_, hinterrupted⟩
      rw [Moment.record, hstate]
      exact (hkeeps.start c hm).trans (List.append_nil _)
    · rw [hanswered] at hrun
      cases hrun
      exact .inl (hkeeps.finish hm hstart)

end Reachability.Wait

namespace Reachability

open Wait (Limits Moment World)

variable {α β γ : Type}

namespace Check

/-- If the check succeeds, it leaves no call without an answer, unless there was one before. -/
structure Settled (c : Check α) : Prop where
  answered {w : World clusterApi} {patience : Nat} {l : Limits} {m m' : Moment w.recorded} {a : α}
    (hm : m.Answered) (hrun : c.run.run w.recorded patience l m = (.returned (.ok a), m')) :
    m'.Answered

namespace Settled

theorem pure (a : α) : Settled (Pure.pure a) := by
  refine ⟨fun hm hrun => ?_⟩
  cases hrun
  exact hm

theorem bind {c : Check α} {f : α → Check β} (hc : c.Settled) (hf : ∀ a, (f a).Settled) :
    Settled (c >>= f) := by
  refine ⟨fun {w patience l m m' b} hm hrun => ?_⟩
  rw [run_bind] at hrun
  rcases hfirst : c.run.run w.recorded patience l m with ⟨⟨e | a⟩ | _ | _, m₁⟩ <;>
    rw [hfirst] at hrun
  · cases hrun
  · exact (hf a).answered (hc.answered hm hfirst) hrun
  · cases hrun
  · cases hrun

theorem request (what : String) (cluster : Cluster) (r : Request) :
    (Check.request what cluster r).Settled := by
  refine ⟨fun hm hrun => ?_⟩
  rw [run_request] at hrun
  refine (Wait.raceOnce_settles (.inl hm) hrun).resolve_right ?_
  rintro ⟨-, i, hinterrupted⟩
  exact not_interrupted_ok hinterrupted

theorem poll (pacing : Nat) (what : String) (probe : Wait.Probe clusterApi α) :
    (Check.poll pacing what probe).Settled := by
  refine ⟨fun hm hrun => ?_⟩
  rw [run_poll] at hrun
  refine (Wait.pollFrom_settles (.inl hm) hrun).resolve_right ?_
  rintro ⟨-, i, hinterrupted⟩
  exact not_interrupted_ok hinterrupted

theorem within {c : Check α} (hc : c.Settled) (timeout : Nat) :
    (Check.within timeout c).Settled := by
  refine ⟨fun {w patience l m m' a} hm hrun => ?_⟩
  have hwithin := Wait.Procedure.run_within.symm.trans hrun
  split at hwithin
  · cases hwithin
  · rw [Wait.andThen_done] at hwithin
    exact hc.answered hm hwithin

theorem forM {f : γ → Check Unit} {l : List γ} (hf : ∀ a ∈ l, (f a).Settled) :
    (l.forM f).Settled := by
  induction l with
  | nil => exact .pure ()
  | cons a l ih =>
    obtain ⟨ha, hl⟩ := List.forall_mem_cons.1 hf
    exact .bind ha fun _ => ih hl

end Settled

theorem deployments_settled (cluster : Cluster) (ns : String) (names : List String)
    (timeout : Nat) : (deployments cluster ns names timeout).Settled :=
  .within (.forM fun _ _ => .poll ..) timeout

theorem endpoint_settled (cluster : Cluster) (pod : ObjectKey) (timeout : Nat) :
    (endpoint cluster pod timeout).Settled :=
  .within (.poll ..) timeout

end Check

namespace Survey

/-- If the survey succeeds, it leaves no call without an answer, unless there was one before. -/
structure Settled (s : Survey α) : Prop where
  answered {w : World clusterApi} {patience : Nat} {l : Limits} {i i' : Inventory}
    {m m' : Moment w.recorded} {a : α} (hm : m.Answered)
    (hrun : (s.run.run i).run w.recorded patience l m = (.returned (.ok a, i'), m')) :
    m'.Answered

namespace Settled

theorem pure (a : α) : Settled (Pure.pure a : Survey α) := by
  refine ⟨fun hm hrun => ?_⟩
  cases hrun
  exact hm

theorem bind {s : Survey α} {f : α → Survey β} (hs : s.Settled) (hf : ∀ a, (f a).Settled) :
    Settled (s >>= f) := by
  refine ⟨fun hm hrun => ?_⟩
  obtain ⟨a, i', m', hfirst, hrest⟩ := run_bind_ok hrun
  exact (hf a).answered (hs.answered hm hfirst) hrest

/-- A part that is left out under some condition. -/
theorem ite_bind {q : Prop} [Decidable q] {s : Survey Unit} {f : Unit → Survey β}
    (hs : s.Settled) (hf : ∀ a, (f a).Settled) : Settled (if q then s >>= f else f ()) := by
  split
  · exact hs.bind hf
  · exact hf ()

theorem check {c : Check α} (hc : c.Settled) : (Survey.check c).Settled := by
  refine ⟨fun {w patience l i i' m m' a} hm hrun => ?_⟩
  rw [run_check] at hrun
  rcases hcheck : c.run.run w.recorded patience l m with ⟨r | _ | _, m₁⟩ <;>
    rw [hcheck] at hrun <;> cases hrun
  exact hc.answered hm hcheck

theorem record (f : Inventory → Inventory) : (Survey.record f).Settled := by
  refine ⟨fun hm hrun => ?_⟩
  cases hrun
  exact hm

theorem forM {f : γ → Survey Unit} {l : List γ} (hf : ∀ a ∈ l, (f a).Settled) :
    (l.forM f).Settled := by
  induction l with
  | nil => exact .pure ()
  | cons a l ih =>
    obtain ⟨ha, hl⟩ := List.forall_mem_cons.1 hf
    exact .bind ha fun _ => ih hl

end Settled

end Survey

end Reachability
