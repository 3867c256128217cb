import Reachability.Proofs.Wait.Cut
import Reachability.Proofs.Wait.Schedule

namespace Reachability.Wait

variable {A : Api} {α : Type}

/-- At most one attempt concludes a wait. -/
theorem Schedule.Concludes.unique {s : Schedule α} {l : Limits} {j k : Nat}
    {r r' : Except Failure α} (h : s.Concludes l j r) (h' : s.Concludes l k r') :
    j = k ∧ r = r' := by
  obtain ⟨hmade, hdecides, -⟩ := h
  obtain ⟨hmade', hdecides', -⟩ := h'
  obtain rfl := Nat.le_antisymm (hmade.le fun _ => hdecides'.not_fails)
    (hmade'.le fun _ => hdecides.not_fails)
  exact ⟨rfl, Outcome.returned.inj (hdecides.1.symm.trans hdecides'.1)⟩

/-- Attempts are made up to the one that concludes the wait. -/
theorem Schedule.Concludes.made_iff {s : Schedule α} {l : Limits} {k : Nat} {r : Except Failure α}
    (h : s.Concludes l k r) (j : Nat) : j < k + 1 ↔ s.Made l j := by
  refine ⟨fun hj => ?_, fun hj => Nat.lt_succ_of_le (hj.le fun f => h.2.1.not_fails)⟩
  rcases Nat.lt_succ_iff_lt_or_eq.1 hj with hj | rfl
  · exact (h.1.of_lt hj).elim fun _ hf => hf.1
  · exact h.1

theorem Schedule.Concludes.finish_lt {s : Schedule α} {l : Limits} {k : Nat} {r : Except Failure α}
    (h : s.Concludes l k r) {e : Instant} (he : l.endsAt = some e) : s.finish k < e :=
  Nat.lt_of_not_le fun hle => Bool.noConfusion ((endedBy_of_le he hle).symm.trans h.2.2)

/-- A wait that crashes does so before its limits end, or when it is asked for. -/
theorem Schedule.Crashes.le_max {s : Schedule α} {l : Limits} {k : Nat} {t : Instant}
    (h : s.Crashes l k t) {e : Instant} (he : l.endsAt = some e) : t ≤ max e s.asked := by
  have hlt {t : Instant} (hlive : l.endedBy t = false) : t < e :=
    Nat.lt_of_not_le fun hle => Bool.noConfusion ((endedBy_of_le he hle).symm.trans hlive)
  cases h with
  | pause hover =>
    cases k with
    | zero => exact Nat.le_max_right e s.asked
    | succ k =>
      have hearly := hlt (hover.live (Nat.succ_pos k))
      exact Nat.le_trans (Nat.le_of_lt hearly) (Nat.le_max_left e s.asked)
  | attempt _ _ hlive => exact Nat.le_trans (Nat.le_of_lt (hlt hlive)) (Nat.le_max_left e s.asked)

/-- What a wait is for: a call that is made until its answer is judged to be good. The wait crashes
at an answer on which there is no judgement. -/
structure Aim (A : Api) (α : Type) where
  what : String
  call : A.Call
  judge : Except Failure (A.Answer call) → Option (Except Failure α)

/-- The course of an attempt whose answer comes after some time. -/
def Course.ofJudgement (takes : Nat) : Option (Except Failure α) → Course α
  | some r => { takes, ends := .returned r }
  | none => { takes, ends := .crashed }

namespace Aim

def probe (x : Aim A α) : Probe A α := .ask x.call fun answer => .ofJudgement (x.judge answer)

section Courses

variable (x : Aim A α) (w : World A)

/-- The course of an attempt that finds the world in some state, and the state in which it leaves
it. -/
def attempt (s : w.State) : Course α × w.State :=
  match w.start s x.call with
  | (s, none) => ({ ends := .stalled }, s)
  | (s, some (delay, finish)) => (.ofJudgement delay (x.judge (finish s).2), (finish s).1)

/-- The state of the world after so many attempts. -/
def stateAfter (s : w.State) : Nat → w.State
  | 0 => s
  | k + 1 => (x.attempt w (stateAfter s k)).2

/-- The schedule of a wait that is asked for at some instant, when the world is in some state. -/
def schedule (t : Instant) (s : w.State) : Schedule α where
  attempts k := (x.attempt w (x.stateAfter w s k)).1
  pacing := defaultPacing
  pacing_pos := by decide
  asked := t

/-- The first calls of a wait. -/
def tries (t : Instant) (s : w.State) (n : Nat) : List (Instant × A.Call) :=
  (List.range n).map fun k => ((x.schedule w t s).start k, x.call)

/-- The wait, for an observer of some patience. -/
def run (patience : Nat) (l : Limits) (m : Moment w) : Outcome (Except Failure α) × Moment w :=
  pollFrom w l defaultPacing x.what x.probe (attemptsUntil patience l.endsAt m.now) none m

end Courses

section Mirrors

variable {x : Aim A α} {w : World A} {t : Instant} {s : w.State} {l : Limits}

/-- At both moments it is the same time, and the calls since the wait was asked for are those of the
schedule. -/
structure Mirrors (x : Aim A α) (earlier : List (Instant × A.Call)) (m : Moment w)
    (m' : Moment (x.schedule w t s).world) : Prop where
  now : m.now = m'.now
  started : m.started = m'.started.map (fun c => (c.1, x.call)) ++ earlier

/-- Both runs end in the same way. -/
structure EndsLike (x : Aim A α) (earlier : List (Instant × A.Call))
    (u : Outcome (Except Failure α) × Moment w)
    (u' : Outcome (Except Failure α) × Moment (x.schedule w t s).world) : Prop where
  outcome : u.1 = u'.1
  mirrors : Mirrors x earlier u.2 u'.2
  state (a : α) (h : u.1 = .returned (.ok a)) : u.2.state = x.stateAfter w s u'.2.started.length

/-- The wait has made `k` attempts, and may be about to make the next. -/
structure Ready (x : Aim A α) (earlier : List (Instant × A.Call)) (k : Nat) (m : Moment w)
    (m' : Moment (x.schedule w t s).world) : Prop extends Mirrors x earlier m m' where
  state : m.state = x.stateAfter w s k
  attempts : m'.state = k
  count : m'.started.length = k

variable {earlier : List (Instant × A.Call)} {m m₀ : Moment w}
  {m' : Moment (x.schedule w t s).world} {what : String} {last : Option Failure}
  {k : Nat}

theorem Mirrors.cutOff (h : Mirrors x earlier m m') :
    EndsLike x earlier (cutOff l what last m) (cutOff l what last m') := by
  unfold Wait.cutOff
  split
  · rw [h.now]
    exact ⟨rfl, ⟨rfl, h.started⟩, nofun⟩
  · exact ⟨rfl, h, nofun⟩

theorem answerTo_ofJudgement (takes : Nat) (judgement : Option (Except Failure α)) :
    Schedule.answerTo (.ofJudgement takes judgement) =
      some (takes, fun k => (k, .ok judgement)) := by
  cases judgement <;> rfl

/-- An attempt, in the world and in the schedule, takes the same course. -/
theorem Ready.probe_run (h : Ready x earlier k m m') (limit : Option Instant) :
    ∃ o m₁ m₁', x.probe.run w limit m = (o, m₁) ∧
      Schedule.probe.run (x.schedule w t s).world limit m' = (o, m₁') ∧
      Mirrors x earlier m₁ m₁' ∧ ∀ r, o = .returned r → Ready x earlier (k + 1) m₁ m₁' := by
  obtain ⟨⟨hnow, hstarted⟩, hstate, hattempts, hcount⟩ := h
  have hattempt : x.stateAfter w s (k + 1) = (x.attempt w m.state).2 := by rw [hstate]; rfl
  have hcourse : (x.schedule w t s).world.start m'.state () =
      (k + 1, Schedule.answerTo (x.attempt w m.state).1) := by
    rw [hattempts, hstate]
    rfl
  have hbegun (s₁ : w.State) : Mirrors x earlier (m.begun x.call s₁)
      (m'.begun (A := Schedule.api α) () (k + 1)) :=
    ⟨hnow, by simp [Moment.begun, hstarted, hnow]⟩
  rcases hstart : w.start m.state x.call with ⟨s₁, _ | ⟨delay, finish⟩⟩
  · simp only [attempt, hstart] at hcourse
    exact ⟨_, _, _, Probe.run_ask_of_hanging hstart, Probe.run_ask_of_hanging hcourse, hbegun s₁,
      fun _ h => by cases h⟩
  · simp only [attempt, hstart] at hcourse hattempt
    rw [answerTo_ofJudgement] at hcourse
    by_cases hlate : ∃ e, limit = some e ∧ e ≤ m.now + delay
    · exact ⟨_, _, _, Probe.run_ask_of_late hstart hlate,
        Probe.run_ask_of_late hcourse (hnow ▸ hlate), hbegun s₁, fun _ h => by cases h⟩
    · have hearly : ∀ e, limit = some e → m.now + delay < e :=
        fun e he => Nat.lt_of_not_le fun hle => hlate ⟨e, he, hle⟩
      have hrun : x.probe.run w limit m = (Probe.ofJudgement (x.judge (finish s₁).2)).run w limit
          (m.answered x.call delay (finish s₁).1) := Probe.run_ask_of_answered hstart hearly
      have hrun' := Schedule.probe_run_answered hcourse rfl (hnow ▸ hearly)
      have hanswered : Mirrors x earlier (m.answered x.call delay (finish s₁).1)
          (m'.answered (A := Schedule.api α) () delay (k + 1)) :=
        ⟨congrArg (· + delay) hnow, (hbegun s₁).started⟩
      cases hjudge : x.judge (finish s₁).2 with
      | none =>
        rw [hjudge] at hrun hrun'
        exact ⟨_, _, _, hrun, hrun', hanswered, fun _ h => by cases h⟩
      | some r =>
        rw [hjudge] at hrun hrun'
        exact ⟨_, _, _, hrun, hrun', hanswered,
          fun _ _ => ⟨hanswered, hattempt.symm, rfl, congrArg (· + 1) hcount⟩⟩

/-- What follows an attempt is alike if what follows a pause is. -/
theorem Ready.afterAttempt {start start' : Instant} (h : Ready x earlier k m m')
    (hstart : start = start') (n : Nat) (r : Except Failure α)
    (hrest : ∀ {m m'} (last : Option Failure), Ready x earlier k m m' →
      EndsLike x earlier (Wait.pollFrom w l defaultPacing what x.probe n last m)
        (Wait.pollFrom (x.schedule w t s).world l defaultPacing what Schedule.probe n last m')) :
    EndsLike x earlier (Wait.afterAttempt w l defaultPacing what x.probe n start r m)
      (Wait.afterAttempt (x.schedule w t s).world l defaultPacing what Schedule.probe n start' r
        m') := by
  subst hstart
  cases r with
  | ok a => exact ⟨rfl, h.toMirrors, fun _ _ => h.count ▸ h.state⟩
  | error f =>
    have hnext : max m.now (start + defaultPacing) = max m'.now (start + defaultPacing) := by
      rw [h.now]
    unfold Wait.afterAttempt
    dsimp only
    rw [hnext]
    cases f.retryable with
    | false => exact ⟨rfl, h.toMirrors, nofun⟩
    | true =>
      cases l.endedBy (max m'.now (start + defaultPacing)) with
      | true => exact h.toMirrors.cutOff
      | false => exact hrest (some f) ⟨⟨rfl, h.started⟩, h.state, h.attempts, h.count⟩

/-- What is left of a wait runs like what is left of its schedule. -/
theorem Ready.pollFrom (h : Ready x earlier k m m') (n : Nat) (last : Option Failure) :
    EndsLike x earlier (Wait.pollFrom w l defaultPacing what x.probe n last m)
      (Wait.pollFrom (x.schedule w t s).world l defaultPacing what Schedule.probe n last m') := by
  induction n generalizing k last m m' with
  | zero => exact ⟨rfl, h.toMirrors, nofun⟩
  | succ n ih =>
    by_cases hclock : after? m.now defaultPacing = none
    · rw [pollFrom_of_overrun hclock, pollFrom_of_overrun (h.now ▸ hclock)]
      exact ⟨rfl, h.toMirrors, nofun⟩
    cases hlive : l.endedBy m.now with
    | true =>
      rw [pollFrom_of_endedBy hclock hlive, pollFrom_of_endedBy (h.now ▸ hclock) (h.now ▸ hlive)]
      exact h.toMirrors.cutOff
    | false =>
      have hstarts : Starts l defaultPacing m := ⟨after?_eq_some hclock, hlive⟩
      have hstarts' : Starts l defaultPacing m' := ⟨h.now ▸ hstarts.reckoned, h.now ▸ hlive⟩
      rw [pollFrom_succ hstarts, pollFrom_succ hstarts']
      obtain ⟨o, m₁, m₁', hrun, hrun', hmirrors, hready⟩ := h.probe_run l.endsAt
      rw [hrun, hrun']
      cases o with
      | stalled => exact hmirrors.cutOff
      | crashed => exact ⟨rfl, hmirrors, nofun⟩
      | returned r =>
        exact (hready r rfl).afterAttempt h.now n r fun last hready => ih hready last

theorem Mirrors.calls (h : Mirrors x m.started m₀ m') {n : Nat}
    (hcalls : m'.calls = (List.range n).map fun k => ((x.schedule w t s).start k, ())) :
    m₀.calls = m.calls ++ x.tries w t s n := by
  have hall : m₀.calls = m.calls ++ m'.calls.map fun c => (c.1, x.call) := by
    simp [Moment.calls, h.started]
  rw [hall, hcalls]
  exact congrArg (m.calls ++ ·) List.map_map

end Mirrors

section Runs

variable {x : Aim A α} {w : World A} {l : Limits} {m : Moment w}

/-- A wait in a world runs like its schedule, and so follows it. -/
theorem run_follows_courses (x : Aim A α) (l : Limits) (patience : Nat) (m : Moment w) :
    ∃ u', (x.schedule w m.now m.state).Follows l x.what patience u' ∧
      EndsLike x m.started (x.run w patience l m) u' := by
  have hasked := Schedule.At.asked (x.schedule w m.now m.state) l
  have hready : Ready (t := m.now) (s := m.state) x m.started 0 m ⟨m.now, (0 : Nat), []⟩ :=
    ⟨⟨rfl, rfl⟩, rfl, rfl, rfl⟩
  exact ⟨_, hasked.pollFrom_follows rfl, hready.pollFrom _ none⟩

/-- The attempt that concludes a wait is the last one. -/
theorem run_of_concludes {k : Nat} {r : Except Failure α}
    (h : (x.schedule w m.now m.state).Concludes l k r) {patience : Nat}
    (hpatience : l.endsAt = none → k < patience) :
    ∃ m', x.run w patience l m = (.returned r, m') ∧
      m'.now = (x.schedule w m.now m.state).finish k ∧
      m'.calls = m.calls ++ x.tries w m.now m.state (k + 1) ∧
      ∀ a, r = .ok a → m'.state = x.stateAfter w m.state (k + 1) := by
  obtain ⟨u', hfollows, houtcome, hmirrors, hstate⟩ := x.run_follows_courses l patience m
  obtain ⟨hreturned, hnow⟩ := hfollows.concluded k r h hpatience
  obtain ⟨n, hcalls, hmade⟩ := hfollows.starts
  have hn : n = k + 1 := by
    refine Nat.le_antisymm (Nat.le_of_not_lt fun hlt => ?_) ((hmade k).2 ⟨h.1, hpatience⟩)
    exact Nat.lt_irrefl _ ((h.made_iff (k + 1)).2 ((hmade (k + 1)).1 hlt).1)
  subst hn
  refine ⟨_, Prod.ext (houtcome.trans hreturned) rfl, hmirrors.now.trans hnow,
    hmirrors.calls hcalls, fun a ha => ?_⟩
  have hcount : u'.2.started.length = k + 1 := by
    rw [← List.length_reverse]
    refine (congrArg List.length hcalls).trans ?_
    exact (List.length_map _).trans List.length_range
  rw [hstate a (houtcome.trans (ha ▸ hreturned)), hcount]

/-- A wait that crashes. -/
theorem run_of_crashes {k : Nat} {t : Instant} (h : (x.schedule w m.now m.state).Crashes l k t)
    {patience : Nat} (hpatience : l.endsAt = none → k < patience) :
    ∃ m' n, x.run w patience l m = (.crashed, m') ∧ m'.now = t ∧
      m'.calls = m.calls ++ x.tries w m.now m.state n ∧
      ∀ j, j < n ↔ (x.schedule w m.now m.state).Made l j := by
  obtain ⟨u', hfollows, houtcome, hmirrors, -⟩ := x.run_follows_courses l patience m
  obtain ⟨hcrashed, hnow⟩ := hfollows.crashed k t h hpatience
  obtain ⟨n, hcalls, hmade⟩ := hfollows.starts
  refine ⟨_, n, Prod.ext (houtcome.trans hcrashed) rfl, hmirrors.now.trans hnow,
    hmirrors.calls hcalls, fun j => ⟨fun hj => ((hmade j).1 hj).1, fun hj => (hmade j).2 ⟨hj, ?_⟩⟩⟩
  exact fun hl => Nat.lt_of_le_of_lt (h.le hj) (hpatience hl)

/-- A wait that no attempt concludes, and that does not crash, goes on until its limits end. -/
theorem run_of_not_concludes (patience : Nat) {e : Instant} (hends : l.endsAt = some e)
    (h : ∀ k r, ¬ (x.schedule w m.now m.state).Concludes l k r)
    (hcrash : ∀ k t, ¬ (x.schedule w m.now m.state).Crashes l k t) :
    ∃ m' last n, ∃ i : Interrupt,
      x.run w patience l m = (.returned (.error (i.failure x.what last)), m') ∧
      m'.now = max e m.now ∧ m'.calls = m.calls ++ x.tries w m.now m.state n ∧
      (∀ k, k < n ↔ (x.schedule w m.now m.state).Made l k) ∧
      (x.schedule w m.now m.state).LastFailure l last ∧
      (i = .cancelled ↔
        ∃ c, l.cancelledAt = some c ∧ (c ≤ m.now ∨ ∀ d, l.deadline = some d → c ≤ d)) := by
  obtain ⟨u', hfollows, houtcome, hmirrors, -⟩ := x.run_follows_courses l patience m
  obtain ⟨i, last, hreturned, hnow, hlast, hi⟩ := hfollows.interrupted h hcrash e hends
  obtain ⟨n, hcalls, hmade⟩ := hfollows.starts
  refine ⟨_, last, n, i, Prod.ext (houtcome.trans hreturned) rfl, hmirrors.now.trans hnow,
    hmirrors.calls hcalls, fun k => ?_, hlast, hi⟩
  rw [hmade, hends]
  exact and_iff_left nofun

end Runs

end Aim

end Reachability.Wait
