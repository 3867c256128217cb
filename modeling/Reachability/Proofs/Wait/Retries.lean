import Reachability.Proofs.Failure
import Reachability.Proofs.Wait.Cut
import Reachability.Wait.Script

namespace Reachability.Wait

variable {A : Api} {w : World A} {α : Type}

/-- So many attempts of a wait one after the other, each of which failed and was followed by a
pause: the first began at the first moment, and the next is due at the second. -/
inductive Retried (l : Limits) (pacing : Nat) (p : Probe A α) :
    Nat → Moment w → Moment w → Prop
  | none (m : Moment w) : Retried l pacing p 0 m m
  | more {k : Nat} {m failed m' : Moment w} {f : Failure} (hstarts : Starts l pacing m)
      (hrun : p.run w l.endsAt m = (.returned (.error f), failed)) (hf : f.retryable = true)
      (hpause : l.endedBy (max failed.now (m.now + pacing)) = false)
      (hrest : Retried l pacing p k { failed with now := max failed.now (m.now + pacing) } m') :
      Retried l pacing p (k + 1) m m'

theorem Moment.Precedes.started_suffix {m m' : Moment w} (h : m.Precedes m') :
    m.started <:+ m'.started := by
  obtain ⟨calls, hcalls, -⟩ := h.started
  exact ⟨calls, hcalls.symm⟩

/-- The first of the attempts that are left is part of the wait. -/
theorem probe_run_precedes_pollFrom {l : Limits} {pacing : Nat} {what : String} {p : Probe A α}
    {n : Nat} {last : Option Failure} {m : Moment w} (hstarts : Starts l pacing m) :
    (p.run w l.endsAt m).2.Precedes (pollFrom w l pacing what p (n + 1) last m).2 := by
  rw [pollFrom_succ hstarts]
  rcases p.run w l.endsAt m with ⟨r | _ | _, m'⟩
  · exact afterAttempt_precedes
  · exact cutOff_precedes ..
  · exact .refl m'

section History

variable {l : Limits} {pacing k : Nat} {p : Probe A α} {m m' : Moment w}

/-- After the earlier attempts, the wait is what is left of it. -/
theorem Retried.pollFrom (h : Retried l pacing p k m m') (what : String) (n : Nat)
    (last : Option Failure) :
    ∃ last', pollFrom w l pacing what p (k + n) last m = pollFrom w l pacing what p n last' m' := by
  induction h generalizing last with
  | none m => exact ⟨last, by rw [Nat.zero_add]⟩
  | @more k m failed m' f hstarts hrun hf hpause _ ih =>
    obtain ⟨last', hrest⟩ := ih (some f)
    refine ⟨last', ?_⟩
    rw [Nat.add_right_comm, pollFrom_succ hstarts, hrun]
    simpa only [afterAttempt, hf, hpause, if_true, Bool.false_eq_true, if_false] using hrest

/-- Every attempt takes the time of a pause at least. -/
theorem Retried.now_le (h : Retried l pacing p k m m') : m.now + k * pacing ≤ m'.now := by
  induction h with
  | none m => simp
  | @more k m failed m' f _ _ _ _ _ ih =>
    have hpause : m.now + pacing ≤ max failed.now (m.now + pacing) := Nat.le_max_right _ _
    have hsplit : (k + 1) * pacing = k * pacing + pacing := Nat.succ_mul k pacing
    simp only at ih
    lia

end History

/-- An attempt of a wait that fails. -/
structure FailedAttempt (w : World A) where
  limits : Limits
  pacing : Nat
  what : String
  /-- The call with which the attempts of the wait begin. -/
  call : A.Call
  /-- The number of the attempts before it. -/
  earlier : Nat
  begun : Moment w
  failed : Moment w
  failure : Failure

/-- The failure of the first call is that of the probe. -/
def Probe.PassesOn : Probe A α → Prop
  | .done _ | .crash => True
  | .ask _ next => ∀ f, next (.error f) = .done (.error f)

namespace FailedAttempt

variable {t : FailedAttempt w} {p : Probe A α} {m : Moment w} {n : Nat} {last : Option Failure}

/-- The wait that is asked for at a moment comes to the attempt, which fails before its end. -/
structure Of (t : FailedAttempt w) (p : Probe A α) (m : Moment w) : Prop where
  asks : ∃ next, p = .ask t.call next
  history : Retried t.limits t.pacing p t.earlier m t.begun
  starts : Starts t.limits t.pacing t.begun
  fails : p.run w t.limits.endsAt t.begun = (.returned (.error t.failure), t.failed)

/-- The instant at which another attempt is due. -/
def due (t : FailedAttempt w) : Instant := max t.failed.now (t.begun.now + t.pacing)

/-- Another attempt is due before the wait ends, and the clock cannot reckon the pause after it. -/
def Overruns (t : FailedAttempt w) : Prop :=
  t.limits.endedBy t.due = false ∧ after? t.due t.pacing = none

/-- The wait goes on after the attempt: another one begins when it is due, or the wait ends by then
and not before. -/
inductive Resumed (t : FailedAttempt w) : Outcome (Except Failure α) × Moment w → Prop
  | again {u : Outcome (Except Failure α) × Moment w} (hlive : t.limits.endedBy t.due = false)
      (hcalls : (t.due, t.call) :: t.failed.started <:+ u.2.started) : Resumed t u
  | awaited {e : Instant} (hends : t.limits.endsAt = some e) (hlate : t.failed.now < e)
      (hdue : e ≤ t.due) :
      Resumed t
        (.returned (.error ((t.limits.interrupt e).failure t.what (some t.failure))),
          { t.failed with now := e })

/-- An observer who has the patience for the attempt and the next. A wait with an end and with
pauses needs none. -/
def SeenBy (t : FailedAttempt w) (patience : Nat) : Prop :=
  t.limits.endsAt = none ∨ t.pacing = 0 → t.earlier + 1 < patience

theorem Of.begun_now_lt (h : t.Of p m) {e : Instant} (hends : t.limits.endsAt = some e) :
    t.begun.now < e := by
  apply Nat.lt_of_not_le
  intro hle
  exact Bool.noConfusion ((endedBy_of_le hends hle).symm.trans h.starts.live)

theorem Of.failed_now_lt (h : t.Of p m) {e : Instant} (hends : t.limits.endsAt = some e) :
    t.failed.now < e := by
  have hbegun := h.begun_now_lt hends
  have hfails := h.fails
  rw [hends] at hfails
  have hlt := p.run_now_lt hbegun
  rwa [hfails] at hlt

/-- There are attempts left for the next one. -/
theorem Of.earlier_lt (h : t.Of p m) {patience : Nat} (hseen : t.SeenBy patience) :
    t.earlier + 1 < attemptsUntil patience t.limits.endsAt m.now := by
  cases hends : t.limits.endsAt with
  | none => simpa [attemptsUntil, hends] using hseen (.inl hends)
  | some e =>
    simp only [attemptsUntil, Option.map_some, Option.getD_some]
    rcases Nat.eq_zero_or_pos t.pacing with hpacing | hpacing
    · have hpatience := hseen (.inr hpacing)
      lia
    · -- each attempt before this one took the time of a pause, and all of them fit before the end
      have hbegun := h.begun_now_lt hends
      have hhistory := h.history.now_le
      have hpauses : t.earlier ≤ t.earlier * t.pacing := Nat.le_mul_of_pos_right _ hpacing
      lia

/-- A wait that comes to the attempt does what it does after the attempt. -/
theorem Of.pollFrom (h : t.Of p m) (n : Nat) (last : Option Failure) :
    pollFrom w t.limits t.pacing t.what p (t.earlier + (n + 1)) last m =
      afterAttempt w t.limits t.pacing t.what p n t.begun.now (.error t.failure) t.failed := by
  obtain ⟨last', hrest⟩ := h.history.pollFrom t.what (n + 1) last
  rw [hrest, pollFrom_succ h.starts, h.fails]

/-- A failure that the wait does not try again is its result. -/
theorem Of.returns (h : t.Of p m) (hf : t.failure.retryable = false) (hn : t.earlier < n) :
    Wait.pollFrom w t.limits t.pacing t.what p n last m =
      (.returned (.error t.failure), t.failed) := by
  obtain ⟨n, rfl⟩ := Nat.exists_eq_add_of_lt hn
  rw [Nat.add_assoc, h.pollFrom]
  simp only [afterAttempt, hf, Bool.false_eq_true, if_false]

/-- The first call of an attempt. -/
theorem Of.call_suffix (h : t.Of p m) (m' : Moment w) :
    (m'.now, t.call) :: m'.started <:+ (p.run w t.limits.endsAt m').2.started := by
  obtain ⟨next, rfl⟩ := h.asks
  rcases Probe.run_ask_cases t.limits.endsAt t.call next m' with hcut | ⟨s, delay, finish, -, hrun⟩
  · rw [hcut]
    exact List.suffix_rfl
  · rw [hrun]
    exact ((next (finish s).2).run_precedes t.limits.endsAt
      (m'.answered t.call delay (finish s).1)).started_suffix

/-- After a failure that the wait tries again, another attempt is due unless the wait ends
before. -/
theorem Of.pollFrom_due (h : t.Of p m) (hf : t.failure.retryable = true)
    (hn : t.earlier + 1 < n) (last : Option Failure) :
    ∃ n', Wait.pollFrom w t.limits t.pacing t.what p n last m =
      if t.limits.endedBy t.due then cutOff t.limits t.what (some t.failure) t.failed
      else Wait.pollFrom w t.limits t.pacing t.what p (n' + 1) (some t.failure)
        { t.failed with now := t.due } := by
  obtain ⟨n, rfl⟩ := Nat.exists_eq_add_of_lt hn
  have hattempts : t.earlier + 1 + n + 1 = t.earlier + (n + 1 + 1) := by lia
  refine ⟨n, ?_⟩
  rw [hattempts, h.pollFrom]
  simp only [afterAttempt, hf, if_true]
  rfl

/-- The pause after the attempt that is due goes beyond the clock. -/
theorem Of.crashes (h : t.Of p m) (hf : t.failure.retryable = true) (hover : t.Overruns)
    (hn : t.earlier + 1 < n) :
    Wait.pollFrom w t.limits t.pacing t.what p n last m =
      (.crashed, { t.failed with now := t.due }) := by
  obtain ⟨n', hpoll⟩ := h.pollFrom_due hf hn last
  rw [hpoll, hover.1, if_neg Bool.false_ne_true]
  exact pollFrom_of_overrun hover.2

/-- After a failure that the wait tries again, it goes on. -/
theorem Of.resumes (h : t.Of p m) (hf : t.failure.retryable = true) (hclock : ¬ t.Overruns)
    (hn : t.earlier + 1 < n) :
    t.Resumed (Wait.pollFrom w t.limits t.pacing t.what p n last m) := by
  obtain ⟨n', hpoll⟩ := h.pollFrom_due hf hn last
  rw [hpoll]
  cases hdue : t.limits.endedBy t.due with
  | true =>
    obtain ⟨e, hends, hle⟩ := Limits.endedBy_iff.1 hdue
    have hlate := h.failed_now_lt hends
    rw [if_pos rfl, cutOff_of_endsAt hends, Nat.max_eq_left (Nat.le_of_lt hlate)]
    exact .awaited hends hlate hle
  | false =>
    rw [if_neg Bool.false_ne_true]
    refine .again hdue ?_
    have hreckoned := after?_eq_some fun hover => hclock ⟨hdue, hover⟩
    exact (h.call_suffix { t.failed with now := t.due }).trans
      (probe_run_precedes_pollFrom ⟨hreckoned, hdue⟩).started_suffix

/-- Where another attempt has begun there are more calls than before. -/
theorem started_ne_of_again {u : Outcome (Except Failure α) × Moment w}
    (hcalls : (t.due, t.call) :: t.failed.started <:+ u.2.started) :
    u.2.started ≠ t.failed.started := by
  intro hsame
  have hle := hcalls.length_le
  rw [hsame, List.length_cons] at hle
  exact Nat.not_succ_le_self _ hle

/-- A wait that goes on does not end with the attempt. -/
theorem Resumed.ne_failed {u : Outcome (Except Failure α) × Moment w} (h : t.Resumed u) :
    u ≠ (.returned (.error t.failure), t.failed) := by
  intro hu
  cases h with
  | again _ hcalls => exact started_ne_of_again hcalls (congrArg (·.2.started) hu)
  | awaited _ hlate _ => exact Nat.ne_of_gt hlate (congrArg (·.2.now) hu)

/-- A wait that crashes does not go on. -/
theorem Resumed.ne_crashed {u : Outcome (Except Failure α) × Moment w} (h : t.Resumed u) :
    u ≠ (.crashed, { t.failed with now := t.due }) := by
  intro hu
  cases h with
  | again _ hcalls => exact started_ne_of_again hcalls (congrArg (·.2.started) hu)
  | awaited => cases congrArg Prod.fst hu

/-- What a run makes of an attempt that it comes to: a failure that may not be tried again is its
result, and after any other it goes on, unless it crashes when the next attempt is due. -/
structure Settled (t : FailedAttempt w) (u : Outcome (Except Failure α) × Moment w) : Prop where
  returned (h : t.failure.retryable = false) : u = (.returned (.error t.failure), t.failed)
  resumed (h : t.failure.retryable = true) (hclock : ¬ t.Overruns) : t.Resumed u
  crashed (h : t.failure.retryable = true) (hover : t.Overruns) :
    u = (.crashed, { t.failed with now := t.due })

theorem Of.settled (h : t.Of p m) {patience : Nat} (hseen : t.SeenBy patience) :
    t.Settled (Wait.pollFrom w t.limits t.pacing t.what p
      (attemptsUntil patience t.limits.endsAt m.now) none m) where
  returned hf := h.returns hf (Nat.lt_of_succ_lt (h.earlier_lt hseen))
  resumed hf hclock := h.resumes hf hclock (h.earlier_lt hseen)
  crashed hf hover := h.crashes hf hover (h.earlier_lt hseen)

/-- What follows a run that passes failures on makes the same of the attempt. -/
theorem Settled.andThen {β : Type} {u : Outcome (Except Failure α) × Moment w} (h : t.Settled u)
    {k : Except Failure α → Moment w → Outcome (Except Failure β) × Moment w}
    (herror : ∀ f m, k (.error f) m = (.returned (.error f), m))
    (hk : ∀ r (m : Moment w), m.Precedes (k r m).2) : t.Settled (Wait.andThen u k) where
  returned hf := by
    rw [h.returned hf]
    exact herror _ _
  crashed hf hover := by
    rw [h.crashed hf hover]
    rfl
  resumed hf hclock := by
    cases h.resumed hf hclock with
    | again hlive hcalls => exact .again hlive (hcalls.trans (andThen_precedes hk).started_suffix)
    | @awaited e hends hlate hdue =>
      have hpassed := herror ((t.limits.interrupt e).failure t.what (some t.failure))
        { t.failed with now := e }
      change t.Resumed (k _ _)
      rw [hpassed]
      exact .awaited hends hlate hdue

/-- The failure of an attempt decides how a wait goes on, however often it was tried before and
however far apart. After the failures that it tries again, there is another attempt as soon as the
pause is over, or the wait ends when its limits say; if the clock cannot reckon the pause after that
attempt, the wait crashes when it is due. Every other failure is returned at once, by the attempt
that met it. (Of a taken name in the server's own words nothing is said.) -/
theorem poll_resumes_iff (t : FailedAttempt w) {p : Probe A α} {m : Moment w} (ht : t.Of p m)
    {patience : Nat} (hseen : t.SeenBy patience)
    (htaken : ∀ why, t.failure = .api why → why.isAlreadyExists = false) :
    let u := (Procedure.poll t.pacing t.what p .done).run w patience t.limits m
    (t.Resumed u ↔ t.failure.RetriedByPoll ∧ ¬ t.Overruns) ∧
      (u = (.crashed, { t.failed with now := t.due }) ↔ t.failure.RetriedByPoll ∧ t.Overruns) ∧
      (u = (.returned (.error t.failure), t.failed) ↔ ¬ t.failure.RetriedByPoll) := by
  intro u
  have hsettled : t.Settled u := by
    simp only [u, Procedure.run_poll, andThen_done]
    exact ht.settled hseen
  rw [← Failure.retryable_iff htaken]
  cases hf : t.failure.retryable with
  | true =>
    by_cases hover : t.Overruns
    · have hcrashed := hsettled.crashed hf hover
      refine ⟨iff_of_false (fun h => h.ne_crashed hcrashed) fun h => h.2 hover,
        iff_of_true hcrashed ⟨rfl, hover⟩, iff_of_false (fun h => ?_) fun h => h rfl⟩
      cases congrArg Prod.fst (hcrashed.symm.trans h)
    · have hresumed := hsettled.resumed hf hover
      exact ⟨iff_of_true hresumed ⟨rfl, hover⟩,
        iff_of_false hresumed.ne_crashed fun h => hover h.2,
        iff_of_false hresumed.ne_failed fun h => h rfl⟩
  | false =>
    have hreturned := hsettled.returned hf
    refine ⟨iff_of_false (fun h => h.ne_failed hreturned) fun h => Bool.false_ne_true h.1,
      iff_of_false (fun h => ?_) fun h => Bool.false_ne_true h.1,
      iff_of_true hreturned Bool.false_ne_true⟩
    cases congrArg Prod.fst (hreturned.symm.trans h)

/-- The attempt makes its first call, which gets this answer. -/
def Answered (t : FailedAttempt w) (answer : Except Failure (A.Answer t.call)) : Prop :=
  ∃ s delay finish, w.start t.begun.state t.call = (s, some (delay, finish)) ∧
    (finish s).2 = answer

/-- A probe that fails with the failure of its first call does so in every attempt. -/
theorem Of.failure_eq (h : t.Of p m) {f : Failure} (hanswered : t.Answered (.error f))
    (hp : p.PassesOn) : t.failure = f := by
  obtain ⟨next, rfl⟩ := h.asks
  obtain ⟨s, delay, finish, hstart, hanswer⟩ := hanswered
  have hfails := h.fails
  rcases Probe.run_ask_cases t.limits.endsAt t.call next t.begun with
    hcut | ⟨s', delay', finish', hstart', hrun⟩
  · rw [hcut] at hfails
    cases congrArg Prod.fst hfails
  · cases hstart.symm.trans hstart'
    rw [hrun, hanswer, hp f] at hfails
    cases congrArg Prod.fst hfails
    rfl

end FailedAttempt

/-- A broken stream, a missing object, a conflict and a rejection. -/
def roughFailures : List Failure :=
  [.io "stream did not contain valid UTF-8",
    .api (.refused
      { status := "Failure", message := "no pods", reason := "NotFound", code := 404 }),
    .api (.refused
      { status := "Failure", message := "in the way", reason := "Conflict", code := 409 }),
    .api (.refused
      { status := "Failure", message := "not allowed", reason := "Forbidden", code := 403 })]

/-- The wait meets the failures one after the other, and would go on with the last. -/
def roughStart : Moment (attemptWorld Unit) where
  now := 0
  state := roughFailures.map fun f => { takes := 5, result := some (.error f) }

/-- The attempts of the wait, ten milliseconds apart. -/
def roughAttempt (k : Nat) : FailedAttempt (attemptWorld Unit) where
  limits := {}
  pacing := 10
  what := "pods"
  call := ()
  earlier := k
  begun :=
    { now := k * 10
      state := roughStart.state.drop k
      started := ((List.range k).map fun j => (j * 10, ())).reverse }
  failed :=
    { now := k * 10 + 5
      state := roughStart.state.drop (min (k + 1) 3)
      started := ((List.range (k + 1)).map fun j => (j * 10, ())).reverse }
  failure := roughFailures.getD k .yaml

theorem roughAttempt_of :
    (roughAttempt 0).Of (.call (A := attemptApi Unit) ()) roughStart ∧
      (roughAttempt 1).Of (.call (A := attemptApi Unit) ()) roughStart ∧
      (roughAttempt 2).Of (.call (A := attemptApi Unit) ()) roughStart ∧
      (roughAttempt 3).Of (.call (A := attemptApi Unit) ()) roughStart := by
  have first : Starts {} 10 roughStart := ⟨rfl, rfl⟩
  have second : Starts {} 10 (roughAttempt 1).begun := ⟨rfl, rfl⟩
  have third : Starts {} 10 (roughAttempt 2).begun := ⟨rfl, rfl⟩
  refine ⟨⟨⟨_, rfl⟩, .none _, ⟨rfl, rfl⟩, rfl⟩, ⟨⟨_, rfl⟩, ?_, ⟨rfl, rfl⟩, rfl⟩,
    ⟨⟨_, rfl⟩, ?_, ⟨rfl, rfl⟩, rfl⟩, ⟨⟨_, rfl⟩, ?_, ⟨rfl, rfl⟩, rfl⟩⟩
  · exact .more first rfl rfl rfl (.none _)
  · exact .more first rfl rfl rfl (.more second rfl rfl rfl (.none _))
  · exact .more first rfl rfl rfl (.more second rfl rfl rfl (.more third rfl rfl rfl (.none _)))

/-- The rejection ends the wait in its fourth attempt. -/
theorem roughAttempt_ends :
    (Procedure.poll 10 "pods" (.call (A := attemptApi Unit) ()) .done).run (attemptWorld Unit) 5
      {} roughStart = (.returned (.error (roughAttempt 3).failure), (roughAttempt 3).failed) := by
  have hof := roughAttempt_of.2.2.2
  have hseen : (roughAttempt 3).SeenBy 5 := fun _ => by decide
  obtain ⟨-, -, hreturns⟩ := (roughAttempt 3).poll_resumes_iff hof hseen fun why h => by
    cases h
    rfl
  exact hreturns.2 fun h => absurd (Failure.retriedByPoll_refused.1 h) (by decide)

/-- The wait goes on after the broken stream, the missing object and the conflict, none of which
counts among the failures that pass. -/
theorem roughAttempt_resumed :
    let u := (Procedure.poll 10 "pods" (.call (A := attemptApi Unit) ()) .done).run
      (attemptWorld Unit) 5 {} roughStart
    (roughAttempt 0).Of (.call (A := attemptApi Unit) ()) roughStart ∧ (roughAttempt 0).Resumed u ∧
      ¬ (roughAttempt 0).failure.RetryableBySpec ∧
    (roughAttempt 1).Of (.call (A := attemptApi Unit) ()) roughStart ∧ (roughAttempt 1).Resumed u ∧
      ¬ (roughAttempt 1).failure.RetryableBySpec ∧
    (roughAttempt 2).Of (.call (A := attemptApi Unit) ()) roughStart ∧ (roughAttempt 2).Resumed u ∧
      ¬ (roughAttempt 2).failure.RetryableBySpec := by
  intro u
  obtain ⟨h₀, h₁, h₂, -⟩ := roughAttempt_of
  have hcalls : u.2.started = [(30, ()), (20, ()), (10, ()), (0, ())] := rfl
  refine ⟨h₀, .again rfl ⟨[(30, ()), (20, ())], hcalls.symm⟩, ?_,
    h₁, .again rfl ⟨[(30, ())], hcalls.symm⟩, ?_, h₂, .again rfl ⟨[], hcalls.symm⟩, ?_⟩
  · exact nofun
  · exact fun h => absurd (Failure.retryableBySpec_refused.1 h) (by decide)
  · exact fun h => absurd (Failure.retryableBySpec_refused.1 h) (by decide)

namespace Procedure

variable {β : Type} {patience : Nat} {t : FailedAttempt w} {l : Limits} {m : Moment w}

/-- A run of the procedure comes to the attempt in one of its waits. -/
def ComesTo (patience : Nat) (t : FailedAttempt w) {α : Type} :
    Procedure A α → Limits → Moment w → Prop
  | .done _, _, _ => False
  | .race what probe next, l, m =>
    ∃ r m', raceOnce w l what probe m = (.returned r, m') ∧ (next r).ComesTo patience t l m'
  | .poll pacing what probe next, l, m =>
    (t.limits = l ∧ t.pacing = pacing ∧ t.what = what ∧ t.Of probe m) ∨
      ∃ r m', pollFrom w l pacing what probe (attemptsUntil patience l.endsAt m.now) none m =
        (.returned r, m') ∧ (next r).ComesTo patience t l m'
  | .within timeout body next, l, m =>
    ∃ d, after? m.now timeout = some d ∧
      (body.ComesTo patience t (l.withDeadline d) m ∨
        ∃ b m', body.run w patience (l.withDeadline d) m = (.returned b, m') ∧
          (next b).ComesTo patience t l m')
  | .draw n next, l, m =>
    (next (w.choose m.state n).2).ComesTo patience t l { m with state := (w.choose m.state n).1 }

/-- A run comes to an attempt in its first part or, if that returns, in the second. -/
theorem ComesTo.of_bind {p : Procedure A α} {f : α → Procedure A β}
    (h : (p.bind f).ComesTo patience t l m) :
    p.ComesTo patience t l m ∨
      ∃ a m', p.run w patience l m = (.returned a, m') ∧ (f a).ComesTo patience t l m' := by
  induction p generalizing l m with
  | done a => exact .inr ⟨a, m, rfl, h⟩
  | race what probe next ih =>
    obtain ⟨r, m', hrace, hnext⟩ := h
    refine (ih r hnext).imp (fun hnext => ⟨r, m', hrace, hnext⟩) ?_
    rintro ⟨a, m'', hrun, hrest⟩
    exact ⟨a, m'', by rw [run_race, hrace]; exact hrun, hrest⟩
  | poll pacing what probe next ih =>
    obtain hhere | ⟨r, m', hpoll, hnext⟩ := h
    · exact .inl (.inl hhere)
    · refine (ih r hnext).imp (fun hnext => .inr ⟨r, m', hpoll, hnext⟩) ?_
      rintro ⟨a, m'', hrun, hrest⟩
      exact ⟨a, m'', by rw [run_poll, hpoll]; exact hrun, hrest⟩
  | within timeout body next _ ih =>
    obtain ⟨d, hclock, hbody | ⟨b, m', hbody, hnext⟩⟩ := h
    · exact .inl ⟨d, hclock, .inl hbody⟩
    · refine (ih b hnext).imp (fun hnext => ⟨d, hclock, .inr ⟨b, m', hbody, hnext⟩⟩) ?_
      rintro ⟨a, m'', hrun, hrest⟩
      refine ⟨a, m'', ?_, hrest⟩
      simp only [run_within, hclock, hbody]
      exact hrun
  | draw n next ih => exact ih _ h

end Procedure

end Reachability.Wait
