import Reachability.Proofs.Wait.Cut

namespace Reachability.Wait

variable {A : Api} {w : World A} {α β : Type}

section Crashes

variable {bad : (c : A.Call) → Except Failure (A.Answer c) → Prop} {allowed : Nat → Prop}

/-- The call that was started last has been answered, badly, and nothing has happened since. -/
inductive Moment.EndsBadly (bad : (c : A.Call) → Except Failure (A.Answer c) → Prop)
    (m : Moment w) : Prop
  | intro {c : A.Call} {t : Instant} {earlier : List (Instant × A.Call)} {before s : w.State}
      {delay : Nat} {finish : w.State → w.State × Except Failure (A.Answer c)}
      (hstarted : m.started = (t, c) :: earlier)
      (hstart : w.start before c = (s, some (delay, finish))) (hstate : m.state = (finish s).1)
      (hbad : bad c (finish s).2)

/-- The probe crashes only right after an answer that is bad. -/
def Probe.Blames (bad : (c : A.Call) → Except Failure (A.Answer c) → Prop) : Probe A α → Prop
  | .done _ => True
  | .crash => False
  | .ask c next => ∀ answer, (next answer = .crash ∧ bad c answer) ∨ (next answer).Blames bad

theorem Probe.Blames.run {probe : Probe A α} (h : probe.Blames bad) {limit : Option Instant}
    {m m' : Moment w} (hrun : probe.run w limit m = (.crashed, m')) : m'.EndsBadly bad := by
  induction probe generalizing m with
  | done r => cases hrun
  | crash => exact h.elim
  | ask c next ih =>
    rcases run_ask_cases limit c next m with hcut | ⟨s, delay, finish, hstart, hanswered⟩
    · cases hcut.symm.trans hrun
    · rw [hanswered] at hrun
      rcases h (finish s).2 with ⟨hcrash, hbad⟩ | hnext
      · rw [hcrash] at hrun
        cases hrun
        exact .intro rfl hstart rfl hbad
      · exact ih _ hnext hrun

/-- If it crashed, then where the clock could not reckon one of the spans that are allowed, or at an
answer that is bad. -/
def CrashesBy (allowed : Nat → Prop) (bad : (c : A.Call) → Except Failure (A.Answer c) → Prop)
    (u : Outcome α × Moment w) : Prop :=
  u.1 = .crashed → (∃ span, allowed span ∧ after? u.2.now span = none) ∨ u.2.EndsBadly bad

theorem CrashesBy.of_ne {u : Outcome α × Moment w} (h : u.1 ≠ .crashed) :
    CrashesBy allowed bad u :=
  fun hcrashed => absurd hcrashed h

theorem CrashesBy.andThen {u : Outcome α × Moment w}
    {k : α → Moment w → Outcome β × Moment w} (hu : CrashesBy allowed bad u)
    (hk : ∀ a m, CrashesBy allowed bad (k a m)) : CrashesBy allowed bad (andThen u k) := by
  obtain ⟨o, m⟩ := u
  cases o with
  | returned a => exact hk a m
  | stalled => exact .of_ne nofun
  | crashed => exact fun _ => hu rfl

theorem cutOff_ne_crashed (l : Limits) (what : String) (last : Option Failure) (m : Moment w) :
    (cutOff (α := α) l what last m).1 ≠ .crashed := by
  unfold cutOff
  split <;> simp

/-- A single attempt asks the clock for nothing. -/
theorem raceOnce_crashesBy {probe : Probe A α} (h : probe.Blames bad) (l : Limits) (what : String)
    (m : Moment w) : CrashesBy allowed bad (raceOnce w l what probe m) := by
  unfold raceOnce
  split
  · exact .of_ne (cutOff_ne_crashed l what none m)
  · rcases hrun : probe.run w l.endsAt m with ⟨r | _ | _, m'⟩
    · exact .of_ne nofun
    · exact .of_ne (cutOff_ne_crashed l what none m')
    · exact fun _ => .inr (h.run hrun)

theorem Polling.crashesBy {l : Limits} {pacing : Nat} {what : String} {probe : Probe A α}
    {m : Moment w} {u : Outcome (Except Failure α) × Moment w}
    (h : Polling w l pacing what probe m u) (hpacing : allowed pacing)
    (hprobe : probe.Blames bad) : CrashesBy allowed bad u := by
  induction h with
  | unobserved => exact .of_ne nofun
  | overrun hclock => exact fun _ => .inl ⟨pacing, hpacing, hclock⟩
  | ended last => exact .of_ne (cutOff_ne_crashed l what last _)
  | unanswered last => exact .of_ne (cutOff_ne_crashed l what last _)
  | awaited => exact .of_ne (cutOff_ne_crashed l what _ _)
  | crashed _ hrun => exact fun _ => .inr (hprobe.run hrun)
  | decided => exact .of_ne nofun
  | again _ _ _ _ _ ih => exact ih

namespace Procedure

/-- Every part of the procedure that has time of its own has as much as is allowed, every pause is
allowed too, and the probes crash only right after an answer that is bad. -/
def Allots (allowed : Nat → Prop) (bad : (c : A.Call) → Except Failure (A.Answer c) → Prop)
    {α : Type} : Procedure A α → Prop
  | done _ => True
  | race _ probe next => probe.Blames bad ∧ ∀ r, (next r).Allots allowed bad
  | poll pacing _ probe next =>
    allowed pacing ∧ probe.Blames bad ∧ ∀ r, (next r).Allots allowed bad
  | within timeout body next =>
    allowed timeout ∧ body.Allots allowed bad ∧ ∀ b, (next b).Allots allowed bad
  | draw _ next => ∀ i, (next i).Allots allowed bad

theorem Allots.bind {p : Procedure A α} {f : α → Procedure A β}
    (hp : p.Allots allowed bad) (hf : ∀ a, (f a).Allots allowed bad) :
    (p.bind f).Allots allowed bad := by
  induction p with
  | done a => exact hf a
  | race what probe next ih => exact ⟨hp.1, fun r => ih r (hp.2 r) hf⟩
  | poll pacing what probe next ih => exact ⟨hp.1, hp.2.1, fun r => ih r (hp.2.2 r) hf⟩
  | within timeout body next _ ih => exact ⟨hp.1, hp.2.1, fun b => ih b (hp.2.2 b) hf⟩
  | draw n next ih => exact fun i => ih i (hp i) hf

/-- A run crashes only where the clock cannot reckon one of the timeouts and pauses in it, or at an
answer that is bad. -/
theorem Allots.run {p : Procedure A α} (hp : p.Allots allowed bad)
    (patience : Nat) (l : Limits) (m : Moment w) :
    CrashesBy allowed bad (p.run w patience l m) := by
  induction p generalizing l m with
  | done a => exact .of_ne nofun
  | race what probe next ih =>
    rw [run_race]
    exact .andThen (raceOnce_crashesBy hp.1 l what m) fun r m => ih r (hp.2 r) l m
  | poll pacing what probe next ih =>
    rw [run_poll]
    exact .andThen ((pollFrom_polling ..).crashesBy hp.1 hp.2.1) fun r m => ih r (hp.2.2 r) l m
  | within timeout body next ihbody ihnext =>
    obtain ⟨htimeout, hbody, hnext⟩ := hp
    rw [run_within]
    cases hclock : after? m.now timeout with
    | none => exact fun _ => .inl ⟨timeout, htimeout, hclock⟩
    | some d => exact .andThen (ihbody hbody _ m) fun b m => ihnext b (hnext b) l m
  | draw n next ih => exact ih _ (hp _) l _

end Procedure

end Crashes

theorem returned_of_ne {u : Outcome α × Moment w} (hstalled : u.1 ≠ .stalled)
    (hcrashed : u.1 ≠ .crashed) : ∃ a, u = (.returned a, u.2) := by
  obtain ⟨o, m⟩ := u
  cases o with
  | returned a => exact ⟨a, rfl⟩
  | stalled => exact absurd rfl hstalled
  | crashed => exact absurd rfl hcrashed

/-- It has not stalled, and is over at `t` at the latest. -/
def OverBy (t : Instant) (u : Outcome α × Moment w) : Prop := u.1 ≠ .stalled ∧ u.2.now ≤ t

theorem OverBy.mono {t t' : Instant} {u : Outcome α × Moment w} (h : OverBy t u) (hle : t ≤ t') :
    OverBy t' u :=
  ⟨h.1, Nat.le_trans h.2 hle⟩

theorem OverBy.andThen {t t' : Instant} {u : Outcome α × Moment w}
    {k : α → Moment w → Outcome β × Moment w} (hu : OverBy t u) (hle : t ≤ t')
    (hk : ∀ a m, m.now ≤ t → OverBy t' (k a m)) : OverBy t' (andThen u k) := by
  obtain ⟨o, m⟩ := u
  obtain ⟨hstalled, hnow⟩ := hu
  cases o with
  | returned a => exact hk a m hnow
  | stalled => exact absurd rfl hstalled
  | crashed => exact ⟨by simp [Wait.andThen], Nat.le_trans hnow hle⟩

section Ends

variable {l : Limits} {e : Instant} (hends : l.endsAt = some e)
include hends

/-- A single attempt is over when the wait ends at the latest, or at once if the wait has ended. -/
theorem raceOnce_overBy (what : String) (probe : Probe A α) (m : Moment w) :
    OverBy (max e m.now) (raceOnce w l what probe m) := by
  obtain ⟨-, hstalled, hnow⟩ := raceOnce_same (w := w) hends hends (e := max e m.now + 1)
    (by lia) (fun _ _ => rfl) what probe (m := m) (by lia)
  exact ⟨hstalled, Nat.le_of_lt_succ hnow⟩

/-- There are as many attempts as a wait that pauses between them can make before it ends. -/
theorem pollFrom_overBy {pacing : Nat} (hpacing : 0 < pacing) (what : String) (probe : Probe A α)
    (patience : Nat) (m : Moment w) :
    OverBy (max e m.now)
      (pollFrom w l pacing what probe (attemptsUntil patience l.endsAt m.now) none m) := by
  have hattempts : e - m.now < attemptsUntil patience l.endsAt m.now := by
    simp only [attemptsUntil, hends, Option.map_some, Option.getD_some]
    lia
  obtain ⟨-, hstalled, hnow⟩ := pollFrom_same (w := w) hends hends (e := max e m.now + 1)
    (by lia) (fun _ _ => rfl) hpacing what probe none (m := m) (by lia) hattempts hattempts
  exact ⟨hstalled, Nat.le_of_lt_succ hnow⟩

end Ends

namespace Procedure

/-- Every wait of the procedure pauses between its attempts, and no part has time of its own. -/
def Pauses {α : Type} : Procedure A α → Prop
  | done _ => True
  | race _ _ next => ∀ r, (next r).Pauses
  | poll pacing _ _ next => 0 < pacing ∧ ∀ r, (next r).Pauses
  | within _ _ _ => False
  | draw _ next => ∀ i, (next i).Pauses

theorem Pauses.bind {p : Procedure A α} {f : α → Procedure A β} (hp : p.Pauses)
    (hf : ∀ a, (f a).Pauses) : (p.bind f).Pauses := by
  induction p with
  | done a => exact hf a
  | race what probe next ih => exact fun r => ih r (hp r) hf
  | poll pacing what probe next ih => exact ⟨hp.1, fun r => ih r (hp.2 r) hf⟩
  | within timeout body next => exact hp.elim
  | draw n next ih => exact fun i => ih i (hp i) hf

/-- Whatever its calls do, it is over when its time is up at the latest. -/
theorem Pauses.run {p : Procedure A α} (hp : p.Pauses) {l : Limits} {e : Instant}
    (hends : l.endsAt = some e) (patience : Nat) (m : Moment w) :
    OverBy (max e m.now) (p.run w patience l m) := by
  induction p generalizing m with
  | done a => exact ⟨nofun, Nat.le_max_right _ _⟩
  | race what probe next ih =>
    rw [run_race]
    refine (raceOnce_overBy hends what probe m).andThen (Nat.le_refl _) fun r m' hle => ?_
    exact (ih r (hp r) m').mono (by lia)
  | poll pacing what probe next ih =>
    rw [run_poll]
    refine (pollFrom_overBy hends hp.1 what probe patience m).andThen (Nat.le_refl _)
      fun r m' hle => ?_
    exact (ih r (hp.2 r) m').mono (by lia)
  | within timeout body next => exact hp.elim
  | draw n next ih => exact ih _ (hp _) { m with state := (w.choose m.state n).1 }

end Procedure

end Reachability.Wait
