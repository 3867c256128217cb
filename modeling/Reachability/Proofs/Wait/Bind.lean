import Reachability.Proofs.Wait.Log

namespace Reachability.Wait

variable {A : Api} {w : World A} {α β γ : Type}

/-- What follows a run that returns; a run that does not return is not followed by anything. -/
def andThen (u : Outcome α × Moment w) (k : α → Moment w → Outcome β × Moment w) :
    Outcome β × Moment w :=
  match u with
  | (.returned a, m) => k a m
  | (.stalled, m) => (.stalled, m)
  | (.crashed, m) => (.crashed, m)

theorem andThen_assoc (u : Outcome α × Moment w) (k : α → Moment w → Outcome β × Moment w)
    (k' : β → Moment w → Outcome γ × Moment w) :
    andThen (andThen u k) k' = andThen u fun a m => andThen (k a m) k' := by
  obtain ⟨o, m⟩ := u
  cases o <;> rfl

@[simp] theorem andThen_done (u : Outcome α × Moment w) (patience : Nat) (l : Limits) :
    (andThen u fun a m => (Procedure.done (A := A) a).run w patience l m) = u := by
  obtain ⟨o, m⟩ := u
  cases o <;> rfl

theorem andThen_precedes {u : Outcome α × Moment w} {k : α → Moment w → Outcome β × Moment w}
    (hk : ∀ a (m : Moment w), m.Precedes (k a m).2) : u.2.Precedes (andThen u k).2 := by
  obtain ⟨o, m⟩ := u
  cases o with
  | returned a => exact hk a m
  | stalled => exact .refl m
  | crashed => exact .refl m

namespace Procedure

variable {patience : Nat} {l : Limits} {m : Moment w}

theorem run_race {what : String} {probe : Probe A β} {next : Except Failure β → Procedure A α} :
    (race what probe next).run w patience l m =
      andThen (raceOnce w l what probe m) fun r m => (next r).run w patience l m := by
  rw [run]
  rcases raceOnce w l what probe m with ⟨o, m⟩
  cases o <;> rfl

theorem run_poll {pacing : Nat} {what : String} {probe : Probe A β}
    {next : Except Failure β → Procedure A α} :
    (poll pacing what probe next).run w patience l m =
      andThen (pollFrom w l pacing what probe (attemptsUntil patience l.endsAt m.now) none m)
        fun r m => (next r).run w patience l m := by
  rw [run]
  rcases pollFrom w l pacing what probe (attemptsUntil patience l.endsAt m.now) none m with ⟨o, m⟩
  cases o <;> rfl

theorem run_within {timeout : Nat} {body : Procedure A β} {next : β → Procedure A α} :
    (within timeout body next).run w patience l m =
      match after? m.now timeout with
      | none => (.crashed, m)
      | some d =>
        andThen (body.run w patience (l.withDeadline d) m) fun b m =>
          (next b).run w patience l m := by
  rw [run]
  cases after? m.now timeout with
  | none => rfl
  | some d =>
    simp only
    rcases body.run w patience (l.withDeadline d) m with ⟨o, m⟩
    cases o <;> rfl

theorem run_bind (p : Procedure A α) (f : α → Procedure A β) :
    (p.bind f).run w patience l m =
      andThen (p.run w patience l m) fun a m => (f a).run w patience l m := by
  induction p generalizing l m with
  | done a => rfl
  | race what probe next ih =>
    simp only [bind, run_race, andThen_assoc]
    congr 1
    funext r m
    exact ih r f
  | poll pacing what probe next ih =>
    simp only [bind, run_poll, andThen_assoc]
    congr 1
    funext r m
    exact ih r f
  | within timeout body next _ ih =>
    simp only [bind, run_within]
    cases after? m.now timeout with
    | none => rfl
    | some d =>
      simp only [andThen_assoc]
      congr 1
      funext b m
      exact ih b f
  | draw n next ih => exact ih _ f

/-- A procedure only advances the clock and adds to the log. -/
theorem run_precedes (patience : Nat) (p : Procedure A α) (l : Limits) (m : Moment w) :
    m.Precedes (p.run w patience l m).2 := by
  induction p generalizing l m with
  | done a => exact .refl m
  | race what probe next ih =>
    rw [run_race]
    exact (raceOnce_precedes l what probe m).trans (andThen_precedes fun r m => ih r l m)
  | poll pacing what probe next ih =>
    rw [run_poll]
    exact (pollFrom_precedes ..).trans (andThen_precedes fun r m => ih r l m)
  | within timeout body next ihbody ihnext =>
    rw [run_within]
    cases after? m.now timeout with
    | none => exact .refl m
    | some d => exact (ihbody _ m).trans (andThen_precedes fun b m => ihnext b l m)
  | draw n next ih =>
    refine .trans ?_ (ih _ l _)
    exact .of_started_eq (Nat.le_refl _) rfl

/-- The first part of a procedure ends no later than the whole of it. -/
theorem now_run_le_bind (p : Procedure A α) (f : α → Procedure A β) :
    (p.run w patience l m).2.now ≤ ((p.bind f).run w patience l m).2.now := by
  rw [run_bind]
  exact (andThen_precedes fun a m => (f a).run_precedes patience l m).now_le

end Procedure

end Reachability.Wait
