import Reachability.Failure

namespace Reachability.Wait

/-- Milliseconds on the clock that never goes back. -/
abbrev Instant := Nat

/-- The clock counts seconds in a signed word of 64 bits; a later instant cannot be reckoned. -/
def after? (now : Instant) (timeout : Nat) : Option Instant :=
  if (now + timeout) / 1000 < Nat.pow 2 63 then some (now + timeout) else none

theorem after?_eq_none_iff {now : Instant} {timeout : Nat} :
    after? now timeout = none ↔ Nat.pow 2 63 ≤ (now + timeout) / 1000 := by
  unfold after?
  split
  next h => simp [h]
  next h => simpa using Nat.le_of_not_lt h

theorem eq_of_after?_eq_some {now d : Instant} {timeout : Nat} (h : after? now timeout = some d) :
    d = now + timeout := by
  unfold after? at h
  split at h
  · exact (Option.some.inj h).symm
  · cases h

theorem after?_eq_some {now : Instant} {timeout : Nat} (h : after? now timeout ≠ none) :
    after? now timeout = some (now + timeout) := by
  obtain ⟨d, hd⟩ := Option.ne_none_iff_exists'.1 h
  rw [hd, eq_of_after?_eq_some hd]

/-- What can be added to a reading of the clock can be added to all readings before, and less can be
as well. -/
theorem after?_ne_none_of_le {t t' : Instant} {timeout timeout' : Nat}
    (hle : t + timeout ≤ t' + timeout') (h : after? t' timeout' ≠ none) :
    after? t timeout ≠ none := by
  rw [Ne, after?_eq_none_iff] at h ⊢
  lia

inductive Interrupt where
  | cancelled
  | deadlineReached
deriving DecidableEq, Repr

/-- The failure of a wait that was interrupted, with the last failure of what it tried. -/
def Interrupt.failure (i : Interrupt) (what : String) (last : Option Failure) : Failure :=
  match i with
  | cancelled => .cancelled what (last.getD (.interrupted .nothingCompleted))
  | deadlineReached => .deadlineExceeded what (last.getD (.interrupted .stillRunning))

/-- The instants at which a wait is cancelled and at which its time is up. -/
structure Limits where
  cancelledAt : Option Instant := none
  deadline : Option Instant := none
deriving DecidableEq, Repr

namespace Limits

/-- The instant at which the wait ends. -/
def endsAt (l : Limits) : Option Instant :=
  match l.cancelledAt, l.deadline with
  | some c, some d => some (min c d)
  | some c, none => some c
  | none, d => d

/-- The wait has ended at `t`. -/
def endedBy (l : Limits) (t : Instant) : Bool := (l.endsAt.map fun e => decide (e ≤ t)).getD false

/-- Why a wait ends, at the instant at which it does. A cancellation by then counts first, whatever
the deadline was. -/
def interrupt (l : Limits) (t : Instant) : Interrupt :=
  match l.cancelledAt with
  | some c => if c ≤ t then .cancelled else .deadlineReached
  | none => .deadlineReached

/-- The limits of a part of the wait, with a deadline of its own that cannot extend the other. -/
def withDeadline (l : Limits) (d : Instant) : Limits :=
  { l with deadline := some ((l.deadline.map (min · d)).getD d) }

theorem endedBy_iff {l : Limits} {t : Instant} :
    l.endedBy t = true ↔ ∃ e, l.endsAt = some e ∧ e ≤ t := by
  cases h : l.endsAt <;> simp [endedBy, h]

theorem interrupt_eq_cancelled_iff {l : Limits} {t : Instant} :
    l.interrupt t = .cancelled ↔ ∃ c, l.cancelledAt = some c ∧ c ≤ t := by
  cases h : l.cancelledAt <;> simp [interrupt, h]

/-- A wait that is asked for at `s` ends by cancellation if that comes no later than the deadline,
or has come when the wait is asked for. -/
theorem interrupt_max_eq_cancelled_iff {l : Limits} {e : Instant} (s : Instant)
    (h : l.endsAt = some e) :
    l.interrupt (max e s) = .cancelled ↔
      ∃ c, l.cancelledAt = some c ∧ (c ≤ s ∨ ∀ d, l.deadline = some d → c ≤ d) := by
  rw [interrupt_eq_cancelled_iff]
  refine exists_congr fun c => and_congr_right fun hc => ?_
  cases hd : l.deadline with
  | none =>
    simp only [endsAt, hc, hd, Option.some.injEq] at h
    subst h
    exact iff_of_true (Nat.le_max_left c s) (.inr nofun)
  | some d =>
    simp only [endsAt, hc, hd, Option.some.injEq] at h
    simp only [Option.some.injEq, forall_eq']
    lia

end Limits

end Reachability.Wait
