import Reachability.Wait.Limits
import Reachability.Wait.Procedure

namespace Reachability.Wait

/-- What answers the calls. Starting a call may change the state at once; the call then either never
ends, or ends after a delay with a change of the state and an answer. -/
structure World (A : Api) where
  State : Type
  start : State → (c : A.Call) →
    State × Option (Nat × (State → State × Except Failure (A.Answer c)))
  /-- Chooses a number up to `n`. -/
  choose : State → (n : Nat) → State × Fin (n + 1)

/-- A point of a run: the clock, the state of the world, and the calls started so far, the latest
first. -/
structure Moment {A : Api} (w : World A) where
  now : Instant
  state : w.State
  started : List (Instant × A.Call) := []

namespace Moment

variable {A : Api} {w : World A}

/-- The calls started so far, in order. -/
def calls (m : Moment w) : List (Instant × A.Call) := m.started.reverse

def begun (m : Moment w) (c : A.Call) (state : w.State) : Moment w :=
  { m with state, started := (m.now, c) :: m.started }

end Moment

/-- How a run ends. -/
inductive Outcome (α : Type) where
  | returned (a : α)
  /-- It never returns, or has not returned within the patience of the observer. -/
  | stalled
  /-- An instant lies beyond what the clock can reckon, or an answer beyond what a probe can. -/
  | crashed
deriving DecidableEq, Repr

def Outcome.map {α β : Type} (f : α → β) : Outcome α → Outcome β
  | returned a => returned (f a)
  | stalled => stalled
  | crashed => crashed

variable {A : Api} {α β : Type}

/-- Makes the calls of a probe that has to end before `limit`. It stalls if it does not: the moment
is then that of the last call that it started. -/
def Probe.run (w : World A) (limit : Option Instant) :
    Probe A α → Moment w → Outcome (Except Failure α) × Moment w
  | .done r, m => (.returned r, m)
  | .crash, m => (.crashed, m)
  | .ask c next, m =>
    let (state, course) := w.start m.state c
    let m := m.begun c state
    match course with
    | none => (.stalled, m)
    | some (delay, finish) =>
      if (limit.map fun e => decide (e ≤ m.now + delay)).getD false then (.stalled, m)
      else
        let (state, answer) := finish m.state
        (next answer).run w limit { m with now := m.now + delay, state }

/-- The end of a wait at its limit; without a limit it goes on forever. -/
def cutOff {w : World A} (l : Limits) (what : String) (last : Option Failure) (m : Moment w) :
    Outcome (Except Failure α) × Moment w :=
  match l.endsAt with
  | some e =>
    let t := max e m.now
    (.returned (.error ((l.interrupt t).failure what last)), { m with now := t })
  | none => (.stalled, m)

/-- Tries a probe once. -/
def raceOnce (w : World A) (l : Limits) (what : String) (probe : Probe A α) (m : Moment w) :
    Outcome (Except Failure α) × Moment w :=
  if l.endedBy m.now then cutOff l what none m
  else
    match probe.run w l.endsAt m with
    | (.returned r, m) => (.returned r, m)
    | (.stalled, m) => cutOff l what none m
    | (.crashed, m) => (.crashed, m)

/-- Tries a probe at most `attempts` times; `last` is the latest failure. Before each attempt, and
before it is seen whether the wait has ended, the clock has to reckon when the next one is due. -/
def pollFrom (w : World A) (l : Limits) (pacing : Nat) (what : String) (probe : Probe A α) :
    Nat → Option Failure → Moment w → Outcome (Except Failure α) × Moment w
  | 0, _, m => (.stalled, m)
  | attempts + 1, last, m =>
    match after? m.now pacing with
    | none => (.crashed, m)
    | some due =>
      if l.endedBy m.now then cutOff l what last m
      else
        match probe.run w l.endsAt m with
        | (.stalled, m) => cutOff l what last m
        | (.crashed, m) => (.crashed, m)
        | (.returned (.ok a), m) => (.returned (.ok a), m)
        | (.returned (.error f), m') =>
          if f.retryable then
            let next := max m'.now due
            if l.endedBy next then cutOff l what (some f) m'
            else pollFrom w l pacing what probe attempts (some f) { m' with now := next }
          else (.returned (.error f), m')

/-- The attempts that a wait can need: those that the observer has patience for, and one for every
millisecond up to the limit. -/
def attemptsUntil (patience : Nat) (limit : Option Instant) (now : Instant) : Nat :=
  patience + (limit.map fun e => e - now + 1).getD 0

/-- Runs a procedure from a moment, under limits, for an observer of some patience. Time passes only
while a call is under way or a wait pauses. A call that is cut off has no effect: its effect comes
with its answer. -/
def Procedure.run (w : World A) (patience : Nat) {α : Type} :
    Procedure A α → Limits → Moment w → Outcome α × Moment w
  | .done a, _, m => (.returned a, m)
  | .race what probe next, l, m =>
    match raceOnce w l what probe m with
    | (.returned r, m) => (next r).run w patience l m
    | (.stalled, m) => (.stalled, m)
    | (.crashed, m) => (.crashed, m)
  | .poll pacing what probe next, l, m =>
    match pollFrom w l pacing what probe (attemptsUntil patience l.endsAt m.now) none m with
    | (.returned r, m) => (next r).run w patience l m
    | (.stalled, m) => (.stalled, m)
    | (.crashed, m) => (.crashed, m)
  | .within timeout body next, l, m =>
    match after? m.now timeout with
    | none => (.crashed, m)
    | some d =>
      match body.run w patience (l.withDeadline d) m with
      | (.returned b, m) => (next b).run w patience l m
      | (.stalled, m) => (.stalled, m)
      | (.crashed, m) => (.crashed, m)
  | .draw n next, l, m =>
    let (state, i) := w.choose m.state n
    (next i).run w patience l { m with state }

end Reachability.Wait
