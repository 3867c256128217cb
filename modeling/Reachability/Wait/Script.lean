import Reachability.Wait.Context
import Reachability.Wait.Run

namespace Reachability.Wait

/-- The course of one call: how long it takes, and its result unless it never ends. -/
structure Attempt (α : Type) where
  takes : Nat := 0
  result : Option (Except Failure α)

def attemptApi (α : Type) : Api := ⟨Unit, fun _ => α⟩

/-- Each call takes the course of the next attempt, the last of which repeats. -/
def attemptWorld (α : Type) : World (attemptApi α) where
  State := List (Attempt α)
  start s _ :=
    match s with
    | [] => ([], none)
    | a :: rest =>
      (if rest.isEmpty then [a] else rest,
        a.result.map fun r => (a.takes, fun s => (s, r)))
  choose s _ := (s, ⟨0, Nat.succ_pos _⟩)

/-- What a step does; contexts are named by the order in which they were made. -/
inductive Action (α : Type) where
  | new
  | child (of timeout : Nat)
  | clone (of : Nat)
  | fromToken (of : Nat)
  | cancel (of : Nat)
  | sleep (duration : Nat)
  /-- Waits for the end of the context, at most for some time. -/
  | done (of within : Nat)
  | race (of : Nat) (what : String) (attempt : Attempt α)
  | poll (of : Nat) (what : String) (pacing : Nat) (attempts : List (Attempt α))

/-- An action, and the cancellation of a context some time after its start, which is dropped if the
action is over by then. -/
structure Step (α : Type) where
  action : Action α
  cancellation : Option (Nat × Nat) := none

/-- What a step tells. -/
inductive Report (α : Type) where
  | nothing
  | ended (interrupt : Interrupt)
  | pending
  | raced (result : Except Failure α) (started : Bool)
  | polled (result : Except Failure α) (starts : List Nat)
  | stalled
  | crashed

/-- The state of a script between two steps. -/
structure Session where
  now : Instant := 0
  tokens : Tokens := {}
  contexts : List Context := []

namespace Session

variable {α : Type}

def context (s : Session) (i : Nat) : Context := (s.contexts[i]?).getD { token := s.tokens.next }

/-- The limits of a context during a step. What is cancelled already stays so, whatever its deadline
was. -/
def limits (s : Session) (c : Context) (cancellation : Option (Nat × Nat)) : Limits :=
  { cancelledAt :=
      if s.tokens.isCancelled c then some 0
      else
        match cancellation with
        | some (i, delay) =>
          if (s.context i).token ∈ c.lineage then some (s.now + delay) else none
        | none => none
    deadline := c.deadline }

def withContext (s : Session) (made : Context × Tokens) : Session :=
  { s with contexts := s.contexts ++ [made.1], tokens := made.2 }

def moment (s : Session) (attempts : List (Attempt α)) : Moment (attemptWorld α) :=
  { now := s.now, state := attempts }

/-- The end of a step that made calls. -/
def concluded (s : Session) (m : Moment (attemptWorld α)) : Outcome β × (β → Report α) →
    Session × Report α
  | (.returned r, tell) => ({ s with now := m.now }, tell r)
  | (.stalled, _) => (s, .stalled)
  | (.crashed, _) => (s, .crashed)

/-- Carries out an action. -/
def act (s : Session) (cancellation : Option (Nat × Nat)) : Action α → Session × Report α
  | .new => (s.withContext s.tokens.root, .nothing)
  | .child i timeout =>
    match after? s.now timeout with
    | some d => (s.withContext (s.tokens.child (s.context i) d), .nothing)
    | none => (s, .crashed)
  | .clone i => (s.withContext (s.context i, s.tokens), .nothing)
  | .fromToken i => (s.withContext ((s.context i).withoutDeadline, s.tokens), .nothing)
  | .cancel i => ({ s with tokens := s.tokens.cancel (s.context i) }, .nothing)
  | .sleep duration => ({ s with now := s.now + duration }, .nothing)
  | .done i within =>
    let l := s.limits (s.context i) cancellation
    let last := s.now + within
    match l.endsAt with
    | some e =>
      if e ≤ last then ({ s with now := max e s.now }, .ended (l.interrupt (max e s.now)))
      else ({ s with now := last }, .pending)
    | none => ({ s with now := last }, .pending)
  | .race i what attempt =>
    let (outcome, m) :=
      raceOnce (attemptWorld α) (s.limits (s.context i) cancellation) what (.call ())
        (s.moment [attempt])
    s.concluded m (outcome, fun r => .raced r !m.started.isEmpty)
  | .poll i what pacing attempts =>
    let l := s.limits (s.context i) cancellation
    let (outcome, m) :=
      pollFrom (attemptWorld α) l pacing what (.call ())
        (attemptsUntil (attempts.length + 1) l.endsAt s.now) none (s.moment attempts)
    s.concluded m (outcome, fun r => .polled r (m.calls.map fun c => c.1 - s.now))

/-- Carries out a step, with the cancellation that falls into it. -/
def perform (s : Session) (step : Step α) : Session × Report α :=
  let (after, report) := s.act step.cancellation step.action
  match step.cancellation with
  | some (i, delay) =>
    if s.now + delay ≤ after.now then
      ({ after with tokens := after.tokens.cancel (s.context i) }, report)
    else (after, report)
  | none => (after, report)

end Session

end Reachability.Wait
