import Reachability.Failure

namespace Reachability.Wait

/-- Milliseconds between two attempts of a check, if nothing else is said. -/
def defaultPacing : Nat := 1000

/-- Endpoints appear slowly. -/
def endpointPacing : Nat := 2000

/-- The calls that a probe can make, with the type of the answer to each. -/
structure Api where
  Call : Type
  Answer : Call → Type

/-- Calls made one after the other, each depending on the answers to those before. -/
inductive Probe (A : Api) (α : Type) where
  | done (result : Except Failure α)
  /-- The answers cannot be reckoned with, and the program crashes. -/
  | crash
  | ask (call : A.Call) (next : Except Failure (A.Answer call) → Probe A α)

namespace Probe

variable {A : Api} {α β : Type}

/-- One call, whose answer is the result. -/
def call (c : A.Call) : Probe A (A.Answer c) := ask c done

/-- The end of a probe on whose answers there may be no judgement. -/
def ofJudgement : Option (Except Failure α) → Probe A α
  | some r => done r
  | none => crash

/-- The probe with a judgement on its result. Where there is none the program crashes. -/
def judged (judge : Except Failure α → Option (Except Failure β)) : Probe A α → Probe A β
  | done r => ofJudgement (judge r)
  | crash => crash
  | ask c next => ask c fun answer => (next answer).judged judge

end Probe

/-- What a run does, apart from how the clusters answer and how time passes. -/
inductive Procedure (A : Api) : Type → Type 1 where
  | done {α : Type} (a : α) : Procedure A α
  /-- Tries a probe once, unless the wait has ended or ends before the probe does. -/
  | race {α β : Type} (what : String) (probe : Probe A β)
      (next : Except Failure β → Procedure A α) : Procedure A α
  /-- Tries a probe until it succeeds or fails for good, or the wait ends. Two attempts start at
  least `pacing` milliseconds apart. -/
  | poll {α β : Type} (pacing : Nat) (what : String) (probe : Probe A β)
      (next : Except Failure β → Procedure A α) : Procedure A α
  /-- Gives a part at most `timeout` milliseconds from now on. -/
  | within {α β : Type} (timeout : Nat) (body : Procedure A β) (next : β → Procedure A α) :
      Procedure A α
  /-- Chooses a number up to `n`. -/
  | draw {α : Type} (n : Nat) (next : Fin (n + 1) → Procedure A α) : Procedure A α

namespace Procedure

variable {A : Api} {α β : Type}

def bind {α β : Type} : Procedure A α → (α → Procedure A β) → Procedure A β
  | done a, f => f a
  | race what probe next, f => race what probe fun r => (next r).bind f
  | poll pacing what probe next, f => poll pacing what probe fun r => (next r).bind f
  | within timeout body next, f => within timeout body fun b => (next b).bind f
  | draw n next, f => draw n fun i => (next i).bind f

instance : Monad (Procedure A) where
  pure := done
  bind := bind

/-- A single call under a name for the wait. -/
def request (what : String) (c : A.Call) : Procedure A (Except Failure (A.Answer c)) :=
  race what (.call c) done

end Procedure

end Reachability.Wait
