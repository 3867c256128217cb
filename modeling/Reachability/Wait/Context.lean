import Reachability.Wait.Limits

namespace Reachability.Wait

/-- The shared right to wait. A token is a number; `lineage` holds the context's own token and all
those above it. Contexts made from one another share a token or hold tokens below each other's. -/
structure Context where
  token : Nat
  above : List Nat := []
  deadline : Option Instant := none
deriving DecidableEq, Repr

def Context.lineage (c : Context) : List Nat := c.token :: c.above

/-- The tokens handed out so far, and those on which cancellation was called. -/
structure Tokens where
  next : Nat := 0
  cancelled : List Nat := []
deriving DecidableEq, Repr

namespace Tokens

def isCancelled (t : Tokens) (c : Context) : Bool := c.lineage.any t.cancelled.contains

/-- A context with a token of its own, below none. -/
def root (t : Tokens) : Context × Tokens :=
  ({ token := t.next }, { t with next := t.next + 1 })

/-- A context below another, with a deadline no later than the other's. -/
def child (t : Tokens) (c : Context) (deadline : Instant) : Context × Tokens :=
  ({ token := t.next
     above := c.lineage
     deadline := some ((c.deadline.map (min · deadline)).getD deadline) },
    { t with next := t.next + 1 })

/-- Cancelling a token cancels all tokens below it, and none above. -/
def cancel (t : Tokens) (c : Context) : Tokens := { t with cancelled := c.token :: t.cancelled }

end Tokens

/-- The same token without the deadline. -/
def Context.withoutDeadline (c : Context) : Context := { c with deadline := none }

end Reachability.Wait
