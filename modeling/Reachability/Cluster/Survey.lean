import Reachability.Cluster.Api

namespace Reachability

/-- A task that may fail and keeps an inventory, of which nothing is lost when it fails. -/
abbrev Survey : Type → Type 1 := ExceptT Failure (StateT Inventory Task)

namespace Survey

variable {α : Type}

/-- A check, which leaves the inventory alone. -/
def check (c : Check α) : Survey α := ExceptT.mk fun i => do return (← c.run, i)

def inventory : Survey Inventory := ExceptT.mk fun i => pure (.ok i, i)

def record (f : Inventory → Inventory) : Survey Unit := ExceptT.mk fun i => pure (.ok (), f i)

def request (what : String) (cluster : Cluster) (r : Request) : Survey r.Answer :=
  check (Check.request what cluster r)

def ofExcept (e : Except Failure α) : Survey α := ExceptT.mk (pure e)

/-- The outcome of a check, failure included. -/
def attempt (c : Check α) : Survey (Except Failure α) := check c.attempt

end Survey

end Reachability
