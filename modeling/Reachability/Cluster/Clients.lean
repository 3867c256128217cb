import Reachability.Topology.Plan

namespace Reachability

/-- A cluster that the run can reach. Two clusters may have one name, so each has a number too. -/
structure Cluster where
  id : Nat
  name : String
deriving DecidableEq, Repr, Inhabited

/-- The cluster that connections leave and the one that they reach, which may be the same. -/
structure Clients where
  source : Cluster
  destination : Cluster
deriving DecidableEq, Repr

namespace Clients

def single (c : Cluster) : Clients := ⟨c, c⟩

def get (c : Clients) : Topology.Side → Cluster
  | .source => c.source
  | .destination => c.destination

/-- Every cluster once, the source first. -/
def distinct (c : Clients) : List Cluster :=
  if c.source.id = c.destination.id then [c.source] else [c.source, c.destination]

end Clients

end Reachability
