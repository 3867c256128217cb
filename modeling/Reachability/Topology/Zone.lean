import Reachability.Manifest.Object

namespace Reachability.Topology

/-- The zone of a node, empty if the node names none. -/
def zoneOf (node : Manifest.Node) : String :=
  (node.metadata.label? "topology.kubernetes.io/zone").getD ""

/-- The first zone that one of `seen` or an earlier node has too, or else the last one, which is
`last` if there are no nodes. -/
def selectZoneFrom (seen : List String) (last : String) : List Manifest.Node → String
  | [] => last
  | node :: rest =>
    if zoneOf node ∈ seen then zoneOf node
    else selectZoneFrom (zoneOf node :: seen) (zoneOf node) rest

/-- The zone of the first node whose zone an earlier node has too. If no two nodes share a zone, the
zone of the last node. -/
def selectZone (nodes : List Manifest.Node) : String := selectZoneFrom [] "" nodes

end Reachability.Topology
