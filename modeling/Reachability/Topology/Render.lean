import Reachability.Document.Yaml
import Reachability.Manifest.Document
import Reachability.Topology.Plan

namespace Reachability.Topology

/-- Every object of a plan, placed in the namespace of the run. -/
def Plan.objects (p : Plan) (ns : String) : List (Side × Manifest.Object) :=
  p.steps.flatMap fun (side, item) => item.objects.map fun o => (side, o.inSpace ns)

/-- An object under a comment that names its cluster. -/
def renderObject (side : Side) (o : Manifest.Object) : String :=
  "# cluster: " ++ side.label ++ "\n" ++ o.document.toYaml

/-- A plan as text: one YAML document for each object, in the order in which they would be created.
-/
def Plan.render (p : Plan) (ns : String) : String :=
  String.intercalate "---\n" ((p.objects ns).map fun (side, o) => renderObject side o)

end Reachability.Topology
