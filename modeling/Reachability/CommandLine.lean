import Reachability.Settings.Load
import Reachability.Topology.Render
import Reachability.Wire.Client

namespace Reachability.CommandLine

/-- The topology that a run with these settings sets up, as a stream of YAML documents, if it visits
the overrides of features in this order. -/
def topology (s : Settings) (order : VisitingOrder s.features) : String :=
  (Topology.plan s (.ofOverrides order) "").render s.testNamespace

/-- What the program prints in a directory and an environment, on a host without a network. There
only a dry run succeeds. -/
def output (visit : (overrides : Dict String Bool) → VisitingOrder overrides) (d : Directory)
    (e : Settings.Environment) : Except Failure String := do
  let settings ← Settings.load d e
  if settings.dryRun then return topology settings (visit settings.features)
  let space : ObjectKey := ⟨"", settings.testNamespace⟩
  let _ ← Wire.perform .none (.get .space space)
  return ""

/-- The exit code for what the program came to. -/
def exitCode : Except Failure String → UInt32
  | .ok _ => 0
  | .error _ => 1

end Reachability.CommandLine
