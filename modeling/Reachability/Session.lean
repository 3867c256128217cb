import Reachability.Provision
import Reachability.Validation

namespace Reachability

/-- Provisions the topology and validates it, and tears it down on every cluster if the settings ask
for that. -/
def runAll (clients : Clients) (settings : Settings) (features : FeatureSet) : Survey Unit := do
  let _ ← deploy clients settings features
  validate clients settings features
  if settings.teardown then
    clients.distinct.forM fun cluster => Survey.check (teardown cluster settings.testNamespace)

/-- A run from an empty inventory, which it returns if it succeeds. -/
def run (clients : Clients) (settings : Settings) (features : FeatureSet) : Check Inventory :=
  ExceptT.mk do
    match ← (runAll clients settings features).run ∅ with
    | (.ok (), inventory) => return .ok inventory
    | (.error f, _) => return .error f

end Reachability
