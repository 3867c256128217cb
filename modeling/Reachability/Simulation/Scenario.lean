import Reachability.Cluster.Readiness
import Reachability.Session
import Reachability.Simulation.World

namespace Reachability.Simulation

/-- A change to a cluster. -/
structure Adjustment where
  rules : Option (List Rule) := none
  rejections : Option Nat := none
  omitted : List String := []
  externalWorkloads : List String := []
  forbidsExternalWorkloads : Bool := false

def Machine.adjust (m : Machine) (a : Adjustment) : Machine :=
  { rules := a.rules.getD m.rules
    store :=
      { m.store with
        rejections := a.rejections.getD m.store.rejections
        omitted := m.store.omitted ++ a.omitted
        externalWorkloads :=
          if a.externalWorkloads.isEmpty then m.store.externalWorkloads
          else some (m.store.externalWorkloads.getD [] ++ a.externalWorkloads)
        forbidsExternalWorkloads :=
          m.store.forbidsExternalWorkloads || a.forbidsExternalWorkloads } }

/-- A cluster of this name, adjusted. -/
def Machine.fresh (name : String) (a : Adjustment) : Machine :=
  Machine.adjust { store := .fresh name } a

inductive Action where
  | deploy
  | validate
  | run
  /-- Tears the topology down on one of the distinct clusters. -/
  | teardown (client : Nat)
  | configure (cluster : Nat) (adjustment : Adjustment)
  | resetInventory
  | checkDeployment (cluster : Nat) (name : String)
  | delete (cluster : Nat) (kind : Manifest.Kind) (name : String)
  /-- Deletes the test namespace. -/
  | deleteSpace (cluster : Nat)

/-- The state of a scenario between two steps. -/
structure State where
  machines : List Machine
  inventory : Inventory := ∅

/-- What a step came to: its result, with the number of planned steps after a deployment, the time
that it took, and the calls that it started. -/
structure Report where
  result : Option (Wait.Outcome (Except Failure (Option Nat)))
  elapsed : Nat := 0
  calls : List (Wait.Instant × Call) := []

/-- The surroundings of a step. -/
structure Setting where
  clients : Clients
  settings : Settings
  features : FeatureSet
  limits : Wait.Limits := {}

namespace State

def moment (s : State) (hidesVantagePod : Bool) : Wait.Moment (world hidesVantagePod) :=
  { now := 0, state := s.machines }

/-- The calls of a moment, as far as it is determined which pod made them. -/
def shownCalls {hidesVantagePod : Bool} (m : Wait.Moment (world hidesVantagePod)) :
    List (Wait.Instant × Call) :=
  m.calls.map fun (t, c) =>
    (t, { c with request := withVantagePodHidden hidesVantagePod c.request })

def report {hidesVantagePod : Bool} (m : Wait.Moment (world hidesVantagePod))
    (result : Wait.Outcome (Except Failure (Option Nat))) : Report :=
  { result := some result, elapsed := m.now, calls := shownCalls m }

/-- Runs a task that keeps an inventory. -/
def survey (s : State) (setting : Setting) (task : Survey (Option Nat)) : State × Report :=
  let (outcome, m) := (task.run s.inventory).run (world true) (patience s.machines) setting.limits
    (s.moment true)
  match outcome with
  | .returned (result, inventory) =>
    ({ machines := m.state, inventory }, report m (.returned result))
  | .stalled => ({ s with machines := m.state }, report m .stalled)
  | .crashed => ({ s with machines := m.state }, report m .crashed)

/-- Runs calls that no limit ends. -/
def direct (s : State) (probe : Wait.Probe clusterApi Unit) : State × Report :=
  let (outcome, m) := probe.run (world true) none (s.moment true)
  ({ s with machines := m.state }, report m (outcome.map fun r => r.map fun _ => none))

/-- Carries out a step. A run replaces the inventory if it succeeds. -/
def act (s : State) (setting : Setting) : Action → State × Report
  | .deploy => s.survey setting do
    let plan ← Reachability.deploy setting.clients setting.settings setting.features
    return some plan.steps.length
  | .validate => s.survey setting do
    Reachability.validate setting.clients setting.settings setting.features
    return none
  | .run => s.survey setting do
    let found ← Survey.check (Reachability.run setting.clients setting.settings setting.features)
    Survey.record fun _ => found
    return none
  | .teardown i => s.survey setting do
    match setting.clients.distinct[i]? with
    | some cluster => Survey.check (Reachability.teardown cluster setting.settings.testNamespace)
    | none => pure ()
    return none
  | .configure i a => ({ s with machines := s.machines.modify i (·.adjust a) }, { result := none })
  | .resetInventory => ({ s with inventory := ∅ }, { result := none })
  | .checkDeployment i name =>
    s.direct (Check.deploymentProbe (cluster i) ⟨setting.settings.testNamespace, name⟩)
  | .delete i kind name =>
    s.direct (probe (cluster i) (.delete kind (kind.keyIn setting.settings.testNamespace name)))
  | .deleteSpace i =>
    s.direct (probe (cluster i) (.delete .space ⟨"", setting.settings.testNamespace⟩))
where
  cluster (i : Nat) : Cluster := ⟨i, ((s.machines[i]?).map (·.store.name)).getD ""⟩

end State

/-- Runs one check on a cluster. -/
def check (machine : Machine) (hidesVantagePod : Bool) (limits : Wait.Limits) (c : Check Unit) :
    Report :=
  let (outcome, m) := c.run.run (world hidesVantagePod) (patience [machine]) limits
    { now := 0, state := [machine] }
  State.report m (outcome.map fun r => r.map fun _ => none)

/-- Makes the calls of one attempt at a cluster. -/
def attempt (machine : Machine) (hidesVantagePod : Bool) (p : Wait.Probe clusterApi Unit) :
    Report :=
  let (outcome, m) := p.run (world hidesVantagePod) none { now := 0, state := [machine] }
  State.report m (outcome.map fun r => r.map fun _ => none)

end Reachability.Simulation
