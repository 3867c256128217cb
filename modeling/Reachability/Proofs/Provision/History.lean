import Reachability.Proofs.Teardown.Disturbance

namespace Reachability

open Reachability.Topology (Plan Side)
open Simulation
open Wait (Instant Limits Moment Outcome Procedure World)

variable {α : Type} {count : Nat} {clients : Clients} {settings : Settings} {features : FeatureSet}

section Runs

variable {w : World clusterApi} {machines : w.State → List Machine} {patience : Nat} {l : Limits}
  {m : Moment w}

theorem Simulation.Partway.sound {ns : String} {steps : List (Side × Topology.Item)}
    {before after : List Machine} (h : Partway clients ns steps before after)
    (hready : Ready clients before) (hbefore : Sound count before) : Sound count after where
  quiet := (h.ready hready).quiet
  staffed := h.staffed hbefore.staffed
  length_eq := h.preservesAll.length_eq.trans hbefore.length_eq

/-- The clusters are sound after a deployment, however it ends, and if it succeeds, there is nothing
left to do for any step of its plan. -/
structure Deployed (count : Nat) (clients : Clients) (ns : String)
    (outcome : Outcome (Except Failure Plan × Inventory)) (machines : List Machine) : Prop where
  sound : Sound count machines
  settled {plan : Plan} {i : Inventory} (h : outcome = .returned (.ok plan, i)) :
    ∀ step ∈ plan.steps, SettledOn clients ns step machines

theorem Deployed.of_failed {ns : String} {outcome : Outcome (Except Failure Plan × Inventory)}
    {machines : List Machine} (hsound : Sound count machines)
    (hfailed : ∀ plan i, outcome ≠ .returned (.ok plan, i)) :
    Deployed count clients ns outcome machines :=
  ⟨hsound, fun h => absurd h (hfailed _ _)⟩

theorem Disturbs.run_provision (h : Disturbs w machines)
    (hthere : ∀ side, (clients.get side).id < count) (i : Inventory)
    (hm : Sound count (machines m.state)) :
    let u := ((provision clients settings features).run.run i).run w patience l m
    Deployed count clients settings.testNamespace u.1 (machines u.2.state) := by
  have hready : Ready clients (machines m.state) :=
    ⟨fun side => hm.length_eq.symm ▸ hthere side, hm.quiet⟩
  obtain ⟨outcome, m', hrun, houtcome⟩ :=
    provision_leads h.stage hready settings features patience l i m trivial rfl
  intro u
  rw [show u = (outcome, m') from hrun]
  rcases outcome with ⟨f | plan, i'⟩ | _ | _
  · exact .of_failed (houtcome.2.sound hready hm) nofun
  · obtain ⟨rfl, hmachines⟩ := houtcome
    rw [show machines m'.state = _ from hmachines]
    refine ⟨Partway.complete.sound hready hm, ?_⟩
    rintro plan i ⟨⟩ step hstep
    exact settledOn_ensureAll hstep
  · exact .of_failed (houtcome.2.sound hready hm) nofun
  · exact .of_failed (houtcome.2.sound hready hm) nofun

theorem Disturbs.run_deploy (h : Disturbs w machines) (hdeletes : DeletesDeployments w machines)
    (hthere : ∀ side, (clients.get side).id < count) (i : Inventory)
    (hm : Sound count (machines m.state)) :
    let u := ((deploy clients settings features).run.run i).run w patience l m
    Deployed count clients settings.testNamespace u.1 (machines u.2.state) := by
  intro u
  cases hforce : settings.forceDeploy with
  | false =>
    have hdeploy : deploy clients settings features = provision clients settings features := by
      rw [deploy_eq, hforce]
      rfl
    unfold u
    rw [hdeploy]
    exact h.run_provision hthere i hm
  | true =>
    have hdown := h.run_teardowns hdeletes clients.distinct settings.testNamespace i patience l hm
    unfold u
    rw [deploy_eq_of_force clients features hforce, Survey.run_bind]
    rcases hrun : ((teardowns clients settings.testNamespace).run.run i).run w patience l m with
      ⟨⟨e | _, i'⟩ | _ | _, m'⟩ <;> rw [teardowns] at hrun <;> rw [hrun] at hdown
    · exact .of_failed hdown nofun
    · exact h.run_provision hthere i' hdown
    · exact .of_failed hdown nofun
    · exact .of_failed hdown nofun

end Runs

/-- Clusters in memory whose calls are interfered with, each according to what it is and to how many
there were before. -/
def faultyWorld (interference : Nat → Call → Interference) : World clusterApi where
  State := Nat × List Machine
  start s c := (disturbedWorld fun n => interference n c).start s c
  choose s _ := (s, ⟨0, Nat.succ_pos _⟩)

/-- The clusters at some point of a run with faults. -/
def machinesUnder {interference : Nat → Call → Interference}
    (s : (faultyWorld interference).State) : List Machine :=
  (show Nat × List Machine from s).2

theorem disturbs_faultyWorld (interference : Nat → Call → Interference) :
    Disturbs (faultyWorld interference) machinesUnder where
  start {s} c _ := @machinesIn_start (fun n => interference n c) s c
  finish {s c s' delay finish} _ hstart :=
    @machinesIn_finish (fun n => interference n c) s s' c delay finish hstart
  choose _ _ := rfl

/-- What befalls an operation: what happens to its calls, and when it is cut off. -/
structure Circumstances where
  interference : Nat → Call → Interference := fun _ _ => .none 1
  limits : Limits := {}
  patience : Nat := 0
  start : Instant := 0

namespace Circumstances

/-- No deletion of a deployment fails without effect. -/
def SparesNoDeployment (c : Circumstances) : Prop :=
  ∀ n cluster key delay f carriedOut hmissing hthere,
    c.interference n ⟨cluster, .delete .deployment key⟩ =
      .fails delay f carriedOut hmissing hthere → carriedOut = true

/-- The moment at which an operation starts. -/
def outset (c : Circumstances) (machines : List Machine) : Moment (faultyWorld c.interference) :=
  ⟨c.start, (0, machines), []⟩

def run (c : Circumstances) (p : Procedure clusterApi α) (machines : List Machine) :
    Outcome α × Moment (faultyWorld c.interference) :=
  p.run (faultyWorld c.interference) c.patience c.limits (c.outset machines)

theorem SparesNoDeployment.deletesDeployments {c : Circumstances} (h : c.SparesNoDeployment) :
    DeletesDeployments (faultyWorld c.interference) machinesUnder := by
  rintro ⟨n, machines⟩ cluster key s' delay finish hstart
  simp only [faultyWorld, disturbedWorld] at hstart
  cases hi : c.interference n ⟨cluster, .delete .deployment key⟩ with
  | none delay =>
    rw [hi] at hstart
    cases hstart
    rfl
  | fails delay f carriedOut hmissing hthere =>
    obtain rfl := h _ _ _ _ _ _ _ _ hi
    rw [hi] at hstart
    cases hstart
    rfl
  | hangs carriedOut =>
    rw [hi] at hstart
    cases hstart

theorem run_deploy {c : Circumstances} (hc : c.SparesNoDeployment)
    (hthere : ∀ side, (clients.get side).id < count) (settings : Settings) (features : FeatureSet)
    (i : Inventory) {machines : List Machine}
    (hm : Sound count machines) :
    let u := c.run ((deploy clients settings features).run.run i) machines
    Deployed count clients settings.testNamespace u.1 (machinesUnder u.2.state) :=
  (disturbs_faultyWorld c.interference).run_deploy hc.deletesDeployments hthere i
    (m := c.outset machines) hm

theorem run_teardown {c : Circumstances} (hc : c.SparesNoDeployment) (cluster : Cluster)
    (ns : String) {machines : List Machine} (hm : Sound count machines) :
    Sound count (machinesUnder (c.run (teardown cluster ns).run machines).2.state) :=
  (disturbs_faultyWorld c.interference).run_teardown hc.deletesDeployments cluster ns c.patience
    c.limits (m := c.outset machines) hm

end Circumstances

inductive Operation where
  | deploy (clients : Clients) (settings : Settings) (features : FeatureSet) (inventory : Inventory)
  | teardown (cluster : Cluster) (ns : String)

namespace Operation

/-- The machines after an operation, however it ends. -/
def leaves (o : Operation) (c : Circumstances) (machines : List Machine) : List Machine :=
  match o with
  | deploy clients settings features inventory =>
    machinesUnder
      (c.run ((Reachability.deploy clients settings features).run.run inventory) machines).2.state
  | teardown cluster ns =>
    machinesUnder (c.run (Reachability.teardown cluster ns).run machines).2.state

/-- The clusters on which something is to be deployed are there. -/
def Meets (count : Nat) : Operation → Prop
  | deploy clients .. => ∀ side, (clients.get side).id < count
  | teardown .. => True

theorem leaves_sound {o : Operation} (ho : o.Meets count) {c : Circumstances}
    (hc : c.SparesNoDeployment) {machines : List Machine} (hm : Sound count machines) :
    Sound count (o.leaves c machines) := by
  cases o with
  | deploy clients settings features inventory =>
    exact (c.run_deploy hc ho settings features inventory hm).sound
  | teardown cluster ns => exact c.run_teardown hc cluster ns hm

end Operation

/-- The machines after some operations, each under its own circumstances. -/
def afterHistory (history : List (Operation × Circumstances)) (machines : List Machine) :
    List Machine :=
  history.foldl (fun machines (o, c) => o.leaves c machines) machines

theorem afterHistory_sound {history : List (Operation × Circumstances)}
    (hhistory : ∀ e ∈ history, e.1.Meets count ∧ e.2.SparesNoDeployment) {machines : List Machine}
    (hm : Sound count machines) : Sound count (afterHistory history machines) := by
  induction history generalizing machines with
  | nil => exact hm
  | cons e history ih =>
    obtain ⟨⟨ho, hc⟩, hhistory⟩ := List.forall_mem_cons.1 hhistory
    exact ih hhistory (Operation.leaves_sound ho hc hm)

theorem sound_stores {stores : List Store}
    (hstores : ∀ store ∈ stores, store.Staffed fun _ => True) :
    Sound stores.length (stores.map fun store => ({ store } : Machine)) where
  quiet machine hmachine := by
    obtain ⟨store, -, rfl⟩ := List.mem_map.1 hmachine
    rfl
  staffed id machine hmachine := by
    obtain ⟨store, hstore, rfl⟩ := List.mem_map.1 (List.mem_of_getElem? hmachine)
    exact hstores store hstore
  length_eq := List.length_map _

/-- The deployment of a workload stands beside the service account that its pods run as. -/
def Runnable (ns : String) (workload : Topology.Workload) (machine : Machine) : Prop :=
  (∃ d, machine.store.objects.get? ⟨.deployment, ⟨ns, workload.name⟩⟩ = some (.deployment d) ∧
    d.template.spec.serviceAccount = some workload.name) ∧
  machine.store.objects.contains ⟨.serviceAccount, ⟨ns, workload.name⟩⟩ = true

theorem runnable_of_settled {ns : String} {workload : Topology.Workload} {machine : Machine}
    (hsettled : machine.store.Settled ns (.deployment workload))
    (hstaffed : machine.store.StaffedAt ⟨ns, workload.name⟩) : Runnable ns workload machine := by
  have hthere := hsettled.contains
  obtain ⟨o, ho⟩ := Option.isSome_iff_exists.1 hthere
  obtain ⟨d, rfl, haccount⟩ := hstaffed.runsAs ho
  exact ⟨⟨d, ho, haccount⟩, hstaffed.account hthere⟩

/-- Every deployment that is provisioned can run, unless one has escaped its deletion. Let there be
deployments and teardowns one after the other on clusters in memory, where every deployment had its
service account at first. Any of their calls may fail or go unanswered, carried out or not, and each
may be cut off at any instant; only no deletion of a deployment may fail without effect. When a
deployment succeeds after that, every deployment of its plan stands on its cluster, and beside it
the service account to which its pod template refers. -/
theorem deploys_runnable (stores : List Store)
    (hstores : ∀ store ∈ stores, store.Staffed fun _ => True)
    (history : List (Operation × Circumstances))
    (hhistory : ∀ e ∈ history, e.1.Meets stores.length ∧ e.2.SparesNoDeployment)
    (clients : Clients) (settings : Settings) (features : FeatureSet) (inventory : Inventory)
    (hthere : ∀ side, (clients.get side).id < stores.length) {c : Circumstances}
    (hc : c.SparesNoDeployment) {plan : Plan} {inventory' : Inventory}
    {m : Moment (faultyWorld c.interference)}
    (hrun : c.run ((deploy clients settings features).run.run inventory)
      (afterHistory history (stores.map fun store => { store })) =
        (.returned (.ok plan, inventory'), m)) {side : Side} {workload : Topology.Workload}
    (hstep : (side, .deployment workload) ∈ plan.steps) :
    ∃ machine, (machinesUnder m.state)[(clients.get side).id]? = some machine ∧
      Runnable settings.testNamespace workload machine := by
  have hinitial := afterHistory_sound hhistory (sound_stores hstores)
  have hdeployed := Circumstances.run_deploy hc hthere settings features inventory hinitial
  simp only [hrun] at hdeployed
  have hmachine := List.getElem?_eq_getElem (hdeployed.sound.length_eq.symm ▸ hthere side)
  refine ⟨_, hmachine, ?_⟩
  exact runnable_of_settled (hdeployed.settled rfl _ hstep _ hmachine)
    (hdeployed.sound.staffed _ _ hmachine _ trivial)

/-- How a call fails whose connection breaks. -/
def reset : Failure := .api (.transport "connection reset")

theorem reset_isNotFound : reset.isNotFound = false := rfl

theorem reset_isAlreadyExists : reset.isAlreadyExists = false := rfl

/-- A teardown that is cut off among the service accounts, of which one could not be deleted. -/
def halfway : Circumstances where
  interference _ c :=
    if c.request = .delete .serviceAccount ⟨"cilium-test", "perf-client"⟩ then
      .fails 1 reset false reset_isNotFound reset_isAlreadyExists
    else .none 1
  limits := { cancelledAt := some 20 }

theorem halfway_sparesNoDeployment : halfway.SparesNoDeployment := by
  intro n cluster key delay f carriedOut hmissing hthere h
  simp [halfway] at h

/-- A deployment, and a teardown that went halfway. -/
def halfUndone (settings : Settings) : List (Operation × Circumstances) :=
  [(.deploy (.single ⟨0, "kind"⟩) settings ∅ ∅, {}),
    (.teardown ⟨0, "kind"⟩ settings.testNamespace, halfway)]

theorem calm_sparesNoDeployment : ({} : Circumstances).SparesNoDeployment := by
  intro n cluster key delay f carriedOut hmissing hthere h
  cases h

/-- Both deployments were gone and have been made anew. -/
theorem deploy_after_halfway :
    let settings : Settings := { performance := true, singleNode := true }
    ∃ m, ({} : Circumstances).run ((deploy (.single ⟨0, "kind"⟩) settings ∅).run.run ∅)
        (afterHistory (halfUndone settings) [{ store := .fresh "kind" }]) =
          (.returned (.ok (simulatedPlan settings ∅), ∅), m) ∧
      (machinesUnder m.state).map (·.store.creates) = [8] ∧
      ∀ workload, (Side.source, .deployment workload) ∈ (simulatedPlan settings ∅).steps →
        ∃ machine, (machinesUnder m.state)[0]? = some machine ∧
          Runnable "cilium-test" workload machine := by
  intro settings
  have hends : (({} : Circumstances).run ((deploy (.single ⟨0, "kind"⟩) settings ∅).run.run ∅)
      (afterHistory (halfUndone settings) [{ store := .fresh "kind" }])).1 =
        .returned (.ok (simulatedPlan settings ∅), ∅) := by
    decide +kernel
  obtain ⟨m, hrun⟩ := Wait.exists_moment hends
  refine ⟨m, hrun, ?_, fun workload hstep => ?_⟩
  · rw [← congrArg (fun u => machinesUnder u.2.state) hrun]
    decide +kernel
  · have hthere : ∀ side, ((Clients.single ⟨0, "kind"⟩).get side).id < 1 := by
      rintro (_ | _) <;> exact Nat.one_pos
    have hhistory : ∀ e ∈ halfUndone settings, e.1.Meets 1 ∧ e.2.SparesNoDeployment :=
      List.forall_mem_cons.2 ⟨⟨hthere, calm_sparesNoDeployment⟩,
        List.forall_mem_singleton.2 ⟨trivial, halfway_sparesNoDeployment⟩⟩
    exact deploys_runnable [.fresh "kind"] (List.forall_mem_singleton.2 fun _ _ => .of_vacant rfl)
      (halfUndone settings) hhistory (.single ⟨0, "kind"⟩) settings ∅ ∅ hthere
      calm_sparesNoDeployment hrun hstep

/-- A teardown during which the deletion of one deployment fails, and which is cut off after the
service accounts. -/
def orphaning : Circumstances where
  interference _ c :=
    if c.request = .delete .deployment ⟨"cilium-test", "perf-client"⟩ then
      .fails 1 reset false reset_isNotFound reset_isAlreadyExists
    else .none 1
  limits := { cancelledAt := some 23 }

/-- A deployment, and a teardown that deletes the service account of a deployment but not the
deployment itself. -/
def orphaned (settings : Settings) : List (Operation × Circumstances) :=
  [(.deploy (.single ⟨0, "kind"⟩) settings ∅ ∅, {}),
    (.teardown ⟨0, "kind"⟩ settings.testNamespace, orphaning)]

/-- After that, deploying again succeeds, although the deployment stands there without its service
account. -/
theorem orphan_not_runnable :
    let settings : Settings := { performance := true, singleNode := true }
    let u := ({} : Circumstances).run ((deploy (.single ⟨0, "kind"⟩) settings ∅).run.run ∅)
      (afterHistory (orphaned settings) [{ store := .fresh "kind" }])
    u.1 = .returned (.ok (simulatedPlan settings ∅), ∅) ∧
      ∃ workload machine,
        (Side.source, .deployment workload) ∈ (simulatedPlan settings ∅).steps ∧
        (machinesUnder u.2.state)[0]? = some machine ∧
        machine.store.objects.contains ⟨.deployment, ⟨"cilium-test", workload.name⟩⟩ = true ∧
        ¬ Runnable "cilium-test" workload machine := by
  intro settings u
  have hends : u.1 = .returned (.ok (simulatedPlan settings ∅), ∅) ∧
      (machinesUnder u.2.state).map (fun machine =>
        (machine.store.objects.contains ⟨.deployment, ⟨"cilium-test", "perf-client"⟩⟩,
          machine.store.objects.contains ⟨.serviceAccount, ⟨"cilium-test", "perf-client"⟩⟩)) =
        [(true, false)] := by
    decide +kernel
  obtain ⟨hreturned, hmachines⟩ := hends
  obtain ⟨machine, hmachine, hthere⟩ := List.map_eq_singleton_iff.1 hmachines
  obtain ⟨hdeployment, haccount⟩ := Prod.mk.inj hthere
  refine ⟨hreturned, _, machine, .tail _ (.head _), by rw [hmachine]; rfl, hdeployment, ?_⟩
  rintro ⟨-, hrunnable⟩
  cases haccount.symm.trans hrunnable

end Reachability
