import Reachability.Proofs.Provision.Transcript
import Reachability.Proofs.Simulation.Disturbance
import Reachability.Proofs.Simulation.Machines

namespace Reachability

open Manifest (Object)
open Reachability.Topology (Item Plan Side)
open Simulation
open Wait (Instant Limits Moment)

variable {α β : Type}

namespace Survey

/-- On a stage, the survey succeeds and `done` holds of its result and the clusters, or it has been
disturbed and `givenUp` holds of the clusters. -/
def Leads (stage : Stage) (s : Survey α) (machines : List Machine)
    (done : α → List Machine → Prop) (givenUp : List Machine → Prop) : Prop :=
  ∀ patience l inventory (m : Moment stage.world), stage.limits l →
    stage.machines m.state = machines →
    ∃ outcome m', (s.run.run inventory).run stage.world patience l m = (outcome, m') ∧
      match outcome with
      | .returned (.ok a, _) => done a (stage.machines m'.state)
      | _ => stage.disturbed ∧ givenUp (stage.machines m'.state)

/-- The judgement on a request: as expected, with the clusters as expected, or a failure for it was
disturbed. -/
def Judged (stage : Stage) (expected : List Machine) (givenUp : List Machine → Prop)
    (judgement : Except Failure α) (a : α) (machines : List Machine) : Prop :=
  (judgement = .ok a ∧ machines = expected) ∨
    ((∃ f, judgement = .error f) ∧ stage.disturbed ∧ givenUp machines)

namespace Leads

variable {stage : Stage} {machines : List Machine} {done : α → List Machine → Prop}
  {givenUp : List Machine → Prop}

theorem pure {a : α} (h : done a machines) : Leads stage (Pure.pure a) machines done givenUp := by
  rintro patience l inventory m _ rfl
  exact ⟨_, m, rfl, h⟩

theorem record {done : Unit → List Machine → Prop} {f : Inventory → Inventory}
    (h : done () machines) : Leads stage (Survey.record f) machines done givenUp := by
  rintro patience l inventory m _ rfl
  exact ⟨_, m, rfl, h⟩

theorem bind {s : Survey α} {f : α → Survey β} {done' : β → List Machine → Prop}
    (hs : Leads stage s machines done givenUp)
    (hf : ∀ a machines', done a machines' → Leads stage (f a) machines' done' givenUp) :
    Leads stage (s >>= f) machines done' givenUp := by
  intro patience l inventory m hl hm
  obtain ⟨outcome, m', hrun, houtcome⟩ := hs patience l inventory m hl hm
  rw [run_bind, hrun]
  rcases outcome with ⟨f | a, inventory'⟩ | _ | _
  · exact ⟨_, m', rfl, houtcome⟩
  · exact hf a _ houtcome patience l inventory' m' hl rfl
  · exact ⟨_, m', rfl, houtcome⟩
  · exact ⟨_, m', rfl, houtcome⟩

theorem mono {s : Survey α} {done' : α → List Machine → Prop} {givenUp' : List Machine → Prop}
    (hs : Leads stage s machines done givenUp)
    (hdone : ∀ a machines', done a machines' → done' a machines')
    (hgivenUp : ∀ machines', givenUp machines' → givenUp' machines') :
    Leads stage s machines done' givenUp' := by
  intro patience l inventory m hl hm
  obtain ⟨outcome, m', hrun, houtcome⟩ := hs patience l inventory m hl hm
  refine ⟨outcome, m', hrun, ?_⟩
  rcases outcome with ⟨f | a, inventory'⟩ | _ | _
  · exact houtcome.imp_right (hgivenUp _)
  · exact hdone a _ houtcome
  · exact houtcome.imp_right (hgivenUp _)
  · exact houtcome.imp_right (hgivenUp _)

theorem weaken {s : Survey α} {givenUp' : List Machine → Prop}
    (hs : Leads stage s machines done givenUp)
    (hgivenUp : ∀ machines', givenUp machines' → givenUp' machines') :
    Leads stage s machines done givenUp' :=
  hs.mono (fun _ _ h => h) hgivenUp

/-- A request is answered as it should be, or it is disturbed, and then judged a failure. -/
theorem attempt {γ : Type} {what : String} {c : Call}
    {judge : Except Failure c.request.Answer → Except Failure γ} {b : γ}
    (hprovisions : c.request.Provisions) (hquiet : ∀ m ∈ machines, m.rules = [])
    (hanswered : judge (answered machines c).2 = .ok b)
    (hjudge : ∀ f : Failure, f.Uninformative → judge (.error f) = .error f)
    (hmachines : givenUp machines) (hcarriedOut : givenUp (answered machines c).1) :
    Leads stage (Survey.attempt (Check.request what c.cluster c.request)) machines
      (fun answer => Judged stage (answered machines c).1 givenUp (judge answer) b) givenUp := by
  rintro patience l inventory m hl rfl
  obtain ⟨outcome, m', hrun, hends⟩ :=
    stage.request what c patience l m hprovisions hl hquiet
  rw [run_attempt, hrun]
  rcases hends with ⟨rfl, hm'⟩ | ⟨hstage, hm', houtcome⟩
  · exact ⟨_, m', rfl, .inl ⟨hanswered, hm'⟩⟩
  · have hgivenUp : givenUp (stage.machines m'.state) := by
      rcases hm' with hm' | hm' <;> rwa [hm']
    cases outcome with
    | returned answer =>
      obtain ⟨f, rfl, hf⟩ := houtcome answer rfl
      exact ⟨_, m', rfl, .inr ⟨⟨f, hjudge f hf⟩, hstage, hgivenUp⟩⟩
    | stalled => exact ⟨_, m', rfl, hstage, hgivenUp⟩
    | crashed => exact ⟨_, m', rfl, hstage, hgivenUp⟩

theorem ofExcept {e : Except Failure α} {a : α} {expected : List Machine}
    (h : Judged stage expected givenUp e a machines) :
    Leads stage (Survey.ofExcept e) machines
      (fun a' machines' => a' = a ∧ machines' = expected) givenUp := by
  rintro patience l inventory m _ rfl
  rcases h with ⟨rfl, hm⟩ | ⟨⟨f, rfl⟩, hdisturbed⟩
  · exact ⟨_, m, rfl, rfl, hm⟩
  · exact ⟨_, m, rfl, hdisturbed⟩

/-- A request is answered as it should be, or it is disturbed. -/
theorem request {what : String} {c : Call} {a : c.request.Answer}
    (hprovisions : c.request.Provisions) (hquiet : ∀ m ∈ machines, m.rules = [])
    (hanswered : (answered machines c).2 = .ok a)
    (hmachines : givenUp machines) (hcarriedOut : givenUp (answered machines c).1) :
    Leads stage (Survey.request what c.cluster c.request) machines
      (fun a' machines' => a' = a ∧ machines' = (answered machines c).1) givenUp := by
  intro patience l inventory m hl hm
  rw [Survey.request, ← run_attempt_bind_ofExcept]
  have hattempt : Leads stage (Survey.attempt (Check.request what c.cluster c.request)) machines
      (fun answer => Judged stage (answered machines c).1 givenUp answer a) givenUp :=
    attempt hprovisions hquiet hanswered (fun _ _ => rfl) hmachines hcarriedOut
  exact hattempt.bind (fun _ _ h => ofExcept h) patience l inventory m hl hm

end Leads

end Survey

/-- The clusters of a run are there, and answer as they should. -/
structure Ready (clients : Clients) (machines : List Machine) : Prop where
  there : ∀ side, (clients.get side).id < machines.length
  quiet : ∀ m ∈ machines, m.rules = []

theorem Ready.updateStore {clients : Clients} {machines : List Machine}
    (h : Ready clients machines) (id : Nat) (f : Store → Store) :
    Ready clients (updateStore machines id f) where
  there side := by
    rw [length_updateStore]
    exact h.there side
  quiet := rules_updateStore h.quiet

section Answers

variable {machines : List Machine} {cluster : Cluster}

theorem answered_of_getElem? {m : Machine} {c : Call} (hm : machines[c.cluster.id]? = some m) :
    answered machines c =
      (updateStore machines c.cluster.id fun s => (s.answer (shownPod c.request) c.request).1,
        (m.store.answer (shownPod c.request) c.request).2) := by
  rw [← set_eq_updateStore hm]
  simp only [answered, answerFrom, hm]

/-- A request for a new object makes sure of it, without complaint. -/
theorem answered_creation (ns : String) (hthere : cluster.id < machines.length) (o : Object) :
    (answered machines ⟨cluster, o.creation ns⟩).1 =
        updateStore machines cluster.id (Store.createIn ns · o) ∧
      created (answered machines ⟨cluster, o.creation ns⟩).2 = .ok () := by
  have hm := List.getElem?_eq_getElem hthere
  rw [answered_of_getElem? (c := ⟨cluster, o.creation ns⟩) hm]
  exact ⟨rfl, Store.created_create _ _ o⟩

/-- A look-up changes nothing. -/
theorem answered_lookup (ns : String) (hthere : cluster.id < machines.length) (item : Item) :
    (answered machines ⟨cluster, item.lookup ns⟩).1 = machines ∧
      (answered machines ⟨cluster, item.lookup ns⟩).2 =
        machines[cluster.id].store.get item.kind (item.kind.keyIn ns item.name) := by
  have hm := List.getElem?_eq_getElem hthere
  rw [answered_of_getElem? (c := ⟨cluster, item.lookup ns⟩) hm]
  refine ⟨?_, rfl⟩
  exact updateStore_eq_self (f := fun s => s) fun _ _ => rfl

/-- All nodes of a cluster in memory are in one zone. -/
theorem answered_listNodes (hthere : cluster.id < machines.length) :
    (answered machines ⟨cluster, .listNodes⟩).1 = machines ∧
      ∃ nodes, (answered machines ⟨cluster, .listNodes⟩).2 = .ok nodes ∧
        Topology.selectZone nodes = "zone-a" := by
  have hm := List.getElem?_eq_getElem hthere
  rw [answered_of_getElem? (c := ⟨cluster, .listNodes⟩) hm]
  refine ⟨?_, _, rfl, rfl⟩
  exact updateStore_eq_self (f := fun s => s) fun _ _ => rfl

end Answers

section Steps

variable {stage : Stage} {clients : Clients} {ns : String} {machines : List Machine}

theorem createObject_leads (hready : Ready clients machines) (side : Side) (o : Object) :
    Survey.Leads stage (createObject (clients.get side) ns o) machines
      (fun _ machines' =>
        machines' = updateStore machines (clients.get side).id (Store.createIn ns · o))
      (fun machines' => machines' = machines ∨
        machines' = updateStore machines (clients.get side).id (Store.createIn ns · o)) := by
  obtain ⟨hmachines, hcreated⟩ := answered_creation ns (hready.there side) o
  rw [← hmachines]
  refine .bind (.attempt (c := ⟨clients.get side, o.creation ns⟩) trivial hready.quiet hcreated
    (fun f hf => ?_) (.inl rfl) (.inr rfl)) fun answer machines' h => ?_
  · simp [created, hf.2]
  · exact (Survey.Leads.ofExcept h).mono (fun _ _ hm => hm.2) fun _ hm => hm

/-- Objects are created in order. Given up, some of the first are there. -/
theorem creations_lead (hready : Ready clients machines) (side : Side) (objects : List Object) :
    Survey.Leads stage (objects.forM (createObject (clients.get side) ns)) machines
      (fun _ machines' =>
        machines' = updateStore machines (clients.get side).id (Store.createAll ns objects))
      (fun machines' => ∃ k,
        machines' = updateStore machines (clients.get side).id
          (Store.createAll ns (objects.take k))) := by
  induction objects generalizing machines with
  | nil => exact .pure (updateStore_eq_self fun _ _ => rfl).symm
  | cons o objects ih =>
    refine .bind ((createObject_leads hready side o).weaken ?_) ?_
    · rintro machines' (rfl | rfl)
      · exact ⟨0, (updateStore_eq_self fun _ _ => rfl).symm⟩
      · exact ⟨1, rfl⟩
    · rintro _ machines' rfl
      refine (ih (hready.updateStore _ _)).mono (fun _ machines' hm' => ?_) ?_
      · rw [hm', updateStore_updateStore]
        rfl
      · rintro machines' ⟨k, rfl⟩
        refine ⟨k + 1, ?_⟩
        rw [updateStore_updateStore]
        rfl

theorem make_leads (hready : Ready clients machines) (side : Side) (item : Item) :
    Survey.Leads stage (make (clients.get side) ns item) machines
      (fun _ machines' =>
        machines' = updateStore machines (clients.get side).id (Store.createAll ns item.objects))
      (fun machines' => ∃ k,
        machines' = updateStore machines (clients.get side).id
          (Store.createAll ns (item.objects.take k))) := by
  refine .bind (creations_lead hready side item.objects) fun _ machines' hm' => ?_
  split
  · exact .record hm'
  · exact .pure hm'

/-- A step is taken. Given up, whatever steps were to follow, the plan has got part of the way. -/
theorem ensure_leads (hready : Ready clients machines) (side : Side) (item : Item) :
    Survey.Leads stage (ensure (clients.get side) ns item) machines
      (fun _ machines' => machines' = ensureOn clients ns (side, item) machines)
      (fun machines' => ∀ steps,
        Partway clients ns ((side, item) :: steps) machines machines') := by
  have hthere := hready.there side
  have hm := List.getElem?_eq_getElem hthere
  obtain ⟨hmachines, hlookup⟩ := answered_lookup ns hthere item
  have habsent : absent (answered machines ⟨clients.get side, item.lookup ns⟩).2 =
      .ok (!(machines[(clients.get side).id].store.get item.kind
        (item.kind.keyIn ns item.name)).isOk) := by
    rw [hlookup]
    exact Store.absent_get _ _ _
  refine .bind (.attempt (c := ⟨clients.get side, item.lookup ns⟩) trivial hready.quiet habsent
    (fun f hf => ?_) (fun _ => .stop) fun _ => ?_) fun lookup machines' h => ?_
  · simp [absent, hf.1]
  · rw [hmachines]
    exact .stop
  · refine .bind (.ofExcept h) ?_
    rintro missing _ ⟨rfl, rfl⟩
    rw [hmachines]
    cases hfound : (machines[(clients.get side).id].store.get item.kind
        (item.kind.keyIn ns item.name)).isOk with
    | true =>
      refine .pure (updateStore_eq_self fun m hm' => ?_).symm
      obtain rfl := Option.some.inj (hm.symm.trans hm')
      exact Store.Settled.ensure_eq (.inl hfound)
    | false =>
      have hmissing : MissingOn clients ns (side, item) machines := by
        intro m hm'
        obtain rfl := Option.some.inj (hm.symm.trans hm')
        exact hfound
      refine (make_leads hready side item).mono ?_ ?_
      · rintro _ machines' rfl
        refine updateStore_congr fun m hm' => ?_
        simp only [Store.ensure, hmissing m hm', Bool.false_eq_true, if_false]
      · rintro machines' ⟨k, rfl⟩ steps
        exact .creating k hmissing

/-- The steps of a plan are taken in order. Given up, the plan has got part of the way. -/
theorem takeSteps_leads (hready : Ready clients machines) (steps : List (Side × Item)) :
    Survey.Leads stage (takeSteps clients ns steps) machines
      (fun _ machines' => machines' = ensureAll clients ns steps machines)
      (Partway clients ns steps machines) := by
  induction steps generalizing machines with
  | nil => exact .pure rfl
  | cons step steps ih =>
    obtain ⟨side, item⟩ := step
    refine .bind ((ensure_leads hready side item).weaken fun _ h => h steps) ?_
    rintro _ machines' rfl
    exact (ih (hready.updateStore _ _)).weaken fun _ h => .next h

/-- The zone that is found on clusters in memory. -/
def simulatedZone (settings : Settings) : String := if settings.performance then "zone-a" else ""

/-- The plan of a run on clusters in memory. -/
def simulatedPlan (settings : Settings) (features : FeatureSet) : Plan :=
  Topology.plan settings features (simulatedZone settings)

theorem chooseZone_leads (hready : Ready clients machines) (settings : Settings) :
    Survey.Leads stage (chooseZone clients settings) machines
      (fun zone machines' => zone = simulatedZone settings ∧ machines' = machines)
      (fun machines' => machines' = machines) := by
  unfold chooseZone simulatedZone
  cases settings.performance with
  | false => exact .pure ⟨rfl, rfl⟩
  | true =>
    obtain ⟨hmachines, nodes, hnodes, hzone⟩ := answered_listNodes (hready.there .source)
    refine .bind (.request (c := ⟨clients.source, .listNodes⟩) trivial hready.quiet hnodes rfl
      hmachines) ?_
    rintro _ machines' ⟨rfl, rfl⟩
    exact .pure ⟨hzone, hmachines⟩

/-- A deployment without the teardown that may come first. -/
def provision (clients : Clients) (settings : Settings) (features : FeatureSet) : Survey Plan := do
  let plan := Topology.plan settings features (← chooseZone clients settings)
  takeSteps clients settings.testNamespace plan.steps
  return plan

theorem deploy_eq (clients : Clients) (settings : Settings) (features : FeatureSet) :
    deploy clients settings features =
      if settings.forceDeploy then do
        clients.distinct.forM fun cluster => Survey.check (teardown cluster settings.testNamespace)
        provision clients settings features
      else provision clients settings features :=
  rfl

/-- The plan is carried out. Given up, it has got part of the way. -/
theorem provision_leads (stage : Stage) (hready : Ready clients machines) (settings : Settings)
    (features : FeatureSet) :
    Survey.Leads stage (provision clients settings features) machines
      (fun plan machines' =>
        plan = simulatedPlan settings features ∧
          machines' = ensureAll clients settings.testNamespace plan.steps machines)
      (Partway clients settings.testNamespace
        (simulatedPlan settings features).steps machines) := by
  refine .bind ((chooseZone_leads hready settings).weaken ?_) ?_
  · rintro _ rfl
    exact .stop
  · rintro _ machines' ⟨rfl, rfl⟩
    refine .bind (takeSteps_leads hready _) fun _ machines' hm' => ?_
    exact .pure ⟨rfl, hm'⟩

theorem deploy_leads (stage : Stage) (hready : Ready clients machines) (settings : Settings)
    (features : FeatureSet) (hforce : settings.forceDeploy = false) :
    Survey.Leads stage (deploy clients settings features) machines
      (fun plan machines' =>
        plan = simulatedPlan settings features ∧
          machines' = ensureAll clients settings.testNamespace plan.steps machines)
      (Partway clients settings.testNamespace
        (simulatedPlan settings features).steps machines) := by
  rw [deploy_eq, hforce]
  exact provision_leads stage hready settings features

end Steps

section Deployments

variable {clients : Clients} {ns : String} {steps : List (Side × Item)}
  {machines machines' : List Machine}

theorem Simulation.Partway.ready (h : Partway clients ns steps machines machines')
    (hready : Ready clients machines) : Ready clients machines' := by
  induction h with
  | stop => exact hready
  | creating k _ => exact hready.updateStore _ _
  | next _ ih => exact ih (hready.updateStore _ _)

/-- A deployment that may be cut off or disturbed at any call, which is carried out or not. -/
structure Attempt where
  interference : Nat → Interference
  limits : Limits
  patience : Nat := 0
  start : Instant := 0
  inventory : Inventory := ∅

/-- The machines after a deployment that may be disturbed. -/
def Attempt.leaves (a : Attempt) (clients : Clients) (settings : Settings) (features : FeatureSet)
    (machines : List Machine) : List Machine :=
  machinesIn (((deploy clients settings features).run.run a.inventory).run
    (disturbedWorld a.interference) a.patience a.limits ⟨a.start, (0, machines), []⟩).2.state

theorem Attempt.leaves_partway (a : Attempt) (hready : Ready clients machines)
    (settings : Settings) (features : FeatureSet) (hforce : settings.forceDeploy = false) :
    Partway clients settings.testNamespace
      (simulatedPlan settings features).steps machines
      (a.leaves clients settings features machines) := by
  obtain ⟨outcome, m, hrun, houtcome⟩ :=
    deploy_leads (disturbs_disturbedWorld a.interference).stage hready settings features hforce
      a.patience a.limits a.inventory ⟨a.start, (0, machines), []⟩ trivial rfl
  have hleaves : a.leaves clients settings features machines = machinesIn m.state :=
    congrArg (fun r : _ × Moment (disturbedWorld a.interference) => machinesIn r.2.state) hrun
  rw [hleaves]
  rcases outcome with ⟨f | plan, inventory⟩ | _ | _
  · exact houtcome.2
  · obtain ⟨rfl, hm⟩ := houtcome
    rw [show machinesIn m.state = _ from hm]
    exact .complete
  · exact houtcome.2
  · exact houtcome.2

theorem attempts_leave (attempts : List Attempt) (hready : Ready clients machines)
    (settings : Settings) (features : FeatureSet) (hforce : settings.forceDeploy = false)
    (hmachines' : attempts.foldl
      (fun machines a => a.leaves clients settings features machines) machines = machines') :
    Ready clients machines' ∧
      ensureAll clients settings.testNamespace
          (simulatedPlan settings features).steps machines' =
        ensureAll clients settings.testNamespace
          (simulatedPlan settings features).steps machines := by
  induction attempts generalizing machines with
  | nil =>
    obtain rfl := hmachines'
    exact ⟨hready, rfl⟩
  | cons a attempts ih =>
    -- from partway on, all that is missing leads to the same end
    have hpartway := a.leaves_partway hready settings features hforce
    obtain ⟨hready', heq⟩ := ih (hpartway.ready hready) hmachines'
    exact ⟨hready', heq.trans hpartway.ensureAll_eq⟩

theorem deploy_undisturbed (hready : Ready clients machines) (settings : Settings)
    (features : FeatureSet) (hforce : settings.forceDeploy = false) (hidesVantagePod : Bool)
    (inventory : Inventory) (patience : Nat) (t : Instant) :
    ∃ (inventory' : Inventory) (m : Moment (world hidesVantagePod)),
      ((deploy clients settings features).run.run inventory).run (world hidesVantagePod) patience {}
          ⟨t, machines, []⟩ =
        (.returned (.ok (simulatedPlan settings features), inventory'), m) ∧
      machinesAt m.state = ensureAll clients settings.testNamespace
        (simulatedPlan settings features).steps machines := by
  obtain ⟨outcome, m, hrun, houtcome⟩ :=
    deploy_leads (quietStage hidesVantagePod) hready settings features hforce
      patience {} inventory ⟨t, machines, []⟩ rfl rfl
  rcases outcome with ⟨f | plan, inventory'⟩ | _ | _
  · exact houtcome.1.elim
  · obtain ⟨rfl, hm⟩ := houtcome
    exact ⟨inventory', m, hrun, hm⟩
  · exact houtcome.1.elim
  · exact houtcome.1.elim

end Deployments

/-- Without a teardown beforehand, deployments can be taken up again. After any number of them, each
cut off at any instant or disturbed at any call, one that runs undisturbed succeeds and leaves the
clusters as if there had been no other: all that is planned is there, and all that was there is as
it was, except for the service that is published for a new ingress. -/
theorem deploy_resumes (clients : Clients) (settings : Settings) (features : FeatureSet)
    (hforce : settings.forceDeploy = false) (stores : List Store)
    (hstores : ∀ side, (clients.get side).id < stores.length) (attempts : List Attempt)
    (hidesVantagePod : Bool) (inventory inventory₀ : Inventory) (patience patience₀ : Nat)
    (t t₀ : Instant) :
    let initial : List Machine := stores.map fun store => { store }
    let left := attempts.foldl
      (fun machines a => a.leaves clients settings features machines) initial
    ∃ (inventory' inventory₀' : Inventory) (m m₀ : Moment (world hidesVantagePod)),
      ((deploy clients settings features).run.run inventory).run (world hidesVantagePod) patience {}
          ⟨t, left, []⟩ =
        (.returned (.ok (simulatedPlan settings features), inventory'), m) ∧
      ((deploy clients settings features).run.run inventory₀).run (world hidesVantagePod)
          patience₀ {} ⟨t₀, initial, []⟩ =
        (.returned (.ok (simulatedPlan settings features), inventory₀'), m₀) ∧
      machinesAt m.state = machinesAt m₀.state ∧
      (∀ side item, (side, item) ∈ (simulatedPlan settings features).steps →
        ∃ machine, (machinesAt m.state)[(clients.get side).id]? = some machine ∧
          machine.store.objects.contains
            ⟨item.kind, item.kind.keyIn settings.testNamespace item.name⟩ = true) ∧
      ∀ (id : Nat) (store : Store), stores[id]? = some store →
        ∃ machine, (machinesAt m.state)[id]? = some machine ∧
          store.Preserves settings.testNamespace machine.store := by
  intro initial left
  have hready : Ready clients initial := by
    refine ⟨fun side => ?_, fun m hm => ?_⟩
    · rw [List.length_map]
      exact hstores side
    · obtain ⟨store, _, rfl⟩ := List.mem_map.1 hm
      rfl
  obtain ⟨hleft, hsame⟩ := attempts_leave attempts hready settings features hforce rfl
  obtain ⟨inventory', m, hrun, hm⟩ :=
    deploy_undisturbed hleft settings features hforce hidesVantagePod inventory patience t
  obtain ⟨inventory₀', m₀, hrun₀, hm₀⟩ :=
    deploy_undisturbed hready settings features hforce hidesVantagePod inventory₀ patience₀ t₀
  rw [hsame] at hm
  have hpreserves : PreservesAll settings.testNamespace initial (machinesAt m.state) := by
    rw [hm]
    exact preservesAll_ensureAll
  have hthere (id : Nat) (hid : id < stores.length) : id < (machinesAt m.state).length := by
    rwa [hpreserves.length_eq, List.length_map]
  refine ⟨inventory', inventory₀', m, m₀, hrun, hrun₀, hm.trans hm₀.symm, fun side item hstep => ?_,
    fun id store hstore => ?_⟩
  · have hmachine := List.getElem?_eq_getElem (hthere _ (hstores side))
    have hsettled : SettledOn clients settings.testNamespace (side, item) (machinesAt m.state) := by
      rw [hm]
      exact settledOn_ensureAll hstep
    exact ⟨_, hmachine, (hsettled _ hmachine).contains⟩
  · have hmachine := List.getElem?_eq_getElem (hthere id (List.getElem?_eq_some_iff.1 hstore).1)
    refine ⟨_, hmachine, hpreserves.preserves id { store } _ ?_ hmachine⟩
    rw [List.getElem?_map, hstore]
    rfl

/-- The reply to the fourth call, which makes a service account, is lost. -/
def lostReply : Attempt where
  interference n :=
    if n = 3 then .fails 1 (.api (.transport "connection reset")) true rfl rfl else .none 1
  limits := {}

/-- What was made without a reply is not made a second time. -/
theorem deploy_after_lostReply :
    let fresh : List Machine := [{ store := .fresh "kind" }]
    let left := lostReply.leaves (.single ⟨0, "kind"⟩) {} ∅ fresh
    left.map (·.store.creates) = [2] ∧
      ∃ (inventory : Inventory) (m : Moment (world false)),
        ((deploy (.single ⟨0, "kind"⟩) {} ∅).run.run ∅).run (world false) 0 {} ⟨0, left, []⟩ =
          (.returned (.ok (simulatedPlan {} ∅), inventory), m) ∧
        (machinesAt m.state).map (·.store.creates) = [12] := by
  have hclients : ∀ side, ((Clients.single ⟨0, "kind"⟩).get side).id < 1 := by
    rintro (_ | _) <;> exact Nat.one_pos
  obtain ⟨inventory, _, m, m₀, hrun, hrun₀, hsame, _⟩ :=
    deploy_resumes (.single ⟨0, "kind"⟩) {} ∅ rfl [.fresh "kind"] hclients [lostReply] false ∅ ∅
      0 0 0 0
  refine ⟨rfl, inventory, m, hrun, ?_⟩
  rw [hsame, ← congrArg (fun r => machinesAt r.2.state) hrun₀]
  decide +kernel

end Reachability
