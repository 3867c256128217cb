import Reachability.Proofs.Session.Removal
import Reachability.Proofs.Validation.Findings

namespace Reachability

open Manifest (Kind)
open Reachability.Topology
open Simulation
open Wait (Limits Moment Procedure World)

variable {σ : Standstill} {clients : Clients} {settings : Settings} {features : FeatureSet}
  {machines : List Machine} {i : Inventory} {ns : String}

/-- Something holds of the clusters of a run, which answer by themselves. -/
structure Kept (clients : Clients) (P : Side → Store → Prop) (machines : List Machine) : Prop where
  quiet : Quiet machines
  there (side : Side) : ∃ machine, machines[(clients.get side).id]? = some machine ∧
    P side machine.store

theorem Kept.updateStore {P : Side → Store → Prop} (h : Kept clients P machines) (id : Nat)
    {f : Store → Store} (hf : ∀ side s, P side s → P side (f s)) :
    Kept clients P (updateStore machines id f) where
  quiet := rules_updateStore h.quiet
  there side := by
    obtain ⟨machine, hmachine, hs⟩ := h.there side
    rw [getElem?_updateStore, hmachine]
    refine ⟨_, rfl, ?_⟩
    split
    · exact hf side _ hs
    · exact hs

/-- Where no deletion is rejected, the clusters are torn down one after the other. -/
theorem teardowns_yields {P : Side → Store → Prop}
    (hP : ∀ side s, P side s → s.rejections = 0)
    (hdown : ∀ side s, P side s → P side (s.tornDown ns)) {l : List Cluster}
    (hl : l ⊆ clients.distinct) (h : Kept clients P machines) :
    (l.forM fun cluster => Survey.check (teardown cluster ns)).Yields σ i machines
      fun _ i' machines' => i' = i ∧ Kept clients P machines' := by
  induction l generalizing machines with
  | nil => exact .pure ⟨rfl, h⟩
  | cons cluster l ih =>
    obtain ⟨hcluster, hrest⟩ := List.cons_subset.1 hl
    obtain ⟨side, rfl⟩ := Clients.exists_of_mem_distinct hcluster
    obtain ⟨machine, hmachine, hs⟩ := h.there side
    refine .bind (.check (teardown_yields h.quiet hmachine (hP side _ hs))) ?_
    rintro _ _ _ ⟨rfl, rfl⟩
    exact ih hrest (h.updateStore _ hdown)

theorem Simulation.Store.Holds.delete {cluster : String} {s : Store} (hs : s.Holds cluster {})
    (kind : Kind) (key : ObjectKey) : (s.delete kind key).1.Holds cluster {} := by
  have hmissing (p : Place) : s.objects.contains p = false :=
    hs.contains_eq_false List.not_mem_nil
  have hasked : Store.Holds cluster {} { s with spaceDeletes := s.spaceDeletes + 1 } :=
    ⟨hs.name, hs.objects, hs.pods, hs.podCount, hs.serviceCount, hs.rejections, hs.omitted,
      hs.externalWorkloads, hs.allowed⟩
  unfold Store.delete
  split
  · simpa [Store.deleteSpace, hs.rejections, Store.has, hmissing] using hasked
  · simpa [Store.has, hmissing] using hs

/-- A teardown finds nothing on a fresh cluster. -/
theorem Simulation.Store.Holds.tornDown {cluster : String} {s : Store} (hs : s.Holds cluster {})
    (ns : String) : (s.tornDown ns).Holds cluster {} := by
  have hall (subjects : List (Kind × String)) : (s.deleteAll ns subjects).Holds cluster {} := by
    induction subjects generalizing s with
    | nil => exact hs
    | cons subject subjects ih => exact ih (hs.delete subject.1 _)
  exact hall (everything ns)

theorem quiet_ensureAll (h : Quiet machines) (steps : List (Side × Item)) :
    Quiet (ensureAll clients ns steps machines) := by
  induction steps generalizing machines with
  | nil => exact h
  | cons step steps ih => exact ih (rules_updateStore h)

/-- Where the plan of a run has been carried out on fresh clusters, they hold what it brings. -/
theorem exists_furnished (hclients : clients.Suit settings)
    (hns : settings.testNamespace ≠ agentSpace)
    (h : Kept clients (fun side s => s.Holds (clients.get side).name {}) machines) :
    ∃ stores, Furnished clients stores settings.testNamespace
      (brought settings features (simulatedZone settings))
      (ensureAll clients settings.testNamespace (simulatedPlan settings features).steps
        machines) := by
  have hitems (side : Side) : itemsAt clients (clients.get side).id
      (simulatedPlan settings features).steps =
        brought settings features (simulatedZone settings) side := by
    simp [itemsAt, brought, Plan.itemsAt, simulatedPlan, hclients.seat_eq_iff]
  have hquiet : Quiet (ensureAll clients settings.testNamespace
      (simulatedPlan settings features).steps machines) :=
    quiet_ensureAll h.quiet _
  have hheld (side : Side) : ∃ s, (ensureAll clients settings.testNamespace
      (simulatedPlan settings features).steps machines)[(clients.get side).id]? =
        some { store := s } ∧ s.Hosts (clients.get side).name settings.testNamespace
          (brought settings features (simulatedZone settings) side) := by
    have hheld : HeldAt (clients.get side).name
        (holdings (clients.get side).name settings.testNamespace
          (itemsAt clients (clients.get side).id (simulatedPlan settings features).steps))
        (clients.get side).id _ :=
      ensureAll_holds (h.there side) (by rw [hitems]; exact brought_apart side)
    rw [hitems] at hheld
    obtain ⟨⟨s, rules⟩, hmachine, hs⟩ := hheld
    obtain rfl : rules = [] := hquiet _ (List.mem_of_getElem? hmachine)
    exact ⟨s, hmachine, hosts_brought hs hns⟩
  choose stores hthere hhosts using hheld
  exact ⟨stores, ⟨hquiet, hthere⟩, hhosts⟩

theorem provision_furnishes (hclients : clients.Suit settings)
    (hns : settings.testNamespace ≠ agentSpace)
    (h : Kept clients (fun side s => s.Holds (clients.get side).name {}) machines) :
    (provision clients settings features).Yields σ ∅ machines fun _ i' machines' =>
      i'.Expects (simulatedPlan settings features).steps ∧
        ∃ stores, Furnished clients stores settings.testNamespace
          (brought settings features (simulatedZone settings)) machines' := by
  have hready : Ready clients machines := by
    refine ⟨fun side => ?_, h.quiet⟩
    obtain ⟨machine, hmachine, -⟩ := h.there side
    exact (List.getElem?_eq_some_iff.1 hmachine).1
  refine (provision_yields hready settings features).mono ?_
  rintro _ _ _ ⟨hi, rfl⟩
  exact ⟨hi, exists_furnished hclients hns h⟩

/-- With or without a teardown before it, a deployment on fresh clusters furnishes them. -/
theorem deploy_furnishes (hclients : clients.Suit settings)
    (hns : settings.testNamespace ≠ agentSpace)
    (h : Kept clients (fun side s => s.Holds (clients.get side).name {}) machines) :
    (deploy clients settings features).Yields σ ∅ machines fun _ i' machines' =>
      i'.Expects (simulatedPlan settings features).steps ∧
        ∃ stores, Furnished clients stores settings.testNamespace
          (brought settings features (simulatedZone settings)) machines' := by
  rw [deploy_eq]
  split
  next =>
    refine .bind (teardowns_yields (fun _ _ hs => hs.rejections) (fun _ _ hs => hs.tornDown _)
      (List.Subset.refl _) h) ?_
    rintro _ _ _ ⟨rfl, h'⟩
    exact provision_furnishes hclients hns h'
  next => exact provision_furnishes hclients hns h

/-- The inventory holds what the plan of the run brings. -/
structure Inventory.HoldsPlan (clients : Clients) (settings : Settings) (features : FeatureSet)
    (i : Inventory) : Prop where
  connectivity (h : settings.performance = false) : i.HoldsConnectivity clients settings features
  performance (h : settings.performance = true) : i.HoldsPerformance clients settings

/-- What is expected after a deployment is the service of an ingress, if there is one. -/
theorem Inventory.Expects.ingress (hi : i.Expects (simulatedPlan settings features).steps)
    {name : String} (hname : i.ingressServices.contains name = true) :
    name = ingressServiceName ingressName ∧ settings.performance = false ∧
      features.enabled .ingressController = true := by
  obtain ⟨hname, side, hside⟩ := hi.service hname
  exact ⟨hname, ingress_planned hside⟩

theorem Inventory.Expects.eq_empty (hi : i.Expects (simulatedPlan settings features).steps)
    (hperformance : settings.performance = true) : i = ∅ := by
  have hnone : i.ingressServices = ∅ := by
    refine Dict.ext_get? fun name => ?_
    rw [Dict.get?_empty, ← Option.not_isSome_iff_eq_none]
    intro hname
    exact absurd ((hi.ingress hname).2.1.symm.trans hperformance) Bool.false_ne_true
  rw [hi.nothingElse, hnone]
  rfl

section Validations

variable {stores : Side → Store}
  (h : Furnished clients stores settings.testNamespace
    (brought settings features (simulatedZone settings)) machines)

include h

/-- All that a validation waits for, which does not know the zone, has been deployed. -/
theorem ready_planned (side : Side) : ∀ name ∈ (plan settings features "").awaitedOn side,
    ∃ d, (stores side).get .deployment ⟨settings.testNamespace, name⟩ = .ok d ∧
      d.readiness = some (.ok ()) := by
  have hzone : (plan settings features (simulatedZone settings)).awaitedOn side =
      (plan settings features "").awaitedOn side := plan_awaitedOn_zone side
  rw [← hzone]
  exact fun _ => ready_awaited (h.hosts side)

theorem validate_yields (hclients : clients.Suit settings)
    (hskips : settings.performance = false → settings.isMultiCluster = true →
      settings.skipIdentityCheck = true)
    (htime : settings.Timely σ.now) (hi : i.Expects (simulatedPlan settings features).steps) :
    (validate clients settings features).Yields σ i machines fun _ i' machines' =>
      i'.HoldsPlan clients settings features ∧ machines' = machines := by
  rw [hi.nothingElse]
  refine .bind (Survey.agentPods_yields h.toStocked) ?_
  rintro _ _ _ ⟨rfl, rfl⟩
  refine .bind (Survey.deployments_yields h.toStocked .source htime (ready_planned h .source)) ?_
  rintro _ _ _ ⟨rfl, rfl⟩
  refine .bind (Survey.deployments_yields h.toStocked .destination htime
    (ready_planned h .destination)) ?_
  rintro _ _ _ ⟨rfl, rfl⟩
  cases hperformance : settings.performance with
  | true =>
    refine (Survey.performancePods_yields h htime).mono ?_
    rintro _ _ _ ⟨rfl, rfl⟩
    refine ⟨⟨fun hnot => ?_, fun _ => holdsPerformance_found h hperformance ?_⟩, rfl⟩
    · exact absurd (hnot.symm.trans hperformance) Bool.false_ne_true
    · rw [hi.eq_empty hperformance]
      rfl
  | false =>
    refine (Survey.connectivity_yields h htime
      (sound h hperformance hclients (hskips hperformance) i.ingressServices)).mono ?_
    rintro _ _ _ ⟨rfl, rfl⟩
    refine ⟨⟨fun _ => holdsConnectivity_found h hperformance hclients fun name hname => ?_,
      fun hmeasured => ?_⟩, rfl⟩
    · exact ⟨(hi.ingress hname).1, (hi.ingress hname).2.2⟩
    · exact absurd (hperformance.symm.trans hmeasured) Bool.false_ne_true

end Validations

theorem runAll_yields (hclients : clients.Suit settings)
    (hns : settings.testNamespace ≠ agentSpace)
    (hskips : settings.performance = false → settings.isMultiCluster = true →
      settings.skipIdentityCheck = true)
    (htime : settings.Timely σ.now)
    (h : Kept clients (fun side s => s.Holds (clients.get side).name {}) machines) :
    (runAll clients settings features).Yields σ ∅ machines fun _ i' _ =>
      i'.HoldsPlan clients settings features := by
  refine .bind (deploy_furnishes hclients hns h) ?_
  rintro _ i₁ _ ⟨hi, stores, hfurnished⟩
  refine .bind (validate_yields hfurnished hclients hskips htime hi) ?_
  rintro _ i₂ machines' ⟨hplan, rfl⟩
  split
  next =>
    have hkept : Kept clients (fun _ s => s.rejections = 0) machines' :=
      ⟨hfurnished.quiet, fun side => ⟨_, hfurnished.there side, (hfurnished.hosts side).rejections⟩⟩
    refine (teardowns_yields (fun _ _ hs => hs)
      (fun _ _ hs => Store.rejections_deleteAll hs (List.Subset.refl _))
      (List.Subset.refl _) hkept).mono ?_
    rintro _ _ _ ⟨rfl, -⟩
    exact hplan
  next => exact .pure hplan

/-- A run finds what it has provisioned. On fresh clusters in memory that answer at once, whatever
the settings ask for and whichever features are enabled, it succeeds without any time going by, and
what it returns are the pods and services of its plan by role. -/
theorem run_discovers {w : World clusterApi} {machines : w.State → List Machine}
    (hworld : AtOnce w machines) (clients : Clients) (settings : Settings)
    (features : FeatureSet) (hclients : clients.Suit settings)
    (hns : settings.testNamespace ≠ agentSpace)
    (hskips : settings.performance = false → settings.isMultiCluster = true →
      settings.skipIdentityCheck = true)
    {patience : Nat} {l : Limits} {m : Moment w} (hl : l.endedBy m.now = false)
    (htime : settings.Timely m.now) (hquiet : Quiet (machines m.state))
    (hfresh : ∀ side, (machines m.state)[(clients.get side).id]? =
      some { store := .fresh (clients.get side).name }) :
    ∃ i m', (run clients settings features).run.run w patience l m = (.returned (.ok i), m') ∧
      m'.now = m.now ∧ i.HoldsPlan clients settings features := by
  let σ : Standstill :=
    ⟨w, machines, hworld, m.now, htime.pause, (· = l), by rintro _ rfl; exact hl⟩
  have hkept : Kept clients (fun side s => s.Holds (clients.get side).name {})
      (machines m.state) :=
    ⟨hquiet, fun side => ⟨_, hfresh side, .fresh _⟩⟩
  have hyields : (runAll clients settings features).Yields σ ∅ (machines m.state) _ :=
    runAll_yields hclients hns hskips htime hkept
  obtain ⟨_, i, m', _, hrun, hm', hplan⟩ := hyields.ends patience rfl ⟨rfl, rfl⟩
  refine ⟨i, m', ?_, hm'.now, hplan⟩
  refine (Procedure.run_bind ((runAll clients settings features).run.run ∅) _).trans ?_
  exact congrArg (Wait.andThen · _) hrun

/-- Between two clusters, with nodes that run no agent. -/
theorem twoClusters_discovered :
    let settings : Settings := { multiCluster := "kind-b", skipIdentityCheck := true }
    let features := (∅ : FeatureSet).report .nodeWithoutCilium true
    let clients : Clients := ⟨⟨0, "kind-a"⟩, ⟨1, "kind-b"⟩⟩
    ∃ (i : Inventory) (m : Moment (world false)),
      (run clients settings features).run.run (world false) 0 {}
          ⟨0, [{ store := .fresh "kind-a" }, { store := .fresh "kind-b" }], []⟩ =
        (.returned (.ok i), m) ∧ m.now = 0 ∧ i.HoldsPlan clients settings features := by
  intro settings features clients
  have hfits (timeout : Nat) (hpositive : 0 < timeout) (hsmall : timeout < 2 ^ 63) :
      Wait.Fits 0 timeout := by
    refine ⟨hpositive, ?_⟩
    rw [Wait.after?, if_pos]
    · exact Option.some_ne_none _
    · exact Nat.lt_of_le_of_lt (Nat.div_le_self _ _) (by simpa using hsmall)
  refine run_discovers atOnce_world clients settings features ?_ (by decide) (fun _ _ => rfl) rfl
    ?_ ?_ ?_
  · exact ⟨fun h => absurd h (by decide), fun _ => by decide⟩
  · refine ⟨by decide, ?_, ?_, ?_, ?_⟩ <;> exact hfits _ (by decide) (by decide)
  · intro machine hmachine
    rcases List.mem_pair.1 hmachine with rfl | rfl <;> rfl
  · rintro (_ | _) <;> rfl

end Reachability
