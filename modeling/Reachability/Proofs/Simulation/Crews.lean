import Reachability.Proofs.Simulation.Answers
import Reachability.Proofs.Topology.WellFormed

namespace Reachability.Simulation

open Manifest (Kind Object)
open Reachability.Topology

variable {settings : Settings} {features : FeatureSet} {zone cluster ns : String}

/-- The items that a plan brings to the cluster of a side. Without a second cluster, both sides are
one. -/
def brought (settings : Settings) (features : FeatureSet) (zone : String) (side : Side) :
    List Item :=
  (plan settings features zone).itemsAt settings (seat settings side)

theorem mem_brought {side : Side} {item : Item} : item ∈ brought settings features zone side ↔
    ∃ side', (side', item) ∈ (plan settings features zone).steps ∧
      seat settings side' = seat settings side :=
  Plan.mem_itemsAt

theorem brought_flatMap {β : Type} (g : Item → List β) (side : Side) :
    (brought settings features zone side).flatMap g =
      (plan settings features zone).steps.flatMap fun step =>
        if seat settings step.1 = seat settings side then g step.2 else [] := by
  rw [brought, Plan.itemsAt]
  induction (plan settings features zone).steps with
  | nil => rfl
  | cons step steps ih =>
    by_cases h : seat settings step.1 = seat settings side <;> simp [h, ih]

/-- Something is stored for an item in the places of its objects; for an ingress, a service too. -/
theorem mem_places {item : Item} {p : Place} (h : p ∈ item.objects.flatMap (places ns)) :
    (∃ o ∈ item.objects, p = place ns o) ∨
      item = .ingress ∧ p = ⟨.service, ⟨ns, ingressServiceName ingressName⟩⟩ := by
  obtain ⟨o, ho, hp⟩ := List.mem_flatMap.1 h
  rcases List.mem_cons.1 hp with rfl | hpublished
  · exact .inl ⟨o, ho, rfl⟩
  · cases item with
    | ingress =>
      obtain rfl := List.mem_singleton.1 ho
      exact .inr ⟨rfl, List.mem_singleton.1 hpublished⟩
    | deployment w =>
      rcases List.mem_cons.1 ho with rfl | ho
      · cases hpublished
      · obtain rfl := List.mem_singleton.1 ho
        cases hpublished
    | _ =>
      obtain rfl := List.mem_singleton.1 ho
      cases hpublished

theorem places_nodup (item : Item) : (item.objects.flatMap (places ns)).Nodup := by
  cases item with
  | deployment w => simp [Item.objects, places, place, Manifest.serviceAccount, Object.kind]
  | ingress => simp [Item.objects, places, place, Object.kind]
  | _ => exact List.nodup_singleton _

/-- No service of a plan has the name of the service that is published for its ingress. -/
theorem plan_service_name {side : Side} {item : Item}
    (h : (side, item) ∈ (plan settings features zone).steps) (hkind : item.kind = .service) :
    item.name ≠ ingressServiceName ingressName := by
  cases item with
  | service s =>
    cases hperformance : settings.performance with
    | true =>
      rw [plan_eq_planPerformance hperformance, planPerformance_steps] at h
      simp at h
    | false =>
      rw [plan_eq_planConnectivity hperformance, planConnectivity_steps, List.mem_append,
        mem_groundwork_service, mem_connections_service] at h
      have hsame : echoSameNodeName ≠ ingressServiceName ingressName := by decide
      have hother : echoOtherNodeName ≠ ingressServiceName ingressName := by decide
      rcases h with (⟨-, rfl⟩ | ⟨-, -, rfl⟩) | ⟨-, -, rfl⟩
      · exact hsame
      · exact hother
      · exact hother
  | _ => cases hkind

/-- Items about different things are stored in different places. -/
theorem places_disjoint {item item' : Item} {side side' : Side}
    (h : (side, item) ∈ (plan settings features zone).steps)
    (h' : (side', item') ∈ (plan settings features zone).steps)
    (hdiffer : (item.kind, item.name) ≠ (item'.kind, item'.name)) :
    (item.objects.flatMap (places ns)).Disjoint (item'.objects.flatMap (places ns)) := by
  have hpublished {item : Item} {side : Side} {o : Object} {p : Place}
      (h : (side, item) ∈ (plan settings features zone).steps) (ho : o ∈ item.objects)
      (hp : p = place ns o) (hp' : p = ⟨.service, ⟨ns, ingressServiceName ingressName⟩⟩) :
      False := by
    obtain ⟨hkind, hkey⟩ := Place.mk.inj (hp.symm.trans hp')
    have hname : o.name = ingressServiceName ingressName := congrArg ObjectKey.name hkey
    obtain ⟨hitem, hown | ⟨haccount, -⟩⟩ := Item.of_mem_objects ho
    · exact plan_service_name h (hown.symm.trans hkind) (hitem.symm.trans hname)
    · cases haccount.symm.trans hkind
  intro p hp hp'
  rcases mem_places hp with ⟨o, ho, hplace⟩ | ⟨rfl, hplace⟩ <;>
    rcases mem_places hp' with ⟨o', ho', hplace'⟩ | ⟨rfl, hplace'⟩
  · obtain ⟨hkind, hkey⟩ := Place.mk.inj (hplace.symm.trans hplace')
    refine hdiffer (Prod.ext (Item.kind_eq_of_mem_objects ho ho' hkind) ?_)
    have hname : o.name = o'.name := congrArg ObjectKey.name hkey
    exact (Item.of_mem_objects ho).1.symm.trans (hname.trans (Item.of_mem_objects ho').1)
  · exact hpublished h ho hplace hplace'
  · exact hpublished h' ho' hplace' hplace
  · exact hdiffer rfl

theorem brought_apart (side : Side) :
    (((brought settings features zone side).flatMap (·.objects)).flatMap (places ns)).Nodup := by
  have hsubjects := plan_subjects_nodup (seat settings) settings features zone fun hmulti => by
    simp [seat, hmulti]
  rw [subjects, List.Nodup, List.pairwise_map] at hsubjects
  rw [List.flatMap_assoc, List.nodup_flatMap]
  refine ⟨fun item _ => places_nodup item, ?_⟩
  rw [brought, Plan.itemsAt, List.pairwise_map, List.pairwise_filter]
  refine hsubjects.imp_of_mem fun {step step'} hstep hstep' hdiffer hseat hseat' => ?_
  refine places_disjoint hstep hstep' fun hsame => hdiffer ?_
  obtain ⟨hkind, hname⟩ := Prod.mk.inj hsame
  simp_all

/-- A pod of a workload on a node. -/
structure Post where
  workload : Workload
  node : Node

def Post.traits (p : Post) : Traits where
  labels := p.workload.podLabels
  nodeName := some p.node.name
  hostNetwork := if p.workload.hostNetwork then some true else none

/-- The pods at which connections start, and the echo server on their node. -/
def sourceCrew (settings : Settings) (features : FeatureSet) (cluster : String) : List Post :=
  let s := Store.fresh cluster
  [⟨sameNodeWorkload settings features, s.firstNode⟩,
    ⟨clientWorkload settings clientName, s.firstNode⟩,
    ⟨secondClientWorkload settings, s.firstNode⟩]

/-- The pods that connections reach on another node, or without the agent. -/
def destinationCrew (settings : Settings) (features : FeatureSet) (cluster : String) :
    List Post :=
  let s := Store.fresh cluster
  (if settings.spansNodes then [⟨otherNodeWorkload settings features, s.secondNode⟩] else []) ++
  if features.enabled .nodeWithoutCilium then
    [⟨hostNetworkWorkload settings, s.firstNode⟩, ⟨hostNetworkWorkload settings, s.secondNode⟩,
      ⟨externalEchoWorkload settings, s.firstNode⟩]
  else []

def performanceCrew (settings : Settings) (zone cluster : String) : List Post :=
  let s := Store.fresh cluster
  (performanceWorkloads settings zone).map fun w => ⟨w, s.firstNode⟩

/-- The pods on the cluster of a side. -/
def crewOf (settings : Settings) (features : FeatureSet) (zone cluster : String) (side : Side) :
    List Post :=
  if settings.performance then
    if seat settings .source = seat settings side then performanceCrew settings zone cluster else []
  else
    (if seat settings .source = seat settings side then sourceCrew settings features cluster
      else []) ++
    if seat settings .destination = seat settings side then
      destinationCrew settings features cluster
    else []

/-- What is asked of a side has an answer for each of the two. -/
theorem exists_eq_rec (here : Side → Bool) : ∃ a b, here = @Side.rec (fun _ => Bool) a b :=
  ⟨here .source, here .destination, funext fun side => by cases side <;> rfl⟩

theorem traits_planConnectivity (settings : Settings) (features : FeatureSet) (cluster : String)
    (here : Side → Bool) :
    ((planConnectivity settings features).steps.flatMap fun step =>
      if here step.1 then step.2.objects.flatMap (traitsOf cluster) else []) =
      (if here .source then (sourceCrew settings features cluster).map Post.traits else []) ++
        if here .destination then (destinationCrew settings features cluster).map Post.traits
        else [] := by
  obtain ⟨a, b, rfl⟩ := exists_eq_rec here
  rw [planConnectivity_steps, groundwork, connections, sourceCrew, destinationCrew]
  cases settings.isMultiCluster <;> cases settings.spansNodes <;>
    cases features.enabled .nodeWithoutCilium <;> cases features.enabled .ingressController <;>
    cases a <;> cases b <;> rfl

theorem traits_planPerformance (settings : Settings) (zone cluster : String)
    (here : Side → Bool) :
    ((planPerformance settings zone).steps.flatMap fun step =>
      if here step.1 then step.2.objects.flatMap (traitsOf cluster) else []) =
      if here .source then (performanceCrew settings zone cluster).map Post.traits else [] := by
  obtain ⟨a, b, rfl⟩ := exists_eq_rec here
  rw [planPerformance_steps, performanceCrew, performanceWorkloads]
  cases settings.singleNode <;> cases a <;> cases b <;> rfl

theorem traits_brought (side : Side) :
    ((brought settings features zone side).flatMap (·.objects)).flatMap (traitsOf cluster) =
      (crewOf settings features zone cluster side).map Post.traits := by
  rw [List.flatMap_assoc, brought_flatMap]
  cases hperformance : settings.performance with
  | false =>
    have hcrew := traits_planConnectivity settings features cluster fun side' =>
      decide (seat settings side' = seat settings side)
    simp only [decide_eq_true_eq] at hcrew
    rw [plan_eq_planConnectivity hperformance, hcrew, crewOf, hperformance]
    split <;> split <;> simp
  | true =>
    have hcrew := traits_planPerformance settings zone cluster fun side' =>
      decide (seat settings side' = seat settings side)
    simp only [decide_eq_true_eq] at hcrew
    rw [plan_eq_planPerformance hperformance, hcrew, crewOf, hperformance]
    split <;> simp

theorem length_crewOf_lt (side : Side) :
    (crewOf settings features zone cluster side).length < 15 := by
  unfold crewOf performanceCrew performanceWorkloads sourceCrew destinationCrew
  split_ifs <;> simp

/-- No workload has labels of its own for its name and its kind. -/
theorem plain_of_mem_crewOf {side : Side} {p : Post}
    (h : p ∈ crewOf settings features zone cluster side) : p.workload.Plain := by
  have hperformance : ∀ p ∈ performanceCrew settings zone cluster, p.workload.Plain := by
    intro p hp
    obtain ⟨w, hw, rfl⟩ := List.mem_map.1 hp
    rcases mem_performanceWorkloads.1 hw with rfl | rfl | ⟨-, rfl⟩
    · exact .of_labels "client" _ rfl (by decide) (by decide)
    · exact .of_labels "server" _ rfl (by decide) (by decide)
    · exact .of_labels "client" _ rfl (by decide) (by decide)
  have hsource : ∀ p ∈ sourceCrew settings features cluster, p.workload.Plain := by
    simp only [sourceCrew, List.forall_mem_cons]
    exact ⟨.of_labels "other" _ rfl (by decide) (by decide), ⟨rfl, rfl⟩,
      .of_labels "other" _ rfl (by decide) (by decide), List.forall_mem_nil _⟩
  have hdestination : ∀ p ∈ destinationCrew settings features cluster, p.workload.Plain := by
    simp only [destinationCrew, List.forall_mem_append]
    constructor <;> split
    · exact List.forall_mem_singleton.2 (.of_labels "first" _ rfl (by decide) (by decide))
    · exact List.forall_mem_nil _
    · simp only [List.forall_mem_cons]
      exact ⟨.of_labels "other" _ rfl (by decide) (by decide),
        .of_labels "other" _ rfl (by decide) (by decide),
        .of_labels "external" _ rfl (by decide) (by decide), List.forall_mem_nil _⟩
    · exact List.forall_mem_nil _
  unfold crewOf at h
  grind

theorem eq_hostNetworkWorkload {side : Side} {w : Workload}
    (h : (side, .daemonSet w) ∈ (plan settings features zone).steps) :
    w = hostNetworkWorkload settings := by
  cases hperformance : settings.performance with
  | true =>
    rw [plan_eq_planPerformance hperformance, planPerformance_steps] at h
    simp at h
  | false =>
    rw [plan_eq_planConnectivity hperformance, planConnectivity_steps, List.mem_append] at h
    have hconnection := h.resolve_left not_mem_groundwork_daemonSet
    exact (mem_connections_daemonSet.1 hconnection).2.2

theorem ingress_planned {side : Side} (h : (side, .ingress) ∈ (plan settings features zone).steps) :
    settings.performance = false ∧ features.enabled .ingressController = true := by
  cases hperformance : settings.performance with
  | true =>
    rw [plan_eq_planPerformance hperformance, planPerformance_steps] at h
    simp at h
  | false =>
    rw [plan_eq_planConnectivity hperformance, planConnectivity_steps, List.mem_append] at h
    have hconnection := h.resolve_left not_mem_groundwork_ingress
    exact ⟨rfl, (mem_connections_ingress.1 hconnection).1⟩

/-- The pods for an object of a plan carry its name. -/
theorem get?_name_of_mem_crew {side : Side} {o : Object} {node : Node}
    (ho : o ∈ (brought settings features zone side).flatMap (·.objects))
    (hnode : node ∈ crew cluster o) :
    (podTemplateOf o).metadata.labels.get? "name" = some o.name := by
  obtain ⟨item, hitem, ho⟩ := List.mem_flatMap.1 ho
  obtain ⟨side', hstep, -⟩ := mem_brought.1 hitem
  cases item with
  | deployment w =>
    rcases List.mem_cons.1 ho with rfl | ho
    · cases hnode
    · obtain rfl := List.mem_singleton.1 ho
      exact (plain_of_deployment hstep).get?_name
  | daemonSet w =>
    obtain rfl := List.mem_singleton.1 ho
    obtain rfl := eq_hostNetworkWorkload hstep
    exact Workload.Plain.get?_name ⟨rfl, rfl⟩
  | _ =>
    obtain rfl := List.mem_singleton.1 ho
    cases hnode

section Hosts

variable {side : Side} {s : Store}

theorem hosts_brought
    (hs : s.Holds cluster (holdings cluster ns (brought settings features zone side)))
    (hns : ns ≠ agentSpace) : s.Hosts cluster ns (brought settings features zone side) where
  toHolds := hs
  few := by
    have hlength := congrArg List.length
      (map_traits_holdings cluster ns (brought settings features zone side))
    rw [traits_brought, List.length_map, List.length_map] at hlength
    rw [hlength]
    exact length_crewOf_lt side
  apart := by
    rw [holdings, Holdings.places_addAll]
    exact brought_apart side
  ordinary := hns

/-- The deployments that are waited for are ready. -/
theorem ready_awaited (hs : s.Hosts cluster ns (brought settings features zone side))
    {name : String} (hname : name ∈ (plan settings features zone).awaitedOn side) :
    ∃ d, s.get .deployment ⟨ns, name⟩ = .ok d ∧ d.readiness = some (.ok ()) := by
  have hplanned := (plan_awaited side).2.mem_iff.1 hname
  obtain ⟨item, hitem, rfl⟩ := List.mem_map.1 hplanned
  obtain ⟨hitem, hkind⟩ := List.mem_filter.1 hitem
  cases item with
  | deployment w =>
    obtain ⟨⟨side', item⟩, hstep, rfl⟩ := List.mem_map.1 hitem
    obtain ⟨hstep, hside⟩ := List.mem_filter.1 hstep
    have hbrought : .deployment w ∈ brought settings features zone side :=
      mem_brought.2 ⟨side', hstep, congrArg (seat settings) (by simpa using hside)⟩
    exact ⟨_, hs.get_deployment hbrought, readiness_settled ..⟩
  | _ => simp [Item.kind] at hkind

/-- A pod is named after its workload, and numbered. -/
theorem exists_title (hs : s.Hosts cluster ns (brought settings features zone side))
    {selector : String} {pod : Manifest.Pod} (hpod : pod ∈ s.listPods ns selector) :
    ∃ owner, ∃ number < 16, pod.metadata.labels.get? "name" = some owner ∧
      pod.metadata.title = podName owner number := by
  obtain ⟨hheld, -⟩ := List.mem_filter.1 ((hs.listPods_perm selector).mem_iff.1 hpod)
  obtain ⟨e, he, rfl⟩ := List.mem_map.1 hheld
  obtain ⟨k, hk⟩ := List.mem_iff_getElem?.1 he
  have hfew := hs.few
  obtain ⟨hlt, -⟩ := List.getElem?_eq_some_iff.1 hk
  obtain ⟨o, ho, node, hnode, rfl⟩ := numbered_holdings cluster ns _ k e hk
  exact ⟨o.name, k + 1, by lia, get?_name_of_mem_crew ho hnode, rfl⟩

/-- A selector that asks something of the workloads finds the pods of those for which it holds. -/
theorem crew_listed (hs : s.Hosts cluster ns (brought settings features zone side))
    {selector : String} {q : Workload → Bool}
    (hq : ∀ w : Workload, w.Plain → Store.matchesSelector w.podLabels selector = q w) :
    ((s.listPods ns selector).map traits).Perm
      (((crewOf settings features zone cluster side).filter (q ·.workload)).map Post.traits) := by
  refine (hs.map_traits_perm selector).trans (.of_eq ?_)
  rw [traits_brought, List.filter_map]
  exact congrArg _ (List.filter_congr fun p hp => hq p.workload (plain_of_mem_crewOf hp))

theorem matchesSelector_of_plain_kind (kind : WorkloadKind) {w : Workload} (hw : w.Plain) :
    Store.matchesSelector w.podLabels kind.selector = (w.kindLabel == kind.label) := by
  rw [Store.matchesSelector_kind, hw.get?_kind]
  rfl

theorem matchesSelector_of_plain_name {name : String} (hname : ',' ∉ name.toList) {w : Workload}
    (hw : w.Plain) : Store.matchesSelector w.podLabels (nameSelector name) = (w.name == name) := by
  rw [Store.matchesSelector_name _ hname, hw.get?_name]
  rfl

end Hosts

section Connectivity

variable (hperformance : settings.performance = false)

include hperformance

theorem crewOf_eq_append (side : Side) : crewOf settings features zone cluster side =
    (if seat settings .source = seat settings side then sourceCrew settings features cluster
      else []) ++
    if seat settings .destination = seat settings side then
      destinationCrew settings features cluster
    else [] :=
  if_neg (by simp [hperformance])

theorem crewOf_client : (crewOf settings features zone cluster .source).filter
    (·.workload.kindLabel == WorkloadKind.client.label) =
      [⟨clientWorkload settings clientName, (Store.fresh cluster).firstNode⟩,
        ⟨secondClientWorkload settings, (Store.fresh cluster).firstNode⟩] := by
  rw [crewOf_eq_append hperformance, if_pos rfl, sourceCrew, destinationCrew]
  split_ifs <;> rfl

theorem crewOf_sameNode : (crewOf settings features zone cluster .source).filter
    (·.workload.name == echoSameNodeName) =
      [⟨sameNodeWorkload settings features, (Store.fresh cluster).firstNode⟩] := by
  rw [crewOf_eq_append hperformance, if_pos rfl, sourceCrew, destinationCrew]
  split_ifs <;> rfl

theorem crewOf_otherNode : (crewOf settings features zone cluster .destination).filter
    (·.workload.name == echoOtherNodeName) =
      if settings.spansNodes then
        [⟨otherNodeWorkload settings features, (Store.fresh cluster).secondNode⟩]
      else [] := by
  rw [crewOf_eq_append hperformance, if_pos rfl, sourceCrew, destinationCrew]
  split_ifs <;> rfl

theorem crewOf_external : (crewOf settings features zone cluster .destination).filter
    (·.workload.name == echoExternalNodeName) =
      if features.enabled .nodeWithoutCilium then
        [⟨externalEchoWorkload settings, (Store.fresh cluster).firstNode⟩]
      else [] := by
  rw [crewOf_eq_append hperformance, if_pos rfl, sourceCrew, destinationCrew]
  split_ifs <;> rfl

theorem crewOf_hostNetwork : (crewOf settings features zone cluster .destination).filter
    (·.workload.kindLabel == WorkloadKind.hostNetwork.label) =
      if features.enabled .nodeWithoutCilium then
        [⟨hostNetworkWorkload settings, (Store.fresh cluster).firstNode⟩,
          ⟨hostNetworkWorkload settings, (Store.fresh cluster).secondNode⟩]
      else [] := by
  rw [crewOf_eq_append hperformance, if_pos rfl, sourceCrew, destinationCrew]
  split_ifs <;> rfl

theorem crewOf_echo (side : Side) : (crewOf settings features zone cluster side).filter
    (·.workload.kindLabel == WorkloadKind.echo.label) =
      (if seat settings .source = seat settings side then
        [⟨sameNodeWorkload settings features, (Store.fresh cluster).firstNode⟩] else []) ++
      if seat settings .destination = seat settings side ∧ settings.spansNodes then
        [⟨otherNodeWorkload settings features, (Store.fresh cluster).secondNode⟩]
      else [] := by
  have hsource : (sourceCrew settings features cluster).filter
      (·.workload.kindLabel == WorkloadKind.echo.label) =
        [⟨sameNodeWorkload settings features, (Store.fresh cluster).firstNode⟩] := rfl
  have hdestination : (destinationCrew settings features cluster).filter
      (·.workload.kindLabel == WorkloadKind.echo.label) =
        if settings.spansNodes then
          [⟨otherNodeWorkload settings features, (Store.fresh cluster).secondNode⟩] else [] := by
    unfold destinationCrew
    split_ifs <;> rfl
  rw [crewOf_eq_append hperformance, List.filter_append, apply_ite (List.filter _),
    apply_ite (List.filter _), hsource, hdestination, ite_and]
  rfl

end Connectivity

theorem crewOf_performance (h : settings.performance = true) :
    (crewOf settings features zone cluster .source).filter
      (·.workload.kindLabel == WorkloadKind.performance.label) =
        performanceCrew settings zone cluster := by
  rw [crewOf, if_pos h, if_pos rfl, performanceCrew, performanceWorkloads]
  cases settings.singleNode <;> rfl

/-- The name and the labels of an echo service. -/
def echoHeading (name : String) : String × Labels :=
  (name, .ofList [("kind", WorkloadKind.echo.label)])

theorem headings_planConnectivity (settings : Settings) (features : FeatureSet)
    (here : Side → Bool) :
    ((planConnectivity settings features).steps.flatMap fun step =>
      if here step.1 then step.2.objects.flatMap headingsOf else []) =
      (if here .source then
        echoHeading echoSameNodeName ::
          if settings.isMultiCluster then [echoHeading echoOtherNodeName] else []
        else []) ++
      (if here .destination ∧ settings.spansNodes then
        [echoHeading echoOtherNodeName] else []) ++
      if here .source ∧ features.enabled .ingressController then
        [heading (Store.balancerService ingressName)] else [] := by
  obtain ⟨a, b, rfl⟩ := exists_eq_rec here
  rw [planConnectivity_steps, groundwork, connections]
  cases settings.isMultiCluster <;> cases settings.spansNodes <;>
    cases features.enabled .nodeWithoutCilium <;> cases features.enabled .ingressController <;>
    cases a <;> cases b <;> rfl

theorem headings_brought (hperformance : settings.performance = false) (side : Side) :
    ((brought settings features zone side).flatMap (·.objects)).flatMap headingsOf =
      (if seat settings .source = seat settings side then
        echoHeading echoSameNodeName ::
          if settings.isMultiCluster then [echoHeading echoOtherNodeName] else []
        else []) ++
      (if seat settings .destination = seat settings side ∧ settings.spansNodes then
        [echoHeading echoOtherNodeName] else []) ++
      if seat settings .source = seat settings side ∧ features.enabled .ingressController then
        [heading (Store.balancerService ingressName)] else [] := by
  have hheadings := headings_planConnectivity settings features fun side' =>
    decide (seat settings side' = seat settings side)
  simp only [decide_eq_true_eq] at hheadings
  rw [List.flatMap_assoc, brought_flatMap, plan_eq_planConnectivity hperformance, hheadings]

/-- The names of the echo services that a plan without measurements has. -/
def echoServiceNames (settings : Settings) : List String :=
  echoSameNodeName :: if settings.spansNodes then [echoOtherNodeName] else []

/-- They are the names of the services that the plan itself asks for. -/
theorem mem_echoServiceNames (hperformance : settings.performance = false) {name : String} :
    name ∈ echoServiceNames settings ↔
      ∃ side s, (side, .service s) ∈ (plan settings features zone).steps ∧ s.name = name := by
  simp only [plan_eq_planConnectivity hperformance, planConnectivity_steps, List.mem_append,
    mem_groundwork_service, mem_connections_service]
  unfold echoServiceNames
  constructor
  · intro hname
    rcases List.mem_cons.1 hname with rfl | hname
    · exact ⟨.source, _, .inl (.inl ⟨rfl, rfl⟩), rfl⟩
    · obtain ⟨hspans, hname⟩ := List.mem_ite_nil_right.1 hname
      obtain rfl := List.mem_singleton.1 hname
      exact ⟨.destination, _, .inr ⟨hspans, rfl, rfl⟩, rfl⟩
  · rintro ⟨side, s, (⟨-, rfl⟩ | ⟨hmulti, -, rfl⟩) | ⟨hspans, -, rfl⟩, rfl⟩
    · exact List.mem_cons_self
    · rw [if_pos (spansNodes_of_isMultiCluster hmulti)]
      exact List.mem_cons_of_mem _ List.mem_cons_self
    · rw [if_pos hspans]
      exact List.mem_cons_of_mem _ List.mem_cons_self

section Listed

variable {s : Store} {side : Side} (hperformance : settings.performance = false)

include hperformance

theorem echoServices_listed (hs : s.Hosts cluster ns (brought settings features zone .source)) :
    ((s.listServices ns WorkloadKind.echo.selector).map (·.metadata.title)).Perm
      (echoServiceNames settings) := by
  have hperm := (hs.map_heading_perm WorkloadKind.echo.selector).map Prod.fst
  rw [List.map_map, headings_brought hperformance] at hperm
  refine hperm.trans (.of_eq ?_)
  simp only [Store.matchesSelector_kind]
  unfold seat echoServiceNames
  cases hmulti : settings.isMultiCluster with
  | false =>
    cases settings.spansNodes <;> cases features.enabled .ingressController <;> rfl
  | true =>
    rw [spansNodes_of_isMultiCluster hmulti]
    cases features.enabled .ingressController <;> rfl

/-- The other cluster has no echo service that the source lacks. -/
theorem echoServices_listed_subset (hs : s.Hosts cluster ns (brought settings features zone side)) :
    (s.listServices ns WorkloadKind.echo.selector).map (·.metadata.title) ⊆
      echoServiceNames settings := by
  have hperm := (hs.map_heading_perm WorkloadKind.echo.selector).map Prod.fst
  rw [List.map_map, headings_brought hperformance] at hperm
  refine List.Subset.trans hperm.subset ?_
  simp only [Store.matchesSelector_kind]
  unfold seat echoServiceNames
  cases hmulti : settings.isMultiCluster with
  | false =>
    cases settings.spansNodes <;> cases features.enabled .ingressController <;> cases side <;>
      decide
  | true =>
    rw [spansNodes_of_isMultiCluster hmulti]
    cases features.enabled .ingressController <;> cases side <;> decide

theorem ingressServices_listed
    (hs : s.Hosts cluster ns (brought settings features zone .source)) :
    ((s.listServices ns "cilium.io/ingress=true").map (·.metadata.title)).Perm
      (if features.enabled .ingressController then [ingressServiceName ingressName] else []) := by
  have hmatches (labels : Labels) : Store.matchesSelector labels "cilium.io/ingress=true" =
      (labels.get? "cilium.io/ingress" == some "true") :=
    Store.matchesSelector_term labels (by decide) (by decide) (by decide)
  have hperm := (hs.map_heading_perm "cilium.io/ingress=true").map Prod.fst
  rw [List.map_map, headings_brought hperformance] at hperm
  refine hperm.trans (.of_eq ?_)
  simp only [hmatches, true_and]
  cases features.enabled .ingressController <;> split_ifs <;> rfl

end Listed

end Reachability.Simulation
