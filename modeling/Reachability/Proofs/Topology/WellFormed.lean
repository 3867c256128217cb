import Mathlib.Data.List.Perm.Basic
import Reachability.Proofs.Topology.Plan
import Reachability.Proofs.Topology.Workloads
import Reachability.Validation

namespace Reachability.Topology

open Manifest (dnsContainer)

/-- The side on whose cluster the objects of a side stand: without a second cluster, the source. -/
def seat (settings : Settings) (side : Side) : Side :=
  if settings.isMultiCluster then side else .source

/-- Pods carry the labels that their deployment selects, and its name labels are those of the first
container, in which commands run. -/
structure SelectsItself (d : Manifest.Deployment) : Prop where
  selector : d.selector.entries ⊆ d.template.metadata.labels.entries
  container : ∃ container rest, d.template.spec.containers = container :: rest ∧
    d.template.metadata.labels.get? "name" = some container.name

/-- A service selects the pods of a deployment. -/
def Selects (s : Manifest.Service) (d : Manifest.Deployment) : Prop :=
  ∃ selector, s.selector = some selector ∧
    selector.entries ⊆ d.template.metadata.labels.entries

/-- A volume of a deployment is made from a file of a config map that comes before it. -/
def Configured (items : List Item) (w : Workload) (volume : Manifest.Volume) : Prop :=
  ∃ item configMap, [item, .deployment w].Sublist items ∧
    .configMap configMap ∈ item.objects ∧ configMap.metadata.name = some volume.configMap ∧
    configMap.data.contains volume.file = true

namespace Plan

/-- The items that a plan has on the cluster of a side, in order. -/
def itemsAt (settings : Settings) (p : Plan) (side : Side) : List Item :=
  (p.steps.filter fun step => seat settings step.1 = side).map (·.2)

/-- The names of the deployments that are planned for a side. -/
def deploymentsOn (p : Plan) (side : Side) : List String :=
  ((p.itemsOn side).filter (·.kind = .deployment)).map Item.name

/-- The names of the deployments that are waited for on a side. -/
def awaitedOn (p : Plan) : Side → List String
  | .source => p.sourceDeployments
  | .destination => p.destinationDeployments

/-- All that the objects of a plan refer to is planned, where it is looked for. -/
structure WellFormed (settings : Settings) (p : Plan) : Prop where
  /-- No two steps share their cluster, kind and name. -/
  distinct : (subjects (seat settings) p).Nodup
  /-- On every cluster that the plan uses, the namespace of the run is first. -/
  opened : ∀ step ∈ p.steps, ∃ rest,
    p.itemsAt settings (seat settings step.1) = .space settings.testNamespace :: rest
  /-- What a DNS server mounts is a volume of its pod, and the config map of the volume is planned
  on the same cluster, before the pod's deployment. -/
  mounted : ∀ side w image, .deployment w ∈ p.itemsAt settings side →
    dnsContainer image ∈ (Manifest.deployment w).template.spec.containers →
    ∀ mount ∈ (dnsContainer image).mounts,
      ∃ volume ∈ (Manifest.deployment w).template.spec.volumes, volume.name = mount.volume ∧
        Configured (p.itemsAt settings side) w volume
  /-- A pod that has to stand beside those of a deployment has that deployment on its cluster. -/
  accompanied : ∀ side w placement companion, .deployment w ∈ p.itemsAt settings side →
    (Manifest.deployment w).template.spec.placement = some placement →
    placement.requiredCompanion? = some companion →
    ∃ w', .deployment w' ∈ p.itemsAt settings side ∧ w'.name = companion
  /-- Every service finds the pods of a deployment on some cluster. -/
  selected : ∀ side s, (side, .service s) ∈ p.steps →
    ∃ side' w, (side', .deployment w) ∈ p.steps ∧
      Selects (Manifest.service s) (Manifest.deployment w)
  /-- The ingress leads to a port of a service on its cluster. -/
  routed : ∀ side, .ingress ∈ p.itemsAt settings side →
    ∃ s, .service s ∈ p.itemsAt settings side ∧
      (Manifest.service s).metadata.name = some Manifest.ingress.service ∧
      ∃ port ∈ (Manifest.service s).ports, port.number = Manifest.ingress.port
  labelled : ∀ side w, (side, .deployment w) ∈ p.steps → SelectsItself (Manifest.deployment w)
  /-- The deployments of a side are waited for, each once. -/
  awaited : ∀ side, (p.awaitedOn side).Nodup ∧ (p.awaitedOn side).Perm (p.deploymentsOn side)

theorem mem_itemsAt {settings : Settings} {p : Plan} {side : Side} {item : Item} :
    item ∈ p.itemsAt settings side ↔ ∃ side', (side', item) ∈ p.steps ∧
      seat settings side' = side := by
  simp [itemsAt]

end Plan

/-- Labels beside `name` and `kind` do not stand in the way. -/
theorem Workload.Plain.selectsItself {w : Workload} (h : w.Plain) :
    SelectsItself (Manifest.deployment w) where
  selector := by
    refine Dict.entries_subset_iff.2 fun key value hvalue => ?_
    have hlabels : (Manifest.deployment w).template.metadata.labels = w.podLabels := rfl
    have hselector : (Manifest.deployment w).selector = w.selectorLabels := rfl
    rw [hselector, Workload.get?_selectorLabels] at hvalue
    rw [hlabels]
    split_ifs at hvalue with hkind hname
    · rw [hkind, h.get?_kind, hvalue]
    · rw [hname, h.get?_name, hvalue]
  container := ⟨_, _, rfl, h.get?_name⟩

/-- The echo service of a name selects the pods of the workload of that name. -/
theorem Workload.Plain.selects {w : Workload} (h : w.Plain) (isGlobal : Bool) :
    Selects (Manifest.service (echoService w.name isGlobal)) (Manifest.deployment w) := by
  refine ⟨_, rfl, Dict.entries_subset_iff.2 fun key value hvalue => ?_⟩
  have hlabels : (Manifest.deployment w).template.metadata.labels = w.podLabels := rfl
  have hselector : (echoService w.name isGlobal).selector = .ofList [("name", w.name)] := rfl
  rw [hselector] at hvalue
  obtain ⟨rfl, rfl⟩ : key = "name" ∧ w.name = value := by
    simpa [Dict.ofList, Dict.insertAll, Dict.get?_insert] using hvalue
  rw [hlabels]
  exact h.get?_name

/-- The container of a DNS server stands beside the workload's own only where it is asked for, and
then so does the volume that it mounts. -/
theorem dnsVolume_of_dnsContainer {w : Workload} {image : String}
    (hname : w.name ≠ dnsContainerName)
    (h : dnsContainer image ∈ (Manifest.deployment w).template.spec.containers) :
    w.dnsServerImage.isSome = true ∧
      Manifest.dnsVolume ∈ (Manifest.deployment w).template.spec.volumes := by
  have hcontainers : (Manifest.deployment w).template.spec.containers =
      Manifest.workloadContainer w true :: (w.dnsServerImage.map dnsContainer).toList := rfl
  rw [hcontainers, List.mem_cons] at h
  rcases h with h | h
  · exact absurd (congrArg Manifest.Container.name h).symm hname
  · have hsome : w.dnsServerImage.isSome = true := by
      cases himage : w.dnsServerImage with
      | none => simp [himage] at h
      | some _ => rfl
    exact ⟨hsome, by simp [Manifest.deployment, Manifest.podTemplate, hsome]⟩

variable {settings : Settings} {features : FeatureSet} {zone : String}

theorem plan_eq_planPerformance (h : settings.performance = true) :
    plan settings features zone = planPerformance settings zone :=
  if_pos h

theorem plan_eq_planConnectivity (h : settings.performance = false) :
    plan settings features zone = planConnectivity settings features :=
  if_neg (by simp [h])

theorem spansNodes_of_isMultiCluster (h : settings.isMultiCluster = true) :
    settings.spansNodes = true := by
  simp [Settings.spansNodes, h]

/-- What is laid first on the cluster of a side, its namespace before all. -/
theorem groundwork_opens (settings : Settings) (side : Side) : ∃ rest,
    ((groundwork settings).filter fun step => seat settings step.1 = seat settings side).map (·.2) =
      .space settings.testNamespace :: rest ∧ Item.dnsConfigMap ∈ rest := by
  cases hmulti : settings.isMultiCluster <;> cases side <;> simp [groundwork, seat, hmulti]

theorem itemsAt_planConnectivity (settings : Settings) (features : FeatureSet) (side : Side) :
    (planConnectivity settings features).itemsAt settings (seat settings side) =
      ((groundwork settings).filter fun step =>
        seat settings step.1 = seat settings side).map (·.2) ++
      ((connections settings features).filter fun step =>
        seat settings step.1 = seat settings side).map (·.2) := by
  rw [Plan.itemsAt, planConnectivity_steps, List.filter_append, List.map_append]

theorem planConnectivity_opened (side : Side) : ∃ rest,
    (planConnectivity settings features).itemsAt settings (seat settings side) =
      .space settings.testNamespace :: rest := by
  obtain ⟨rest, hground, -⟩ := groundwork_opens settings side
  rw [itemsAt_planConnectivity, hground]
  exact ⟨_, rfl⟩

/-- The config map of the DNS servers comes before every deployment on its cluster. -/
theorem planConnectivity_configured {side : Side} {w : Workload}
    (h : .deployment w ∈ (planConnectivity settings features).itemsAt settings side) :
    [.dnsConfigMap, .deployment w].Sublist
      ((planConnectivity settings features).itemsAt settings side) := by
  obtain ⟨side, hw, rfl⟩ := Plan.mem_itemsAt.1 h
  obtain ⟨rest, hground, hconfigMap⟩ := groundwork_opens settings side
  rw [planConnectivity_steps, List.mem_append] at hw
  have hw : (side, .deployment w) ∈ connections settings features :=
    hw.resolve_left not_mem_groundwork_deployment
  rw [itemsAt_planConnectivity]
  rw [← List.singleton_append]
  refine List.Sublist.append (List.singleton_sublist.2 ?_) (List.singleton_sublist.2 ?_)
  · rw [hground]
    exact List.mem_cons_of_mem _ hconfigMap
  · exact List.mem_map.2 ⟨_, List.mem_filter.2 ⟨hw, by simp⟩, rfl⟩

/-- A performance run uses the source alone. -/
theorem planPerformance_side {side : Side} {item : Item}
    (h : (side, item) ∈ (planPerformance settings zone).steps) : side = .source := by
  rw [planPerformance_steps] at h
  rcases List.mem_cons.1 h with h | h
  · exact congrArg Prod.fst h
  · obtain ⟨w, -, hw⟩ := List.mem_map.1 h
    exact (congrArg Prod.fst hw).symm

theorem plan_opened {side : Side} {item : Item}
    (h : (side, item) ∈ (plan settings features zone).steps) : ∃ rest,
    (plan settings features zone).itemsAt settings (seat settings side) =
      .space settings.testNamespace :: rest := by
  cases hperformance : settings.performance with
  | false =>
    rw [plan_eq_planConnectivity hperformance]
    exact planConnectivity_opened side
  | true =>
    rw [plan_eq_planPerformance hperformance] at h ⊢
    rw [planPerformance_side h, Plan.itemsAt, planPerformance_steps]
    rw [List.filter_cons_of_pos (by simp)]
    exact ⟨_, rfl⟩

theorem performanceNames_ne_dnsContainerName (settings : Settings) :
    (performanceNames settings).client ≠ dnsContainerName ∧
      (performanceNames settings).server ≠ dnsContainerName ∧
      (performanceNames settings).clientAcross ≠ dnsContainerName := by
  unfold performanceNames
  cases settings.performanceHostNetwork <;> decide

theorem plan_mounted {side : Side} {w : Workload} {image : String}
    (h : .deployment w ∈ (plan settings features zone).itemsAt settings side)
    (hcontainer : dnsContainer image ∈ (Manifest.deployment w).template.spec.containers) :
    ∀ mount ∈ (dnsContainer image).mounts,
      ∃ volume ∈ (Manifest.deployment w).template.spec.volumes, volume.name = mount.volume ∧
        Configured ((plan settings features zone).itemsAt settings side) w volume := by
  obtain ⟨side', hw, -⟩ := Plan.mem_itemsAt.1 h
  have hname : w.name ≠ dnsContainerName := by
    refine forall_deployment (P := fun _ w => w.name ≠ dnsContainerName) ?_ ?_ ?_ ?_ ?_ ?_ ?_ ?_ hw
    · exact (performanceNames_ne_dnsContainerName settings).1
    · exact (performanceNames_ne_dnsContainerName settings).2.1
    · exact (performanceNames_ne_dnsContainerName settings).2.2
    all_goals exact of_decide_eq_true rfl
  obtain ⟨hserver, hvolume⟩ := dnsVolume_of_dnsContainer hname hcontainer
  intro mount hmount
  obtain rfl : mount = _ := List.mem_singleton.1 hmount
  refine ⟨Manifest.dnsVolume, hvolume, rfl, .dnsConfigMap, _, ?_, List.mem_singleton.2 rfl, rfl,
    by decide⟩
  cases hperformance : settings.performance with
  | false =>
    rw [plan_eq_planConnectivity hperformance] at h ⊢
    exact planConnectivity_configured h
  | true =>
    rw [plan_eq_planPerformance hperformance] at hw
    obtain ⟨-, hw⟩ := mem_planPerformance_deployment.1 hw
    rcases mem_performanceWorkloads.1 hw with rfl | rfl | ⟨-, rfl⟩ <;> cases hserver

theorem plan_accompanied {side : Side} {w : Workload} {placement : Placement} {companion : String}
    (h : .deployment w ∈ (plan settings features zone).itemsAt settings side)
    (hplacement : (Manifest.deployment w).template.spec.placement = some placement)
    (hcompanion : placement.requiredCompanion? = some companion) :
    ∃ w', .deployment w' ∈ (plan settings features zone).itemsAt settings side ∧
      w'.name = companion := by
  obtain ⟨side, hw, rfl⟩ := Plan.mem_itemsAt.1 h
  -- The companion is planned for the same side.
  suffices hside : ∃ w', (side, .deployment w') ∈ (plan settings features zone).steps ∧
      w'.name = companion by
    obtain ⟨w', hw', hname⟩ := hside
    exact ⟨w', Plan.mem_itemsAt.2 ⟨side, hw', rfl⟩, hname⟩
  have hrequired : w.placement.bind Placement.requiredCompanion? = some companion := by
    have heq : w.placement = some placement := hplacement
    rw [heq]
    exact hcompanion
  cases hperformance : settings.performance with
  | false =>
    rw [plan_eq_planConnectivity hperformance, planConnectivity_steps] at hw ⊢
    have hclient : (Side.source, Item.deployment (clientWorkload settings clientName)) ∈
        groundwork settings ++ connections settings features :=
      List.mem_append_right _ (mem_connections_deployment.2 (.inr (.inl ⟨rfl, rfl⟩)))
    have hw := (List.mem_append.1 hw).resolve_left not_mem_groundwork_deployment
    rcases mem_connections_deployment.1 hw with
      ⟨rfl, rfl⟩ | ⟨rfl, rfl⟩ | ⟨rfl, rfl⟩ | ⟨-, rfl, rfl⟩ | ⟨-, rfl, rfl⟩
    · exact ⟨_, hclient, Option.some.inj hrequired⟩
    · cases hrequired
    · exact ⟨_, hclient, Option.some.inj hrequired⟩
    · cases hrequired
    · cases hrequired
  | true =>
    rw [plan_eq_planPerformance hperformance] at hw ⊢
    obtain ⟨rfl, hmem⟩ := mem_planPerformance_deployment.1 hw
    rcases mem_performanceWorkloads.1 hmem with rfl | rfl | ⟨-, rfl⟩
    · cases hrequired
    · refine ⟨performanceClient settings zone, ?_, Option.some.inj hrequired⟩
      exact mem_planPerformance_deployment.2 ⟨rfl, mem_performanceWorkloads.2 (.inl rfl)⟩
    · cases hrequired

theorem plan_selected {side : Side} {s : ServiceDescription}
    (h : (side, .service s) ∈ (plan settings features zone).steps) :
    ∃ side' w, (side', .deployment w) ∈ (plan settings features zone).steps ∧
      Selects (Manifest.service s) (Manifest.deployment w) := by
  cases hperformance : settings.performance with
  | false =>
    rw [plan_eq_planConnectivity hperformance] at h
    have hselects (side' : Side) (w : Workload) (isGlobal : Bool)
        (hw : (side', .deployment w) ∈ connections settings features) :
        ∃ side' w', (side', .deployment w') ∈ (plan settings features zone).steps ∧
          Selects (Manifest.service (echoService w.name isGlobal)) (Manifest.deployment w') := by
      have hplan : (side', .deployment w) ∈ (plan settings features zone).steps := by
        rw [plan_eq_planConnectivity hperformance, planConnectivity_steps]
        exact List.mem_append_right _ hw
      exact ⟨side', w, hplan, (plain_of_deployment hplan).selects isGlobal⟩
    have hsame := hselects .source (sameNodeWorkload settings features)
    have hother := hselects .destination (otherNodeWorkload settings features)
    rw [planConnectivity_steps, List.mem_append, mem_groundwork_service,
      mem_connections_service] at h
    rcases h with (⟨-, rfl⟩ | ⟨hmulti, -, rfl⟩) | ⟨hspans, -, rfl⟩
    · exact hsame _ (mem_connections_deployment.2 (.inl ⟨rfl, rfl⟩))
    · have hspans := spansNodes_of_isMultiCluster hmulti
      exact hother _ (mem_connections_deployment.2 (.inr (.inr (.inr (.inl ⟨hspans, rfl, rfl⟩)))))
    · exact hother _ (mem_connections_deployment.2 (.inr (.inr (.inr (.inl ⟨hspans, rfl, rfl⟩)))))
  | true =>
    rw [plan_eq_planPerformance hperformance, planPerformance_steps] at h
    simp at h

theorem plan_routed {side : Side}
    (h : .ingress ∈ (plan settings features zone).itemsAt settings side) :
    ∃ s, .service s ∈ (plan settings features zone).itemsAt settings side ∧
      (Manifest.service s).metadata.name = some Manifest.ingress.service ∧
      ∃ port ∈ (Manifest.service s).ports, port.number = Manifest.ingress.port := by
  obtain ⟨side, hside, rfl⟩ := Plan.mem_itemsAt.1 h
  cases hperformance : settings.performance with
  | false =>
    rw [plan_eq_planConnectivity hperformance] at hside ⊢
    rw [planConnectivity_steps] at hside
    obtain rfl : side = .source := by
      simp [groundwork, connections] at hside
      exact hside.2
    refine ⟨echoService echoSameNodeName false, Plan.mem_itemsAt.2 ⟨.source, ?_, rfl⟩, rfl, _,
      List.mem_singleton.2 rfl, rfl⟩
    rw [planConnectivity_steps]
    exact List.mem_append_left _ (mem_groundwork_service.2 (.inl ⟨rfl, rfl⟩))
  | true =>
    rw [plan_eq_planPerformance hperformance, planPerformance_steps] at hside
    simp at hside

theorem planPerformance_awaited (side : Side) :
    ((planPerformance settings zone).awaitedOn side).Nodup ∧
      ((planPerformance settings zone).awaitedOn side).Perm
        ((planPerformance settings zone).deploymentsOn side) := by
  cases side with
  | source =>
    have hdeployments : (planPerformance settings zone).deploymentsOn .source =
        (performanceWorkloads settings zone).map (·.name) := by
      cases hsingle : settings.singleNode <;>
        simp [Plan.deploymentsOn, Plan.itemsOn, planPerformance_steps, performanceWorkloads,
          hsingle, Item.kind, Item.name]
    rw [hdeployments]
    exact ⟨performanceWorkloads_names_nodup settings zone, .refl _⟩
  | destination => simp [Plan.awaitedOn, Plan.deploymentsOn, Plan.itemsOn, planPerformance]

theorem planConnectivity_deploymentsOn (side : Side) :
    (planConnectivity settings features).deploymentsOn side =
      match side with
      | .source => [echoSameNodeName, clientName, secondClientName]
      | .destination =>
        (if settings.spansNodes then [echoOtherNodeName] else []) ++
        (if features.enabled .nodeWithoutCilium then [echoExternalNodeName] else []) := by
  simp only [Plan.deploymentsOn, Plan.itemsOn, planConnectivity_steps, groundwork, connections]
  cases settings.isMultiCluster <;> cases settings.spansNodes <;>
    cases features.enabled .nodeWithoutCilium <;> cases features.enabled .ingressController <;>
    cases side <;> simp [Item.kind, Item.name]

theorem planConnectivity_awaited (side : Side) :
    ((planConnectivity settings features).awaitedOn side).Nodup ∧
      ((planConnectivity settings features).awaitedOn side).Perm
        ((planConnectivity settings features).deploymentsOn side) := by
  rw [planConnectivity_deploymentsOn]
  cases side with
  | source =>
    have hawaited : (planConnectivity settings features).awaitedOn .source =
        [clientName, secondClientName, echoSameNodeName] := rfl
    have hperm : [clientName, secondClientName, echoSameNodeName].Perm
        [echoSameNodeName, clientName, secondClientName] := by decide
    rw [hawaited]
    exact ⟨by decide, hperm⟩
  | destination =>
    refine ⟨?_, .refl _⟩
    simp only [Plan.awaitedOn, planConnectivity]
    cases settings.spansNodes <;> cases features.enabled .nodeWithoutCilium <;> decide

theorem plan_awaited (side : Side) :
    ((plan settings features zone).awaitedOn side).Nodup ∧
      ((plan settings features zone).awaitedOn side).Perm
        ((plan settings features zone).deploymentsOn side) := by
  cases hperformance : settings.performance with
  | false =>
    rw [plan_eq_planConnectivity hperformance]
    exact planConnectivity_awaited side
  | true =>
    rw [plan_eq_planPerformance hperformance]
    exact planPerformance_awaited side

/-- The zone decides where workloads should meet, not which ones there are. -/
theorem plan_awaitedOn_zone (side : Side) :
    (plan settings features zone).awaitedOn side = (plan settings features "").awaitedOn side := by
  cases hperformance : settings.performance with
  | false => rw [plan_eq_planConnectivity hperformance, plan_eq_planConnectivity hperformance]
  | true =>
    rw [plan_eq_planPerformance hperformance, plan_eq_planPerformance hperformance]
    cases side with
    | source =>
      simp [Plan.awaitedOn, planPerformance_sourceDeployments, performanceWorkloads_names]
    | destination => rfl

/-- Every plan is well formed, and the deployments that a validation waits for, whatever the zone of
the plan that was provisioned, are those of that plan. -/
theorem plan_wellFormed (settings : Settings) (features : FeatureSet) (zone : String) :
    (plan settings features zone).WellFormed settings ∧
      ∀ clients : Clients, validate clients settings features = (do
        Survey.agentPods clients settings
        Survey.deployments clients.source settings
          ((plan settings features zone).awaitedOn .source)
        Survey.deployments clients.destination settings
          ((plan settings features zone).awaitedOn .destination)
        if settings.performance then Survey.performancePods clients settings
        else Survey.connectivity clients settings features) := by
  refine ⟨{
    distinct := plan_subjects_nodup _ settings features zone fun hmulti => by simp [seat, hmulti]
    opened := fun step hstep => plan_opened hstep
    mounted := fun side w image => plan_mounted
    accompanied := fun side w placement companion => plan_accompanied
    selected := fun side s => plan_selected
    routed := fun side => plan_routed
    labelled := fun side w hw => (plain_of_deployment hw).selectsItself
    awaited := plan_awaited }, fun clients => ?_⟩
  rw [plan_awaitedOn_zone .source, plan_awaitedOn_zone .destination]
  rfl

end Reachability.Topology
