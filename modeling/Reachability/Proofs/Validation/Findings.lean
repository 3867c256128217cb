import Reachability.Proofs.Validation.Sightings

namespace Reachability

open Reachability.Topology
open Simulation
open Survey (addPods addServices found recordPerformance)

variable {clients : Clients} {stores : Side → Store} {machines : List Machine}
  {settings : Settings} {features : FeatureSet} {zone ns : String}

/-- What stands under the name of each node is the pod on its network. -/
def hostNetworkSightings (cluster : Cluster) (settings : Settings) (ns : String) :
    List (String × Sighting) :=
  [cluster.firstNode, cluster.secondNode].map fun node =>
    (node.name, Post.sighting cluster ns ⟨hostNetworkWorkload settings, node⟩)

/-- What a run discovers that does not measure: the pods of the workloads of its plan by role, and
its services. -/
structure Inventory.HoldsConnectivity (clients : Clients) (settings : Settings)
    (features : FeatureSet) (i : Inventory) : Prop where
  clientPods : (i.clientPods.values.map Pod.sighting).Perm
    [Post.sighting clients.source settings.testNamespace
        ⟨clientWorkload settings clientName, clients.source.firstNode⟩,
      Post.sighting clients.source settings.testNamespace
        ⟨secondClientWorkload settings, clients.source.firstNode⟩]
  echoPods : (i.echoPods.values.map Pod.sighting).Perm
    ((echoSightings clients settings features settings.testNamespace).map Sighting.echo)
  apart {same other : Pod} (hsame : same ∈ i.echoPodsOf echoSameNodeName)
    (hother : other ∈ i.echoPodsOf echoOtherNodeName) :
    (same.cluster, same.nodeName) ≠ (other.cluster, other.nodeName)
  externalEchoPods : (i.externalEchoPods.values.map Pod.sighting).Perm
    (if features.enabled .nodeWithoutCilium then
      [(Post.sighting clients.destination settings.testNamespace
        ⟨externalEchoWorkload settings, clients.destination.firstNode⟩).echo]
    else [])
  hostNetworkPods : (i.hostNetworkPods.entries.map fun e => (e.1, e.2.sighting)).Perm
    (if features.enabled .nodeWithoutCilium then
      hostNetworkSightings clients.destination settings settings.testNamespace else [])
  echoServices (name : String) : i.echoServices.contains name = true ↔
    ∃ side s, (side, .service s) ∈ (simulatedPlan settings features).steps ∧ s.name = name
  titles {name : String} {s : Manifest.Service} (h : i.echoServices.get? name = some s) :
    s.metadata.title = name
  ingressServices (name : String) : i.ingressServices.contains name = true ↔
    features.enabled .ingressController = true ∧ name = ingressServiceName ingressName
  nothingElse : i.performanceClients = ∅ ∧ i.performanceServers = ∅ ∧ i.externalWorkloads = ∅

/-- The echo servers of the two deployments are on different nodes. -/
theorem echoPods_apart {i : Inventory}
    (hi : (i.echoPods.values.map Pod.sighting).Perm
      ((echoSightings clients settings features ns).map Sighting.echo)) {same other : Pod}
    (hsame : same ∈ i.echoPodsOf echoSameNodeName)
    (hother : other ∈ i.echoPodsOf echoOtherNodeName) :
    (same.cluster, same.nodeName) ≠ (other.cluster, other.nodeName) := by
  have hseen {deployment : String} {pod : Pod} (hpod : pod ∈ i.echoPodsOf deployment) :
      (deployment = echoSameNodeName ∧ pod.cluster = clients.source ∧
        pod.nodeName = some clients.source.firstNode.name) ∨
      (deployment = echoOtherNodeName ∧ pod.cluster = clients.destination ∧
        pod.nodeName = some clients.destination.secondNode.name) := by
    obtain ⟨hvalue, hlabel⟩ := List.mem_filter.1 hpod
    have hlabel : pod.label? "name" = some deployment := beq_iff_eq.1 hlabel
    obtain ⟨s, hs, heq⟩ := List.mem_map.1 (hi.mem_iff.1 (List.mem_map_of_mem hvalue))
    have hname := (congrArg (·.labels.get? "name") heq).trans hlabel
    have hcluster : s.cluster = pod.cluster := congrArg Sighting.cluster heq
    have hnode : s.node = pod.nodeName := congrArg Sighting.node heq
    rw [← hcluster, ← hnode]
    rcases List.mem_cons.1 hs with rfl | hs
    · exact .inl ⟨Option.some.inj (hname.symm.trans (get?_name_sameNode ..)), rfl, rfl⟩
    · obtain rfl := List.mem_singleton.1 (List.mem_ite_nil_right.1 hs).2
      exact .inr ⟨Option.some.inj (hname.symm.trans (get?_name_otherNode ..)), rfl, rfl⟩
  have hdiffer : echoSameNodeName ≠ echoOtherNodeName := by decide
  obtain ⟨-, hcluster, hnode⟩ := (hseen hsame).resolve_right fun h => hdiffer h.1
  obtain ⟨-, hcluster', hnode'⟩ := (hseen hother).resolve_left fun h => hdiffer h.1.symm
  rw [hcluster, hcluster', hnode, hnode']
  intro heq
  obtain ⟨hclusters, hnodes⟩ := Prod.mk.inj heq
  rw [hclusters] at hnodes
  exact clients.destination.nodes_apart (Option.some.inj hnodes)

theorem map_sighting_withEndpoint (pods : List Pod) :
    (pods.map (·.withEndpoint "http" echoPort)).map Pod.sighting =
      (pods.map Pod.sighting).map Sighting.echo := by
  rw [List.map_map, List.map_map]
  rfl

section Connectivity

variable (h : Furnished clients stores settings.testNamespace
    (brought settings features (simulatedZone settings)) machines)
  (hperformance : settings.performance = false) (hclients : clients.Suit settings)

include h hperformance

/-- The pods on the networks of their nodes are found by node. -/
theorem hostNetworkPods_found (expected : Dict String Manifest.Service) :
    ((found clients stores settings features expected).hostNetworkPods.entries.map fun e =>
      (e.1, e.2.sighting)).Perm
      (if features.enabled .nodeWithoutCilium then
        hostNetworkSightings clients.destination settings settings.testNamespace else []) := by
  have hposts : ((if features.enabled .nodeWithoutCilium then
      [⟨hostNetworkWorkload settings, clients.destination.firstNode⟩,
        ⟨hostNetworkWorkload settings, clients.destination.secondNode⟩] else []).map
          (Post.sighting clients.destination settings.testNamespace)).map
            (fun s => (s.node.getD "", s)) =
      if features.enabled .nodeWithoutCilium then
        hostNetworkSightings clients.destination settings settings.testNamespace else [] := by
    split <;> rfl
  have hpods := ((hostNetwork_seen h hperformance).map fun s => (s.node.getD "", s)).trans
    (.of_eq hposts)
  rw [List.map_map] at hpods
  refine ((Dict.entries_ofList_perm ?_).map _).trans ?_
  · have hkeys := hpods.map Prod.fst
    rw [List.map_map] at hkeys ⊢
    refine hkeys.nodup_iff.2 ?_
    split
    · simp [hostNetworkSightings, clients.destination.nodes_apart]
    · exact List.nodup_nil
  · rw [List.map_map]
    exact hpods

theorem externalEchoPods_found (expected : Dict String Manifest.Service) :
    ((found clients stores settings features expected).externalEchoPods.values.map
      Pod.sighting).Perm
      (if features.enabled .nodeWithoutCilium then
        [(Post.sighting clients.destination settings.testNamespace
          ⟨externalEchoWorkload settings, clients.destination.firstNode⟩).echo]
      else []) := by
  have hseen := externalEchoes_seen h hperformance
  unfold found
  split
  next henabled =>
    rw [if_pos henabled] at hseen
    refine ((Survey.values_addPods_perm ?_).map _).trans ?_
    · rw [List.map_map]
      exact h.names_nodup _ _
    · rw [map_sighting_withEndpoint]
      exact hseen.map _
  next => exact .refl _

/-- Besides the service that a new ingress is expected to have, that is the one to be listed. -/
theorem contains_ingressServices_found {expected : Dict String Manifest.Service}
    (hexpected : ∀ name, expected.contains name = true →
      name = ingressServiceName ingressName ∧ features.enabled .ingressController = true)
    (name : String) :
    (found clients stores settings features expected).ingressServices.contains name = true ↔
      features.enabled .ingressController = true ∧ name = ingressServiceName ingressName := by
  have hlisted := ingressServices_listed hperformance (h.hosts .source)
  have hfound : (found clients stores settings features expected).ingressServices =
      if features.enabled .ingressController then
        addServices false expected
          ((stores .source).listServices settings.testNamespace "cilium.io/ingress=true")
      else expected := rfl
  rw [hfound]
  cases henabled : features.enabled .ingressController with
  | true =>
    rw [henabled, if_pos rfl] at hlisted
    rw [if_pos rfl, Survey.contains_addServices, hlisted.mem_iff, List.mem_singleton,
      and_iff_right rfl, or_iff_right_of_imp]
    exact fun hname => (hexpected name hname).1
  | false =>
    refine iff_of_false (fun hname => ?_) fun hname => Bool.false_ne_true hname.1
    exact Bool.false_ne_true (henabled.symm.trans (hexpected name hname).2)

include hclients

theorem echoPods_found (expected : Dict String Manifest.Service) :
    ((found clients stores settings features expected).echoPods.values.map Pod.sighting).Perm
      ((echoSightings clients settings features settings.testNamespace).map Sighting.echo) := by
  refine ((echoPods_values_perm h hperformance hclients).map _).trans ?_
  rw [map_sighting_withEndpoint]
  exact (allEchoes_seen h hperformance hclients).map _

theorem contains_echoServices_found (expected : Dict String Manifest.Service) (name : String) :
    (found clients stores settings features expected).echoServices.contains name = true ↔
      ∃ side s, (side, .service s) ∈ (simulatedPlan settings features).steps ∧ s.name = name := by
  have hperm := (servicesKept_entries_perm h hperformance hclients).map Prod.fst
  rw [List.map_map] at hperm
  refine Dict.mem_keys_iff.symm.trans (.trans ?_ (mem_echoServiceNames hperformance))
  exact (hperm.trans (echoServices_listed hperformance (h.hosts .source))).mem_iff

theorem holdsConnectivity_found {expected : Dict String Manifest.Service}
    (hexpected : ∀ name, expected.contains name = true →
      name = ingressServiceName ingressName ∧ features.enabled .ingressController = true) :
    (found clients stores settings features expected).HoldsConnectivity clients settings
      features where
  clientPods := ((Survey.values_addPods_perm (h.names_nodup _ _)).map _).trans
    (clients_seen h hperformance)
  echoPods := echoPods_found h hperformance hclients expected
  apart := echoPods_apart (echoPods_found h hperformance hclients expected)
  externalEchoPods := externalEchoPods_found h hperformance expected
  hostNetworkPods := hostNetworkPods_found h hperformance expected
  echoServices := contains_echoServices_found h hperformance hclients expected
  titles {name s} hs := by
    have hperm := servicesKept_entries_perm h hperformance hclients
    obtain ⟨s', -, heq⟩ := List.mem_map.1 (hperm.mem_iff.1 (Dict.mem_entries_iff.2 hs))
    obtain ⟨rfl, rfl⟩ := Prod.mk.inj heq
    rfl
  ingressServices := contains_ingressServices_found h hperformance hexpected
  nothingElse := ⟨rfl, rfl, rfl⟩

end Connectivity

/-- What a run discovers that measures: one server, and one or two clients. -/
structure Inventory.HoldsPerformance (clients : Clients) (settings : Settings) (i : Inventory) :
    Prop where
  servers : (i.performanceServers.values.map Pod.sighting).Perm
    [{ Post.sighting clients.source settings.testNamespace
        ⟨performanceServer settings (simulatedZone settings), clients.source.firstNode⟩ with
      port := some performancePort }]
  clients : (i.performanceClients.values.map Pod.sighting).Perm
    ((performanceClient settings (simulatedZone settings) ::
      if settings.singleNode then []
      else [performanceClientAcross settings (simulatedZone settings)]).map fun w =>
        Post.sighting clients.source settings.testNamespace ⟨w, clients.source.firstNode⟩)
  nothingElse : i =
    { agentPods := i.agentPods
      performanceServers := i.performanceServers
      performanceClients := i.performanceClients }

/-- Servers are told from clients by a label. -/
def Sighting.isServer (s : Sighting) : Bool := (s.labels.get? "server").isSome

theorem foldl_recordPerformance (pods : List Pod) (i : Inventory) :
    pods.foldl recordPerformance i =
      { i with
        performanceServers := addPods i.performanceServers
          ((pods.filter (·.sighting.isServer)).map (·.withPort performancePort))
        performanceClients := addPods i.performanceClients
          (pods.filter (!·.sighting.isServer)) } := by
  induction pods generalizing i with
  | nil => rfl
  | cons pod pods ih =>
    have hserver : pod.sighting.isServer = (pod.label? "server").isSome := rfl
    rw [List.foldl_cons, ih, recordPerformance, ← hserver]
    cases hlabel : pod.sighting.isServer <;> simp [hlabel, addPods]

theorem isServer_sighting (cluster : Cluster) (ns role : String) {w : Workload}
    (hw : w.labels = .ofList [(role, "role")]) (node : Node) :
    (Post.sighting cluster ns ⟨w, node⟩).isServer = (role == "server") := by
  rw [Sighting.isServer, Post.sighting, Workload.get?_podLabels, hw,
    Workload.get?_selectorLabels]
  by_cases h : role = "server"
  · subst h
    rfl
  · simp [Dict.ofList, Dict.insertAll, Dict.get?_insert, h, Ne.symm h]

theorem isServer_client (cluster : Cluster) (ns : String) (node : Node) :
    (Post.sighting cluster ns ⟨performanceClient settings zone, node⟩).isServer = false :=
  isServer_sighting cluster ns "client" rfl node

theorem isServer_server (cluster : Cluster) (ns : String) (node : Node) :
    (Post.sighting cluster ns ⟨performanceServer settings zone, node⟩).isServer = true :=
  isServer_sighting cluster ns "server" rfl node

theorem isServer_clientAcross (cluster : Cluster) (ns : String) (node : Node) :
    (Post.sighting cluster ns ⟨performanceClientAcross settings zone, node⟩).isServer = false :=
  isServer_sighting cluster ns "client" rfl node

section Performance

variable (h : Furnished clients stores settings.testNamespace
    (brought settings features (simulatedZone settings)) machines)
  (hperformance : settings.performance = true)

include h hperformance

theorem performance_seen :
    ((listedOn clients stores settings.testNamespace WorkloadKind.performance.selector
      .source).map Pod.sighting).Perm
      ((performanceWorkloads settings (simulatedZone settings)).map fun w =>
        Post.sighting clients.source settings.testNamespace
          ⟨w, clients.source.firstNode⟩) := by
  have hcrew : (crewOf settings features (simulatedZone settings) clients.source.name
      .source).filter (·.workload.kindLabel == WorkloadKind.performance.label) =
      (performanceWorkloads settings (simulatedZone settings)).map fun w =>
        ⟨w, clients.source.firstNode⟩ :=
    crewOf_performance hperformance
  refine (sightings_perm h (fun _ => matchesSelector_of_plain_kind .performance) .source).trans ?_
  refine .of_eq ((congrArg _ hcrew).trans ?_)
  exact List.map_map

theorem servers_seen :
    (((listedOn clients stores settings.testNamespace WorkloadKind.performance.selector
      .source).filter (·.sighting.isServer)).map Pod.sighting).Perm
      [Post.sighting clients.source settings.testNamespace
        ⟨performanceServer settings (simulatedZone settings), clients.source.firstNode⟩] := by
  have hperm := (performance_seen h hperformance).filter Sighting.isServer
  rw [List.filter_map] at hperm
  refine hperm.trans (.of_eq ?_)
  rw [performanceWorkloads]
  split <;> simp [isServer_client, isServer_server, isServer_clientAcross]

theorem clients_measured :
    (((listedOn clients stores settings.testNamespace WorkloadKind.performance.selector
      .source).filter (!·.sighting.isServer)).map Pod.sighting).Perm
      ((performanceClient settings (simulatedZone settings) ::
        if settings.singleNode then []
        else [performanceClientAcross settings (simulatedZone settings)]).map fun w =>
          Post.sighting clients.source settings.testNamespace ⟨w, clients.source.firstNode⟩) := by
  have hperm := (performance_seen h hperformance).filter (!·.isServer)
  rw [List.filter_map] at hperm
  refine hperm.trans (.of_eq ?_)
  rw [performanceWorkloads]
  split <;> simp [isServer_client, isServer_server, isServer_clientAcross]

theorem holdsPerformance_found {i : Inventory} (hi : i = { agentPods := i.agentPods }) :
    (((listedOn clients stores settings.testNamespace WorkloadKind.performance.selector
      .source).filter (·.hostNetwork == settings.performanceHostNetwork)).foldl
        recordPerformance i).HoldsPerformance clients settings := by
  have hnetworks : ∀ pod ∈ listedOn clients stores settings.testNamespace
      WorkloadKind.performance.selector .source,
        (pod.hostNetwork == settings.performanceHostNetwork) = true := by
    intro pod hpod
    have hseen := (performance_seen h hperformance).mem_iff.1 (List.mem_map_of_mem hpod)
    obtain ⟨w, hw, heq⟩ := List.mem_map.1 hseen
    have hnetwork : w.hostNetwork = pod.hostNetwork := congrArg Sighting.hostNetwork heq
    rw [beq_iff_eq, ← hnetwork]
    rcases mem_performanceWorkloads.1 hw with rfl | rfl | ⟨-, rfl⟩ <;> rfl
  have hnames := h.names_nodup WorkloadKind.performance.selector .source
  rw [List.filter_eq_self.2 hnetworks, foldl_recordPerformance, hi]
  refine ⟨?_, ?_, rfl⟩
  · refine ((Survey.values_addPods_perm ?_).map _).trans ?_
    · rw [List.map_map]
      exact hnames.sublist (List.filter_sublist.map _)
    · rw [List.map_map]
      have hseen := (servers_seen h hperformance).map fun s =>
        { s with port := some performancePort }
      rwa [List.map_map] at hseen
  · refine ((Survey.values_addPods_perm ?_).map _).trans (clients_measured h hperformance)
    exact hnames.sublist (List.filter_sublist.map _)

end Performance

end Reachability
