import Reachability.Proofs.Dict
import Reachability.Topology.Plan

namespace Reachability.Topology

namespace Workload

theorem get?_podLabels (w : Workload) (key : String) :
    w.podLabels.get? key = (w.labels.get? key).or (w.selectorLabels.get? key) :=
  Dict.get?_insertAll_entries _ _ _

theorem get?_selectorLabels (w : Workload) (key : String) :
    w.selectorLabels.get? key =
      if key = "kind" then some w.kindLabel else if key = "name" then some w.name else none := by
  simp [selectorLabels, Dict.ofList, Dict.insertAll, Dict.get?_insert]

/-- The workload's own labels leave `name` and `kind` alone. -/
structure Plain (w : Workload) : Prop where
  name : w.labels.get? "name" = none
  kind : w.labels.get? "kind" = none

theorem Plain.of_labels {w : Workload} (key value : String)
    (h : w.labels = .ofList [(key, value)]) (hname : key ≠ "name") (hkind : key ≠ "kind") :
    w.Plain := by
  constructor <;> simp [h, Dict.ofList, Dict.insertAll, Dict.get?_insert, hname.symm, hkind.symm]

theorem Plain.get?_name {w : Workload} (h : w.Plain) :
    w.podLabels.get? "name" = some w.name := by
  rw [get?_podLabels, h.name, Option.none_or, get?_selectorLabels]
  simp

theorem Plain.get?_kind {w : Workload} (h : w.Plain) :
    w.podLabels.get? "kind" = some w.kindLabel := by
  rw [get?_podLabels, h.kind, Option.none_or, get?_selectorLabels]
  simp

end Workload

variable (settings : Settings) (features : FeatureSet) (zone : String)

def sameNodeWorkload : Workload :=
  echoWorkload settings features echoSameNodeName "other" (.sameNodeAs clientName)

def otherNodeWorkload : Workload :=
  { echoWorkload settings features echoOtherNodeName "first" (.otherNodeThan clientName) with
    nodeSelector := settings.nodeSelector }

def secondClientWorkload : Workload :=
  { clientWorkload settings secondClientName with
    labels := .ofList [("other", "client")]
    placement := some (.sameNodeAs clientName) }

@[simp] theorem sameNodeWorkload_name :
    (sameNodeWorkload settings features).name = echoSameNodeName := rfl

@[simp] theorem otherNodeWorkload_name :
    (otherNodeWorkload settings features).name = echoOtherNodeName := rfl

@[simp] theorem secondClientWorkload_name :
    (secondClientWorkload settings).name = secondClientName := rfl

/-- The names of the deployments of a performance run. -/
def performanceNames : PerformanceNames :=
  .ofHostNetwork settings.performanceHostNetwork

def performanceClient : Workload :=
  { performanceWorkload settings (performanceNames settings).client 80 sleepForever "client"
      (.inZone zone) with
    namedPort := "http-80" }

def performanceServer : Workload :=
  performanceWorkload settings (performanceNames settings).server 5001
    ("netserver;" ++ sleepForever) "server" (.inZoneWith zone (performanceNames settings).client)

/-- The client on another node. -/
def performanceClientAcross : Workload :=
  performanceWorkload settings (performanceNames settings).clientAcross 5001 sleepForever "client"
    (.inZoneApartFrom zone (performanceNames settings).client)

/-- The workloads of a performance run. -/
def performanceWorkloads : List Workload :=
  [performanceClient settings zone, performanceServer settings zone] ++
    if settings.singleNode then [] else [performanceClientAcross settings zone]

theorem planPerformance_steps : (planPerformance settings zone).steps =
    (.source, .space settings.testNamespace) ::
      (performanceWorkloads settings zone).map fun w => (.source, .deployment w) :=
  rfl

theorem planPerformance_sourceDeployments :
    (planPerformance settings zone).sourceDeployments =
      (performanceWorkloads settings zone).map (·.name) :=
  rfl

theorem performanceWorkloads_names : (performanceWorkloads settings zone).map (·.name) =
    [(performanceNames settings).client, (performanceNames settings).server] ++
      if settings.singleNode then [] else [(performanceNames settings).clientAcross] := by
  unfold performanceWorkloads
  cases settings.singleNode <;> rfl

theorem performanceWorkloads_names_nodup :
    ((performanceWorkloads settings zone).map (·.name)).Nodup := by
  rw [performanceWorkloads_names, performanceNames]
  cases settings.singleNode <;> cases settings.performanceHostNetwork <;> decide

/-- What stands before the first workload. -/
def groundwork : List (Side × Item) :=
  (.source, .space settings.testNamespace) ::
    (if settings.isMultiCluster then [(.destination, .space settings.testNamespace)] else []) ++
  [(.source, .service (echoService echoSameNodeName false))] ++
  (if settings.isMultiCluster then [(.source, .service (echoService echoOtherNodeName true))]
    else []) ++
  (.source, .dnsConfigMap) ::
    (if settings.isMultiCluster then [(.destination, .dnsConfigMap)] else [])

/-- The workloads and what leads to those that are not always there. -/
def connections : List (Side × Item) :=
  [(.source, .deployment (sameNodeWorkload settings features)),
    (.source, .deployment (clientWorkload settings clientName)),
    (.source, .deployment (secondClientWorkload settings))] ++
  (if settings.spansNodes then
    [(.destination, .service (echoService echoOtherNodeName settings.isMultiCluster)),
      (.destination, .deployment (otherNodeWorkload settings features))]
  else []) ++
  (if features.enabled .nodeWithoutCilium then
    [(.destination, .daemonSet (hostNetworkWorkload settings)),
      (.destination, .deployment (externalEchoWorkload settings))]
  else []) ++
  (if features.enabled .ingressController then [(.source, .ingress)] else [])

theorem planConnectivity_steps : (planConnectivity settings features).steps =
    groundwork settings ++ connections settings features := by
  simp [planConnectivity, groundwork, connections, sameNodeWorkload, otherNodeWorkload,
    secondClientWorkload]

theorem mem_performanceWorkloads {settings : Settings} {zone : String} {w : Workload} :
    w ∈ performanceWorkloads settings zone ↔
      w = performanceClient settings zone ∨ w = performanceServer settings zone ∨
        settings.singleNode = false ∧ w = performanceClientAcross settings zone := by
  simp [performanceWorkloads]

theorem mem_planPerformance_deployment {settings : Settings} {zone : String} {side : Side}
    {w : Workload} : (side, .deployment w) ∈ (planPerformance settings zone).steps ↔
      side = .source ∧ w ∈ performanceWorkloads settings zone := by
  rw [planPerformance_steps, List.mem_cons, List.mem_map]
  constructor
  · rintro (h | ⟨w', hw', h⟩)
    · cases h
    · cases h
      exact ⟨rfl, hw'⟩
  · rintro ⟨rfl, hw⟩
    exact .inr ⟨w, hw, rfl⟩

/-- The deployments of a run that measures nothing. -/
theorem mem_connections_deployment {settings : Settings} {features : FeatureSet} {side : Side}
    {w : Workload} :
    (side, .deployment w) ∈ connections settings features ↔
      side = .source ∧ w = sameNodeWorkload settings features ∨
      side = .source ∧ w = clientWorkload settings clientName ∨
      side = .source ∧ w = secondClientWorkload settings ∨
      settings.spansNodes = true ∧ side = .destination ∧
        w = otherNodeWorkload settings features ∨
      features.enabled .nodeWithoutCilium = true ∧ side = .destination ∧
        w = externalEchoWorkload settings := by
  simp [connections]

/-- The services of a run that measures nothing. -/
theorem mem_groundwork_service {settings : Settings} {side : Side} {s : ServiceDescription} :
    (side, .service s) ∈ groundwork settings ↔
      side = .source ∧ s = echoService echoSameNodeName false ∨
      settings.isMultiCluster = true ∧ side = .source ∧
        s = echoService echoOtherNodeName true := by
  simp [groundwork]

theorem mem_connections_service {settings : Settings} {features : FeatureSet} {side : Side}
    {s : ServiceDescription} : (side, .service s) ∈ connections settings features ↔
      settings.spansNodes = true ∧ side = .destination ∧
        s = echoService echoOtherNodeName settings.isMultiCluster := by
  simp [connections]

theorem mem_connections_daemonSet {settings : Settings} {features : FeatureSet} {side : Side}
    {w : Workload} : (side, .daemonSet w) ∈ connections settings features ↔
      features.enabled .nodeWithoutCilium = true ∧ side = .destination ∧
        w = hostNetworkWorkload settings := by
  simp [connections]

theorem mem_connections_ingress {settings : Settings} {features : FeatureSet} {side : Side} :
    (side, .ingress) ∈ connections settings features ↔
      features.enabled .ingressController = true ∧ side = .source := by
  simp [connections]

theorem not_mem_groundwork_daemonSet {settings : Settings} {side : Side} {w : Workload} :
    (side, .daemonSet w) ∉ groundwork settings := by
  simp [groundwork]

theorem not_mem_groundwork_ingress {settings : Settings} {side : Side} :
    (side, .ingress) ∉ groundwork settings := by
  simp [groundwork]

theorem not_mem_groundwork_deployment {settings : Settings} {side : Side} {w : Workload} :
    (side, .deployment w) ∉ groundwork settings := by
  simp [groundwork]

/-- What holds of the deployments of every plan. -/
theorem forall_deployment {settings : Settings} {features : FeatureSet} {zone : String}
    {P : Side → Workload → Prop} (hperformanceClient : P .source (performanceClient settings zone))
    (hperformanceServer : P .source (performanceServer settings zone))
    (hperformanceClientAcross : P .source (performanceClientAcross settings zone))
    (hsameNode : P .source (sameNodeWorkload settings features))
    (hclient : P .source (clientWorkload settings clientName))
    (hsecond : P .source (secondClientWorkload settings))
    (hotherNode : P .destination (otherNodeWorkload settings features))
    (hexternal : P .destination (externalEchoWorkload settings)) {side : Side} {w : Workload}
    (h : (side, .deployment w) ∈ (plan settings features zone).steps) : P side w := by
  unfold plan at h
  split at h
  · obtain ⟨rfl, hw⟩ := mem_planPerformance_deployment.1 h
    rcases mem_performanceWorkloads.1 hw with rfl | rfl | ⟨-, rfl⟩
    · exact hperformanceClient
    · exact hperformanceServer
    · exact hperformanceClientAcross
  · rw [planConnectivity_steps, List.mem_append] at h
    rcases h with h | h
    · exact absurd h not_mem_groundwork_deployment
    · rcases mem_connections_deployment.1 h with
        ⟨rfl, rfl⟩ | ⟨rfl, rfl⟩ | ⟨rfl, rfl⟩ | ⟨-, rfl, rfl⟩ | ⟨-, rfl, rfl⟩
      · exact hsameNode
      · exact hclient
      · exact hsecond
      · exact hotherNode
      · exact hexternal

/-- Every deployment of a plan has only plain labels of its own. -/
theorem plain_of_deployment {settings : Settings} {features : FeatureSet} {zone : String}
    {side : Side} {w : Workload}
    (h : (side, .deployment w) ∈ (plan settings features zone).steps) : w.Plain := by
  refine forall_deployment (P := fun _ w => w.Plain) ?_ ?_ ?_ ?_ ⟨rfl, rfl⟩ ?_ ?_ ?_ h
  · exact .of_labels "client" _ rfl (by decide) (by decide)
  · exact .of_labels "server" _ rfl (by decide) (by decide)
  · exact .of_labels "client" _ rfl (by decide) (by decide)
  · exact .of_labels "other" _ rfl (by decide) (by decide)
  · exact .of_labels "other" _ rfl (by decide) (by decide)
  · exact .of_labels "first" _ rfl (by decide) (by decide)
  · exact .of_labels "external" _ rfl (by decide) (by decide)

end Reachability.Topology
