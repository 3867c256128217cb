import Reachability.Proofs.Cluster.Settlement
import Reachability.Proofs.Validation.Findings

namespace Reachability

open Reachability.Topology (WorkloadKind performancePort)
open Survey (addPods recordPerformance)
open Wait (Instant Limits Moment Procedure)

variable {α : Type} {clients : Clients} {settings : Settings} {i : Inventory}

/-- The question for the endpoint of a pod in a namespace. -/
def Pod.endpointQuestion (pod : Pod) (ns : String) : Call :=
  ⟨pod.cluster, .getEndpoint ⟨ns, pod.name⟩⟩

/-- The pod is on the network that the run is about. -/
def Manifest.Pod.isMeasured (settings : Settings) (object : Manifest.Pod) : Bool :=
  object.hostNetwork.getD false == settings.performanceHostNetwork

/-- Servers are told from clients by a label. -/
def Manifest.Pod.isServer (object : Manifest.Pod) : Bool :=
  (object.metadata.label? "server").isSome

namespace Survey

/-- Agents have been listed and deployments looked at, and no pods recorded that are measured. -/
structure Prepares (settings : Settings) (exchanges : List Exchange) (i i' : Inventory) :
    Prop where
  servers : i'.performanceServers = i.performanceServers
  clients : i'.performanceClients = i.performanceClients
  requests : ∀ x ∈ exchanges,
    x.call.request = .listPods settings.agentNamespace settings.agentSelector ∨
      ∃ key, x.call.request = .get .deployment key

theorem Prepares.refl (i : Inventory) : Prepares settings [] i i :=
  ⟨rfl, rfl, List.forall_mem_nil _⟩

theorem Prepares.trans {before after : List Exchange} {i i' i'' : Inventory}
    (h : Prepares settings before i i') (h' : Prepares settings after i' i'') :
    Prepares settings (before ++ after) i i'' :=
  ⟨h'.servers.trans h.servers, h'.clients.trans h.clients,
    List.forall_mem_append.2 ⟨h.requests, h'.requests⟩⟩

theorem agentPods_prepares (i : Inventory) :
    (agentPods clients settings).Gathers i fun exchanges _ i' =>
      Prepares settings exchanges i i' := by
  have hlists : (agentPods clients settings).Gathers i fun exchanges _ i' =>
      ∃ listed : List (Cluster × List Manifest.Pod),
        listed.map Prod.fst = clients.distinct ∧ Prepares settings exchanges i i' := by
    refine Gathers.forM_clusters Prepares.refl (fun cluster i => ?_) _ i
    refine .bind (.listPods ..) ?_
    rintro _ _ _ ⟨objects, rfl, rfl, rfl⟩
    refine (Gathers.record _).mono ?_
    rintro _ _ _ ⟨rfl, rfl⟩
    refine ⟨objects, fun _ after i'' h => ?_⟩
    exact ⟨h.servers, h.clients, List.forall_mem_cons.2 ⟨.inl rfl, h.requests⟩⟩
  exact hlists.mono fun _ _ _ ⟨_, _, h⟩ => h

theorem deployments_prepares (cluster : Cluster) (names : List String) (i : Inventory) :
    (deployments cluster settings names).Gathers i fun exchanges _ i' =>
      Prepares settings exchanges i i' := by
  unfold deployments
  split
  next =>
    refine (Gathers.pure ()).mono ?_
    rintro _ _ _ ⟨rfl, -, rfl⟩
    exact .refl _
  next =>
    have hasks : (Check.deployments cluster settings.testNamespace names
        settings.podReadyTime).Asks fun c => ∃ key, c.request = .get .deployment key :=
      .within (.forM fun _ _ => .poll (asks_call ⟨_, rfl⟩ _) _ _) _
    refine (Gathers.check hasks).mono ?_
    rintro _ _ _ ⟨hrequests, rfl⟩
    exact ⟨rfl, rfl, fun x hx => .inr (hrequests x hx)⟩

/-- Of these pods, and only if they are not on the networks of their nodes, the endpoints have been
asked for until they were there. -/
structure Awaits (settings : Settings) (pods : List Pod) (exchanges : List Exchange) : Prop where
  seen : settings.performanceHostNetwork = false → ∀ pod ∈ pods,
    EndpointThere (· ∈ exchanges) settings.testNamespace pod
  asked : ∀ x ∈ exchanges, settings.performanceHostNetwork = false ∧
    ∃ pod ∈ pods, x.call = pod.endpointQuestion settings.testNamespace

theorem Awaits.append {pods pods' : List Pod} {before after : List Exchange}
    (h : Awaits settings pods before) (h' : Awaits settings pods' after) :
    Awaits settings (pods ++ pods') (before ++ after) where
  seen hnetwork pod hpod := by
    rcases List.mem_append.1 hpod with hpod | hpod
    · exact List.mem_append_left _ (h.seen hnetwork pod hpod)
    · exact List.mem_append_right _ (h'.seen hnetwork pod hpod)
  asked x hx := by
    rcases List.mem_append.1 hx with hx | hx
    · obtain ⟨hnetwork, pod, hpod, hcall⟩ := h.asked x hx
      exact ⟨hnetwork, pod, List.mem_append_left _ hpod, hcall⟩
    · obtain ⟨hnetwork, pod, hpod, hcall⟩ := h'.asked x hx
      exact ⟨hnetwork, pod, List.mem_append_right _ hpod, hcall⟩

theorem endpoint_gathers (pod : Pod) (i : Inventory) :
    (endpoint settings pod).Gathers i fun exchanges _ i' =>
      (EndpointThere (· ∈ exchanges) settings.testNamespace pod ∧
        ∀ x ∈ exchanges, x.call = pod.endpointQuestion settings.testNamespace) ∧ i' = i := by
  have hprobe : (probe pod.cluster (.getEndpoint ⟨settings.testNamespace, pod.name⟩)).Asks
      (· = pod.endpointQuestion settings.testNamespace) := ⟨rfl, fun _ => trivial⟩
  have hasks : (endpoint settings pod).Asks (· = pod.endpointQuestion settings.testNamespace) :=
    .check (.within (.poll hprobe _ _) _)
  refine ⟨fun {exchanges _ i'} h => ?_⟩
  obtain ⟨hthere, hi⟩ := (endpoint_shows settings pod).holds h fun x hx => hx
  exact ⟨⟨hthere, hasks.asks i exchanges _ h⟩, hi⟩

/-- Waits for the endpoint of a pod, if it has one, and records the pod by its role. -/
def measurePod (settings : Settings) (pod : Pod) : Survey Unit := do
  if !settings.performanceHostNetwork then endpoint settings pod
  record fun i => recordPerformance i pod

theorem measurePod_gathers (pod : Pod) (i : Inventory) :
    (measurePod settings pod).Gathers i fun exchanges _ i' =>
      i' = recordPerformance i pod ∧ Awaits settings [pod] exchanges := by
  unfold measurePod
  split
  next hown =>
    have hown : settings.performanceHostNetwork = false := by simpa using hown
    refine .bind (endpoint_gathers pod i) ?_
    rintro before _ i' ⟨⟨hthere, hasked⟩, rfl⟩
    refine (Gathers.record _).mono ?_
    rintro _ _ _ ⟨rfl, rfl⟩
    rw [List.append_nil]
    exact ⟨rfl, fun _ => List.forall_mem_singleton.2 hthere,
      fun x hx => ⟨hown, pod, List.mem_singleton_self pod, hasked x hx⟩⟩
  next hhost =>
    refine (Gathers.record _).mono ?_
    rintro _ _ _ ⟨rfl, rfl⟩
    exact ⟨rfl, fun hown => absurd (by simp [hown]) hhost, List.forall_mem_nil _⟩

theorem measurePods_gathers (pods : List Pod) (i : Inventory) :
    Gathers (pods.forM (measurePod settings)) i fun exchanges _ i' =>
      i' = pods.foldl recordPerformance i ∧ Awaits settings pods exchanges := by
  induction pods generalizing i with
  | nil =>
    refine (Gathers.pure ()).mono ?_
    rintro _ _ _ ⟨rfl, -, rfl⟩
    exact ⟨rfl, fun _ => List.forall_mem_nil _, List.forall_mem_nil _⟩
  | cons pod pods ih =>
    refine .bind (measurePod_gathers pod i) ?_
    rintro before _ _ ⟨rfl, hpod⟩
    refine (ih _).mono ?_
    rintro after _ _ ⟨rfl, hpods⟩
    exact ⟨rfl, hpod.append hpods⟩

/-- The listed pods that are measured, with their cluster. -/
def measuredPods (settings : Settings) (source : Cluster) (objects : List Manifest.Pod) :
    List Pod :=
  (objects.filter (·.isMeasured settings)).map fun object => { cluster := source, object }

theorem performancePods_gathers (i : Inventory) :
    (performancePods clients settings).Gathers i fun exchanges _ i' =>
      ∃ (objects : List Manifest.Pod) (after : List Exchange),
        exchanges = ⟨⟨clients.source, .listPods settings.testNamespace
          WorkloadKind.performance.selector⟩, .ok objects⟩ :: after ∧
        i' = (measuredPods settings clients.source objects).foldl recordPerformance i ∧
        Awaits settings (measuredPods settings clients.source objects) after := by
  refine .bind (.listPods ..) ?_
  rintro _ _ _ ⟨objects, rfl, rfl, rfl⟩
  rw [List.filter_map]
  refine (measurePods_gathers _ _).mono ?_
  rintro after _ _ ⟨rfl, hawaits⟩
  exact ⟨objects, after, rfl, rfl, hawaits⟩

theorem validate_measures (hperformance : settings.performance = true) (features : FeatureSet)
    (i : Inventory) : (validate clients settings features).Gathers i fun exchanges _ i' =>
      ∃ before after i₀ objects, exchanges = before ++ ⟨⟨clients.source, .listPods
          settings.testNamespace WorkloadKind.performance.selector⟩, .ok objects⟩ :: after ∧
        Prepares settings before i i₀ ∧
        i' = (measuredPods settings clients.source objects).foldl recordPerformance i₀ ∧
        Awaits settings (measuredPods settings clients.source objects) after := by
  refine .bind (agentPods_prepares i) fun before _ i₁ h₁ => ?_
  refine .bind (deployments_prepares _ _ i₁) fun before' _ i₂ h₂ => ?_
  refine .bind (deployments_prepares _ _ i₂) fun before'' _ i₀ h₃ => ?_
  rw [if_pos hperformance]
  refine (performancePods_gathers i₀).mono ?_
  rintro _ _ i' ⟨objects, after, rfl, hi', hawaits⟩
  exact ⟨before ++ (before' ++ before''), after, i₀, objects, by simp, h₁.trans (h₂.trans h₃),
    hi', hawaits⟩

theorem validate_settled (hperformance : settings.performance = true) (features : FeatureSet) :
    (validate clients settings features).Settled := by
  have hlist (what : String) (cluster : Cluster) (ns selector : String) :
      (listPods what cluster ns selector).Settled :=
    .bind (.check (.request ..)) fun _ => .pure _
  have hdeployments (cluster : Cluster) (names : List String) :
      (deployments cluster settings names).Settled := by
    unfold deployments
    split
    · exact .pure ()
    · exact .check (Check.deployments_settled ..)
  refine .bind (.forM fun _ _ => .bind (hlist ..) fun _ => .record _) fun _ => ?_
  refine .bind (hdeployments ..) fun _ => .bind (hdeployments ..) fun _ => ?_
  rw [if_pos hperformance]
  refine .bind (hlist ..) fun _ => .forM fun pod _ => ?_
  exact .ite_bind (.check (Check.endpoint_settled ..)) fun _ => .record _

end Survey

/-- Of the listed pods those on the network that the run is about are held by name, each in one
role. -/
structure RolesTold (source : Cluster) (settings : Settings) (objects : List Manifest.Pod)
    (i : Inventory) : Prop where
  servers : i.performanceServers.values.Perm
    (((objects.filter (·.isMeasured settings)).filter (·.isServer)).map fun object =>
      { cluster := source, object, port := some performancePort })
  clients : i.performanceClients.values.Perm
    (((objects.filter (·.isMeasured settings)).filter (!·.isServer)).map fun object =>
      { cluster := source, object })
  names {name : String} {pod : Pod} (h : i.performanceServers.get? name = some pod ∨
    i.performanceClients.get? name = some pod) : pod.name = name

/-- What a validation has found of the pods that were listed. It has waited for the endpoints of
those that it holds and of no others, and for none if they are on the networks of their nodes. -/
structure PodsTold (source : Cluster) (settings : Settings) (objects : List Manifest.Pod)
    (exchanges : List Exchange) (asked : List Call) (i : Inventory) : Prop
    extends RolesTold source settings objects i where
  together : ((i.performanceServers.values ++ i.performanceClients.values).map (·.object)).Perm
    (objects.filter (·.isMeasured settings))
  disjoint : ∀ server ∈ i.performanceServers.values, ∀ client ∈ i.performanceClients.values,
    server.name ≠ client.name
  endpointsSeen : settings.performanceHostNetwork = false →
    ∀ pod ∈ i.performanceServers.values ++ i.performanceClients.values,
      EndpointThere (· ∈ exchanges) settings.testNamespace pod
  endpointsAsked {cluster : Cluster} {key : ObjectKey} (h : ⟨cluster, .getEndpoint key⟩ ∈ asked) :
    settings.performanceHostNetwork = false ∧
      ∃ pod ∈ i.performanceServers.values ++ i.performanceClients.values,
        ⟨cluster, .getEndpoint key⟩ = pod.endpointQuestion settings.testNamespace
  leftovers : ∀ object ∈ objects, object.isMeasured settings = false → ∀ cluster space,
    ⟨cluster, .getEndpoint ⟨space, object.metadata.title⟩⟩ ∉ asked

theorem Survey.name_of_get?_addPods {pods : List Pod} {name : String} {pod : Pod}
    (h : (addPods ∅ pods).get? name = some pod) : pod.name = name := by
  rw [get?_addPods, Dict.get?_empty, Option.or_none] at h
  simpa using List.find?_some h

section Told

variable {source : Cluster} {objects : List Manifest.Pod} {exchanges : List Exchange}
  {asked : List Call} {i₀ : Inventory}

/-- What is held by role after the listed pods have been recorded. -/
theorem roles_foldl_recordPerformance (hservers : i₀.performanceServers = ∅)
    (hclients : i₀.performanceClients = ∅)
    (hi : i = (Survey.measuredPods settings source objects).foldl recordPerformance i₀) :
    i.performanceServers = addPods ∅
      (((objects.filter (·.isMeasured settings)).filter (·.isServer)).map fun object =>
        { cluster := source, object, port := some performancePort }) ∧
    i.performanceClients = addPods ∅
      (((objects.filter (·.isMeasured settings)).filter (!·.isServer)).map fun object =>
        { cluster := source, object }) := by
  rw [hi, foldl_recordPerformance, hservers, hclients, Survey.measuredPods]
  refine ⟨congrArg (addPods ∅) ?_, congrArg (addPods ∅) ?_⟩
  · rw [List.filter_map, List.map_map]
    rfl
  · rw [List.filter_map]
    rfl

/-- Pods with names of their own are all held, whichever of them and whatever is added to them. -/
theorem values_addPods_filter_perm (hnodup : (objects.map (·.metadata.title)).Nodup)
    (role : Manifest.Pod → Bool) (see : Manifest.Pod → Pod)
    (hsee : ∀ object, (see object).name = object.metadata.title) :
    (addPods ∅ (((objects.filter (·.isMeasured settings)).filter role).map see)).values.Perm
      (((objects.filter (·.isMeasured settings)).filter role).map see) := by
  have hnames (part : List Manifest.Pod) :
      (part.map see).map Pod.name = part.map (·.metadata.title) := by
    rw [List.map_map]
    exact List.map_congr_left fun object _ => hsee object
  refine Survey.values_addPods_perm ?_
  rw [hnames]
  exact hnodup.sublist ((List.filter_sublist.trans List.filter_sublist).map _)

theorem rolesTold_foldl (hnodup : (objects.map (·.metadata.title)).Nodup)
    (hservers : i₀.performanceServers = ∅) (hclients : i₀.performanceClients = ∅)
    (hi : i = (Survey.measuredPods settings source objects).foldl recordPerformance i₀) :
    RolesTold source settings objects i := by
  obtain ⟨hheld, hheld'⟩ := roles_foldl_recordPerformance hservers hclients hi
  refine ⟨?_, ?_, fun h => ?_⟩
  · rw [hheld]
    exact values_addPods_filter_perm hnodup _ _ fun _ => rfl
  · rw [hheld']
    exact values_addPods_filter_perm hnodup _ _ fun _ => rfl
  · rcases h with h | h
    · exact Survey.name_of_get?_addPods (hheld ▸ h)
    · exact Survey.name_of_get?_addPods (hheld' ▸ h)

namespace RolesTold

variable (h : RolesTold source settings objects i)

include h

/-- The two roles together hold the pods on the network that the run is about, each once. -/
theorem perm : ((i.performanceServers.values ++ i.performanceClients.values).map
    (·.object)).Perm (objects.filter (·.isMeasured settings)) := by
  have hobjects (part : List Manifest.Pod) (port : Option Nat) : (part.map fun object =>
      ({ cluster := source, object, port } : Pod)).map (·.object) = part := by
    rw [List.map_map]
    exact List.map_id part
  rw [List.map_append]
  refine ((h.servers.map _).append (h.clients.map _)).trans ?_
  rw [hobjects, hobjects]
  exact List.filter_append_perm ..

theorem cluster_eq {pod : Pod}
    (hpod : pod ∈ i.performanceServers.values ++ i.performanceClients.values) :
    pod.cluster = source := by
  rcases List.mem_append.1 hpod with hpod | hpod
  · obtain ⟨_, -, rfl⟩ := List.mem_map.1 (h.servers.mem_iff.1 hpod)
    rfl
  · obtain ⟨_, -, rfl⟩ := List.mem_map.1 (h.clients.mem_iff.1 hpod)
    rfl

theorem disjoint_names (hnodup : (objects.map (·.metadata.title)).Nodup) :
    ∀ server ∈ i.performanceServers.values, ∀ client ∈ i.performanceClients.values,
      server.name ≠ client.name := by
  have hnames := (h.perm.map (·.metadata.title)).nodup_iff.2
    (hnodup.sublist (List.filter_sublist.map _))
  rw [List.map_map, List.map_append] at hnames
  intro server hserver client hclient heq
  exact (List.nodup_append'.1 hnames).2.2 (List.mem_map_of_mem hserver)
    (List.mem_map.2 ⟨client, hclient, heq.symm⟩)

/-- The pods that are measured are those that are held, as far as their endpoints go. -/
theorem exists_held {seen : Pod} (hseen : seen ∈ Survey.measuredPods settings source objects) :
    ∃ pod ∈ i.performanceServers.values ++ i.performanceClients.values,
      pod.endpointQuestion settings.testNamespace =
        seen.endpointQuestion settings.testNamespace := by
  obtain ⟨object, hobject, rfl⟩ := List.mem_map.1 hseen
  obtain ⟨pod, hpod, rfl⟩ := List.mem_map.1 (h.perm.mem_iff.2 hobject)
  refine ⟨pod, hpod, ?_⟩
  rw [Pod.endpointQuestion, Pod.endpointQuestion, h.cluster_eq hpod]
  rfl

theorem podsTold (hnodup : (objects.map (·.metadata.title)).Nodup)
    (hawaits : Survey.Awaits settings (Survey.measuredPods settings source objects) exchanges)
    (hasked : ∀ cluster key, ⟨cluster, .getEndpoint key⟩ ∈ asked →
      ⟨cluster, .getEndpoint key⟩ ∈ exchanges.map (·.call)) :
    PodsTold source settings objects exchanges asked i := by
  have hheld {cluster : Cluster} {key : ObjectKey} (hkey : ⟨cluster, .getEndpoint key⟩ ∈ asked) :
      settings.performanceHostNetwork = false ∧
        ∃ pod ∈ i.performanceServers.values ++ i.performanceClients.values,
          ⟨cluster, .getEndpoint key⟩ = pod.endpointQuestion settings.testNamespace := by
    obtain ⟨x, hx, hcall⟩ := List.mem_map.1 (hasked cluster key hkey)
    obtain ⟨hown, seen, hseen, heq⟩ := hawaits.asked x hx
    obtain ⟨pod, hpod, hquestion⟩ := h.exists_held hseen
    exact ⟨hown, pod, hpod, hcall.symm.trans (heq.trans hquestion.symm)⟩
  refine { h with
    together := h.perm
    disjoint := h.disjoint_names hnodup
    endpointsSeen := fun hown pod hpod => ?_
    endpointsAsked := hheld
    leftovers := fun object hobject hleft cluster space hkey => ?_ }
  · have hobject := h.perm.mem_iff.1 (List.mem_map_of_mem hpod)
    rw [EndpointThere, h.cluster_eq hpod]
    exact hawaits.seen hown { cluster := source, object := pod.object }
      (List.mem_map_of_mem hobject)
  · -- the names of the listed pods tell a leftover from the pods that are held
    obtain ⟨-, pod, hpod, hcall⟩ := hheld hkey
    have hmeasured := List.mem_filter.1 (h.perm.mem_iff.1 (List.mem_map_of_mem hpod))
    have htitle : pod.object.metadata.title = object.metadata.title := by
      have hkeys := Request.getEndpoint.inj (congrArg Call.request hcall)
      exact (congrArg ObjectKey.name hkeys).symm
    rw [List.inj_on_of_nodup_map hnodup hmeasured.1 hobject htitle, hleft] at hmeasured
    exact Bool.false_ne_true hmeasured.2

end RolesTold

end Told

/-- A validation that measures pods and succeeds has had an answer to each of its calls. The last
list that it was given is that of the pods to measure; only endpoints were asked for after it, and
none before. If no two of the listed pods have one name, it holds all of them that are on the
network that the run is about, each once and in the role that its labels give it, and has waited
for their endpoints alone. -/
theorem validate_tells_pods_apart (w : Wait.World clusterApi) (clients : Clients)
    (settings : Settings) (features : FeatureSet) (hperformance : settings.performance = true)
    (patience : Nat) (l : Limits) (t : Instant) (s : w.State) {i : Inventory} {m : Moment w}
    (hrun : ((validate clients settings features).run.run ∅).run w patience l ⟨t, s, []⟩ =
      (.returned (.ok (), i), m)) :
    ∃ before objects after,
      ((validate clients settings features).run.run ∅).exchanges w patience l t s =
        before ++ ⟨⟨clients.source, .listPods settings.testNamespace
          WorkloadKind.performance.selector⟩, .ok objects⟩ :: after ∧
      m.asked = (before.map (·.call)) ++ ⟨clients.source, .listPods settings.testNamespace
        WorkloadKind.performance.selector⟩ :: after.map (·.call) ∧
      (∀ x ∈ before, x.call.request = .listPods settings.agentNamespace settings.agentSelector ∨
        ∃ key, x.call.request = .get .deployment key) ∧
      (∀ x ∈ after, ∃ key, x.call.request = .getEndpoint key) ∧
      ((objects.map (·.metadata.title)).Nodup →
        PodsTold clients.source settings objects after m.asked i) := by
  obtain ⟨before, after, i₀, objects, hexchanges, hprepares, hi, hawaits⟩ :=
    (Survey.validate_measures hperformance features ∅).holds (Procedure.admits_exchanges hrun)
  obtain ⟨m', hrecorded, rfl, hrecord⟩ := exists_recorded_run hrun
  have hasked : m'.plain.asked = (before.map (·.call)) ++ ⟨clients.source, .listPods
      settings.testNamespace WorkloadKind.performance.selector⟩ :: after.map (·.call) := by
    have hanswered := (Survey.validate_settled hperformance features).answered
      (Wait.Moment.answered_start t s) hrecorded
    rw [Wait.Moment.Answered, hrecord, hexchanges, List.map_append, List.map_cons] at hanswered
    exact hanswered
  refine ⟨before, objects, after, hexchanges, hasked, hprepares.requests, fun x hx => ?_,
    fun hnodup => ?_⟩
  · obtain ⟨-, pod, -, hcall⟩ := hawaits.asked x hx
    exact ⟨_, congrArg Call.request hcall⟩
  · refine (rolesTold_foldl hnodup hprepares.servers hprepares.clients hi).podsTold hnodup hawaits
      fun cluster key hkey => ?_
    rw [hasked] at hkey
    rcases List.mem_append.1 hkey with hkey | hkey
    · obtain ⟨x, hx, hcall⟩ := List.mem_map.1 hkey
      rcases hprepares.requests x hx with hrequest | ⟨_, hrequest⟩ <;>
      · rw [hcall] at hrequest
        cases hrequest
    · rcases List.mem_cons.1 hkey with heq | hkey
      · cases heq
      · exact hkey

/-- A pod of a performance run in one of the roles. -/
def measuredPod (name role : String) (hostNetwork : Option Bool) : Manifest.Pod :=
  { metadata :=
      { name := some name
        space := some "cilium-test"
        labels := .ofList [("kind", WorkloadKind.performance.label), (role, "role")] }
    hostNetwork }

/-- Pods that are to be measured, with the leftovers of a run on the networks of the nodes. -/
def mixedPods : List Manifest.Pod :=
  [measuredPod "perf-client" "client" none,
    measuredPod "perf-client-host-net" "client" (some true),
    measuredPod "perf-server-host-net" "server" (some true),
    measuredPod "perf-server" "server" (some false)]

def mixedAnswer : (r : Request) → Except Failure r.Answer
  | .listPods space selector =>
    if selector = WorkloadKind.performance.selector then .ok mixedPods
    else calmAnswer (.listPods space selector)
  | r => calmAnswer r

/-- A cluster where everything works at once. -/
def mixedNetwork : Wait.World clusterApi where
  State := Unit
  start _ c := ((), some (1, fun _ => ((), mixedAnswer c.request)))
  choose _ _ := ((), ⟨0, Nat.succ_pos _⟩)

def mixedSettings : Settings := { performance := true, singleNode := true }

/-- What a validation of that cluster finds. -/
def mixedInventory : Inventory :=
  let pod (object : Manifest.Pod) : Pod := { cluster := calmClients.source, object }
  { agentPods := .ofList [("cilium", pod (calmPod "cilium" "10.0.0.1"))]
    performanceClients := .ofList [("perf-client", pod (measuredPod "perf-client" "client" none))]
    performanceServers := .ofList [("perf-server",
      (pod (measuredPod "perf-server" "server" (some false))).withPort performancePort)] }

/-- The leftovers have been listed with the others, but are not held, and their endpoints have not
been asked for. -/
theorem mixedNetwork_told : ∃ (m : Moment mixedNetwork) (after : List Exchange),
    ((validate calmClients mixedSettings ∅).run.run ∅).run mixedNetwork 0 {} ⟨0, (), []⟩ =
      (.returned (.ok (), mixedInventory), m) ∧
    PodsTold calmClients.source mixedSettings mixedPods after m.asked mixedInventory := by
  have hsucceeds : (((validate calmClients mixedSettings ∅).run.run ∅).run mixedNetwork 0 {}
      ⟨0, (), []⟩).1 = .returned (.ok (), mixedInventory) := by decide +kernel
  obtain ⟨m, hrun⟩ := Wait.exists_moment hsucceeds
  obtain ⟨before, objects, after, hexchanges, -, -, -, htold⟩ := validate_tells_pods_apart
    mixedNetwork calmClients mixedSettings ∅ rfl 0 {} 0 () hrun
  have hlists : ∀ x ∈ (((validate calmClients mixedSettings ∅).run.run ∅).exchanges mixedNetwork 0
      {} 0 ()).filterMap Exchange.podList?, x.2.2.1 = "kind=perf" → x.2.2.2 = mixedPods := by
    decide +kernel
  obtain rfl : objects = mixedPods := by
    refine hlists (calmClients.source, "cilium-test", "kind=perf", objects) ?_ rfl
    rw [hexchanges]
    exact List.mem_filterMap.2 ⟨_, List.mem_append_right _ List.mem_cons_self, rfl⟩
  exact ⟨m, after, hrun, htold (by decide)⟩

end Reachability
