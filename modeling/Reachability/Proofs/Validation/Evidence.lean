import Reachability.Proofs.Cluster.Evidence
import Reachability.Proofs.Validation.Requests

namespace Reachability

open Reachability.Topology (echoOtherNodeName echoSameNodeName nameSelector)

variable {α β : Type} {seen : Exchange → Prop} {i : Inventory}

theorem Dict.forall_values_of_eq_empty {κ γ : Type} [Ord κ] {d : Dict κ γ} (hd : d = ∅)
    (p : γ → Prop) : ∀ a ∈ d.values, p a := by
  subst hd
  exact fun a ha => absurd ha List.not_mem_nil

/-- What holds of a new value and of all values before holds of all values after. -/
theorem Dict.forall_values_insert {κ γ : Type} [Ord κ] [Std.TransOrd κ] {d : Dict κ γ} {k : κ}
    {v : γ} {p : γ → Prop} (hd : ∀ a ∈ d.values, p a) (hv : p v) :
    ∀ a ∈ (d.insert k v).values, p a := by
  intro a ha
  obtain ⟨e, he, rfl⟩ := List.mem_map.1 ha
  rcases mem_insertSorted he with rfl | he
  · exact hv
  · exact hd _ (List.mem_map_of_mem he)

/-- The second inventory has the same agents, clients and echo pods as the first. -/
structure Inventory.SamePods (i i' : Inventory) : Prop where
  agentPods : i'.agentPods = i.agentPods
  clientPods : i'.clientPods = i.clientPods
  echoPods : i'.echoPods = i.echoPods

/-- The second inventory has the same echo services as well. -/
structure Inventory.SameSubjects (i i' : Inventory) : Prop extends i.SamePods i' where
  echoServices : i'.echoServices = i.echoServices

theorem Inventory.SamePods.trans {i i' i'' : Inventory} (h : i.SamePods i') (h' : i'.SamePods i'') :
    i.SamePods i'' :=
  ⟨h'.agentPods.trans h.agentPods, h'.clientPods.trans h.clientPods,
    h'.echoPods.trans h.echoPods⟩

theorem Inventory.SameSubjects.refl (i : Inventory) : i.SameSubjects i := ⟨⟨rfl, rfl, rfl⟩, rfl⟩

theorem Inventory.SameSubjects.trans {i i' i'' : Inventory} (h : i.SameSubjects i')
    (h' : i'.SameSubjects i'') : i.SameSubjects i'' :=
  ⟨h.toSamePods.trans h'.toSamePods, h'.echoServices.trans h.echoServices⟩

/-- The only pod of an echo deployment has been listed, and these pods have been seen to use the
name server beside it. -/
def EchoPodNames (seen : Exchange → Prop) (cluster : Cluster) (ns deployment : String)
    (pods : List Pod) : Prop :=
  ∃ object : Manifest.Pod,
    seen ⟨⟨cluster, .listPods ns (nameSelector deployment)⟩, .ok [object]⟩ ∧
      ∀ pod ∈ pods, NamesResolvedAt seen pod { cluster, object }

/-- Every echo service has been seen to resolve to its address from some client pod. -/
def ServicesResolved (seen : Exchange → Prop) (i : Inventory) : Prop :=
  ∀ s ∈ i.echoServices.values, ∃ pod ∈ i.clientPods.values, ServiceResolvedFrom seen s pod

theorem ServicesResolved.sameSubjects {i' : Inventory} (h : ServicesResolved seen i)
    (hi : i.SameSubjects i') : ServicesResolved seen i' := by
  unfold ServicesResolved
  rwa [hi.clientPods, hi.echoServices]

/-- Every node port of every echo service has been seen to answer at every node that runs an agent,
each from some client pod. -/
def NodePortsReached (seen : Exchange → Prop) (i : Inventory) : Prop :=
  ∀ agent ∈ i.agentPods.values, ∀ nodeIP, agent.hostIP = some nodeIP →
    ∀ s ∈ i.echoServices.values, ∀ port ∈ s.nodePorts,
      ∃ pod ∈ i.clientPods.values, PortReachedFrom seen nodeIP port pod

theorem NodePortsReached.sameSubjects {i' : Inventory} (h : NodePortsReached seen i)
    (hi : i.SameSubjects i') : NodePortsReached seen i' := by
  unfold NodePortsReached
  rwa [hi.agentPods, hi.clientPods, hi.echoServices]

/-- What a validation has seen of the network when it succeeds, in terms of the inventory that it
leaves. -/
structure Connected (seen : Exchange → Prop) (clients : Clients) (settings : Settings)
    (i : Inventory) : Prop where
  clientEndpoints : ∀ pod ∈ i.clientPods.values, EndpointThere seen settings.testNamespace pod
  echoEndpoints : ∀ pod ∈ i.echoPods.values, EndpointThere seen settings.testNamespace pod
  sameNode : EchoPodNames seen clients.source settings.testNamespace echoSameNodeName
    i.clientPods.values
  otherNode : settings.spansNodes = true → EchoPodNames seen clients.destination
    settings.testNamespace echoOtherNodeName i.clientPods.values
  clusterNames : ∀ pod ∈ i.clientPods.values, ClusterNamesResolved seen pod
  services : ServicesResolved seen i
  nodePorts : settings.isMultiCluster = false → NodePortsReached seen i
  identities : settings.skipIdentityCheck = false →
    ∀ agent ∈ i.agentPods.values, IdentitiesKnown seen i agent settings.agentContainer

namespace Survey

/-- A part that is left out under some condition. -/
theorem Shows.ite_bind (post : Inventory → Prop) {p : Prop} [Decidable p] {s : Survey Unit}
    {f : Unit → Survey β} {post' : β → Inventory → Prop}
    (hs : p → s.Shows seen i fun _ i' => post i') (hskipped : ¬ p → post i)
    (hf : ∀ i', post i' → (f ()).Shows seen i' post') :
    Shows seen (if p then s >>= f else f ()) i post' := by
  split
  next hp => exact (hs hp).bind fun _ i' h => hf i' h
  next hp => exact hf i (hskipped hp)

/-- A list of pods that were seen, whatever is done with them. -/
theorem listPods_bind_shows {f : List Pod → Survey β} {post : β → Inventory → Prop} (what : String)
    (cluster : Cluster) (ns selector : String)
    (hf : ∀ objects : List Manifest.Pod,
      seen ⟨⟨cluster, .listPods ns selector⟩, .ok objects⟩ →
        (f (objects.map fun object => { cluster, object })).Shows seen i post) :
    Shows seen (listPods what cluster ns selector >>= f) i post := by
  have hlist : (listPods what cluster ns selector).Shows seen i fun pods i' =>
      (f pods).Shows seen i post ∧ i' = i := by
    refine .bind (.request ..) ?_
    rintro (objects : List Manifest.Pod) i' ⟨hseen, rfl⟩
    exact .pure ⟨hf objects hseen, rfl⟩
  refine .bind hlist ?_
  rintro pods i' ⟨hpods, rfl⟩
  exact hpods

variable (clients : Clients) (settings : Settings) (features : FeatureSet)

/-- The agents are recorded before there are any other pods. -/
theorem agentPods_shows : (agentPods clients settings).Shows seen ∅ fun _ i' =>
    i'.clientPods = ∅ ∧ i'.echoPods = ∅ := by
  refine .forM_keeps (fun i => i.clientPods = ∅ ∧ i.echoPods = ∅) (fun cluster _ i hi => ?_)
    ⟨rfl, rfl⟩
  refine listPods_bind_shows _ _ _ _ fun objects _ => (Shows.record _).mono ?_
  rintro _ _ rfl
  exact hi

theorem deployments_shows (cluster : Cluster) (names : List String) :
    (deployments cluster settings names).Shows seen i fun _ i' =>
      (∀ name ∈ names, DeploymentReady seen cluster ⟨settings.testNamespace, name⟩) ∧ i' = i := by
  unfold deployments
  split
  next hnone =>
    rw [List.isEmpty_iff.1 hnone]
    exact .pure ⟨nofun, rfl⟩
  next => exact .check (Check.deployments_shows ..)

theorem endpoint_shows (pod : Pod) : (endpoint settings pod).Shows seen i fun _ i' =>
    EndpointThere seen settings.testNamespace pod ∧ i' = i :=
  .check (Check.endpoint_shows ..)

/-- A pod is recorded once its endpoint is there. -/
theorem endpoint_record_shows (pod : Pod) (f : Inventory → Inventory) :
    Shows seen (do endpoint settings pod; record f) i fun _ i' =>
      EndpointThere seen settings.testNamespace pod ∧ i' = f i := by
  refine .bind (endpoint_shows settings pod) ?_
  rintro _ i' ⟨hpod, rfl⟩
  exact (Shows.record f).mono fun _ _ h => ⟨hpod, h⟩

theorem clientPods_shows (hi : i.clientPods = ∅) :
    (clientPods clients settings).Shows seen i fun _ i' =>
      (∀ pod ∈ i'.clientPods.values, EndpointThere seen settings.testNamespace pod) ∧
        i'.echoPods = i.echoPods := by
  refine listPods_bind_shows _ _ _ _ fun objects _ => ?_
  refine .forM_keeps (fun i' =>
    (∀ pod ∈ i'.clientPods.values, EndpointThere seen settings.testNamespace pod) ∧
      i'.echoPods = i.echoPods) (fun pod _ i' hi' => ?_) ⟨Dict.forall_values_of_eq_empty hi _, rfl⟩
  refine (endpoint_record_shows settings pod _).mono ?_
  rintro _ _ ⟨hpod, rfl⟩
  exact ⟨Dict.forall_values_insert hi'.1 hpod, hi'.2⟩

theorem podNames_shows (target : Pod) : (podNames settings target).Shows seen i fun _ i' =>
    (∀ pod ∈ i.clientPods.values, NamesResolvedAt seen pod target) ∧ i' = i := by
  refine .bind .inventory ?_
  rintro _ _ ⟨rfl, rfl⟩
  exact .check (.within (.forM fun source _ => Check.podNames_shows source target) _)

theorem echoPodNames_shows (cluster : Cluster) (deployment what : String) :
    (echoPodNames cluster settings deployment what).Shows seen i fun _ i' =>
      EchoPodNames seen cluster settings.testNamespace deployment i.clientPods.values ∧ i' = i := by
  have hsingle : (singleEchoPod cluster settings deployment what).Shows seen i fun target i' =>
      (∃ object : Manifest.Pod,
        seen ⟨⟨cluster, .listPods settings.testNamespace (nameSelector deployment)⟩,
          .ok [object]⟩ ∧ target = { cluster, object }) ∧ i' = i := by
    refine listPods_bind_shows _ _ _ _ fun objects hseen => ?_
    obtain _ | ⟨object, _ | ⟨second, rest⟩⟩ := objects
    · exact .throw ..
    · exact .pure ⟨⟨object, hseen, rfl⟩, rfl⟩
    · exact .throw ..
  refine .bind hsingle ?_
  rintro _ i' ⟨⟨object, hseen, rfl⟩, rfl⟩
  exact (podNames_shows settings _).mono fun _ _ h => ⟨⟨object, hseen, h.1⟩, h.2⟩

theorem clusterNames_shows : (clusterNames settings).Shows seen i fun _ i' =>
    (∀ pod ∈ i.clientPods.values, ClusterNamesResolved seen pod) ∧ i' = i := by
  refine .bind .inventory ?_
  rintro _ _ ⟨rfl, rfl⟩
  exact .check (.within (.forM fun pod _ => Check.clusterNames_shows pod) _)

/-- What is recorded elsewhere leaves the subjects of the checks alone. -/
theorem record_elsewhere_shows {f : Inventory → Inventory} (hf : i.SameSubjects (f i)) :
    (record f).Shows seen i fun _ i' => i.SameSubjects i' := by
  refine (Shows.record f).mono ?_
  rintro _ _ rfl
  exact hf

theorem externalEchoPods_shows : (externalEchoPods clients settings).Shows seen i fun _ i' =>
    i.SameSubjects i' :=
  listPods_bind_shows _ _ _ _ fun _ _ => record_elsewhere_shows ⟨⟨rfl, rfl, rfl⟩, rfl⟩

theorem hostNetworkPods_shows : (hostNetworkPods clients settings).Shows seen i fun _ i' =>
    i.SameSubjects i' :=
  listPods_bind_shows _ _ _ _ fun _ _ => record_elsewhere_shows ⟨⟨rfl, rfl, rfl⟩, rfl⟩

theorem echoPods_shows (hi : i.echoPods = ∅) :
    (echoPods clients settings).Shows seen i fun _ i' =>
      (∀ pod ∈ i'.echoPods.values, EndpointThere seen settings.testNamespace pod) ∧
        i'.clientPods = i.clientPods := by
  refine .forM_keeps (fun i' =>
    (∀ pod ∈ i'.echoPods.values, EndpointThere seen settings.testNamespace pod) ∧
      i'.clientPods = i.clientPods) (fun cluster _ i₁ hi₁ => ?_)
    ⟨Dict.forall_values_of_eq_empty hi _, rfl⟩
  refine listPods_bind_shows _ _ _ _ fun objects _ => ?_
  refine .forM_keeps _ (fun pod _ i' hi' => ?_) hi₁
  refine (endpoint_record_shows settings pod _).mono ?_
  rintro _ _ ⟨hpod, rfl⟩
  exact ⟨Dict.forall_values_insert hi'.1 hpod, hi'.2⟩

theorem echoServices_shows : (echoServices clients settings).Shows seen i fun _ i' =>
    i.SamePods i' := by
  refine .forM_keeps (fun i' => i.SamePods i') (fun cluster _ i₁ hi₁ => ?_) ⟨rfl, rfl, rfl⟩
  refine .bind (.request ..) ?_
  rintro services i' ⟨-, rfl⟩
  refine (Shows.record _).mono ?_
  rintro _ _ rfl
  exact hi₁.trans ⟨rfl, rfl, rfl⟩

theorem resolvedServices_shows : (resolvedServices settings).Shows seen i fun _ i' =>
    ServicesResolved seen i ∧ i' = i := by
  refine .bind .inventory ?_
  rintro _ _ ⟨rfl, rfl⟩
  exact .forM fun s _ => .check (Check.service_shows ..)

theorem ingressServices_shows : (ingressServices clients settings).Shows seen i fun _ i' =>
    i.SameSubjects i' := by
  refine .bind (.request ..) ?_
  rintro services i' ⟨-, rfl⟩
  exact record_elsewhere_shows ⟨⟨rfl, rfl, rfl⟩, rfl⟩

theorem nodePorts_shows : (nodePorts settings).Shows seen i fun _ i' =>
    NodePortsReached seen i ∧ i' = i := by
  refine .bind .inventory ?_
  rintro _ i ⟨rfl, rfl⟩
  refine .forM fun agent _ => ?_
  split
  next hnone => exact .pure ⟨fun nodeIP h => (by rw [hnone] at h; cases h), rfl⟩
  next nodeIP hsome =>
    have hservice (s : Manifest.Service) : (check (Check.nodePorts i nodeIP s
        settings.serviceReadyTime)).Shows seen i fun _ i' => (∀ port ∈ s.nodePorts,
          ∃ pod ∈ i.clientPods.values, PortReachedFrom seen nodeIP port pod) ∧ i' = i :=
      .check (Check.nodePorts_shows ..)
    refine .mono (.forM fun s _ => hservice s) ?_
    rintro _ i' ⟨hservices, rfl⟩
    refine ⟨fun ip hip => ?_, rfl⟩
    obtain rfl := Option.some.inj (hsome.symm.trans hip)
    exact hservices

theorem externalWorkloads_shows : (externalWorkloads clients).Shows seen i fun _ i' =>
    i.SameSubjects i' := by
  refine .forM_keeps (fun i' => i.SameSubjects i') (fun cluster _ i₁ hi₁ => ?_) (.refl i)
  refine .bind (.attempt _) ?_
  rintro (f | workloads) i' rfl
  · dsimp only
    split
    · exact .pure hi₁
    · exact .throw ..
  · refine (Shows.record _).mono ?_
    rintro _ _ rfl
    exact hi₁.trans ⟨⟨rfl, rfl, rfl⟩, rfl⟩

theorem identities_shows : (identities settings).Shows seen i fun _ i' =>
    (∀ agent ∈ i.agentPods.values, IdentitiesKnown seen i agent settings.agentContainer) ∧
      i' = i := by
  refine .bind .inventory ?_
  rintro _ _ ⟨rfl, rfl⟩
  exact .check (.within (.forM fun agent _ => Check.identities_shows ..) _)

theorem connectivity_shows (hclients : i.clientPods = ∅) (hechos : i.echoPods = ∅) :
    (connectivity clients settings features).Shows seen i fun _ i' =>
      Connected seen clients settings i' := by
  refine .bind (clientPods_shows clients settings hclients) ?_
  rintro _ i₁ ⟨hclientEndpoints, hechos₁⟩
  refine .bind (echoPodNames_shows ..) ?_
  rintro _ i₁ ⟨hsame, rfl⟩
  refine .ite_bind (fun i' => (settings.spansNodes = true → EchoPodNames seen clients.destination
    settings.testNamespace echoOtherNodeName i₁.clientPods.values) ∧ i' = i₁)
    (fun _ => (echoPodNames_shows ..).mono fun _ _ h => ⟨fun _ => h.1, h.2⟩)
    (fun hspans => ⟨fun h => absurd h hspans, rfl⟩) ?_
  rintro i₁ ⟨hother, rfl⟩
  refine .ite_bind (fun i' => i₁.SameSubjects i') (fun _ => externalEchoPods_shows ..)
    (fun _ => .refl i₁) fun i₂ h₁₂ => ?_
  refine .bind (clusterNames_shows settings) ?_
  rintro _ i₂ ⟨hnames, rfl⟩
  refine .bind (echoPods_shows clients settings ?_) ?_
  · rw [h₁₂.echoPods, hechos₁, hechos]
  rintro _ i₃ ⟨hechoEndpoints, h₂₃⟩
  refine .bind (echoServices_shows clients settings) fun _ i₄ h₃₄ => ?_
  refine .bind (resolvedServices_shows settings) ?_
  rintro _ i₄ ⟨hservices, rfl⟩
  refine .ite_bind (fun i' => i₄.SameSubjects i') (fun _ => ingressServices_shows ..)
    (fun _ => .refl i₄) fun i₅ h₄₅ => ?_
  refine .ite_bind (fun i' => (settings.isMultiCluster = false → NodePortsReached seen i₅) ∧
    i' = i₅) (fun _ => (nodePorts_shows settings).mono fun _ _ h => ⟨fun _ => h.1, h.2⟩)
    (fun hmulti => ⟨fun h => absurd (by rw [h]; rfl) hmulti, rfl⟩) ?_
  rintro i₅ ⟨hports, rfl⟩
  refine .bind (hostNetworkPods_shows clients settings) fun _ i₆ h₅₆ => ?_
  refine .bind (externalWorkloads_shows clients) fun _ i₇ h₆₇ => ?_
  have h₅₇ := h₅₆.trans h₆₇
  have h₄₇ := h₄₅.trans h₅₇
  have hechos₇ : i₇.echoPods = i₃.echoPods := h₄₇.echoPods.trans h₃₄.echoPods
  have hclients₇ : i₇.clientPods = i₂.clientPods :=
    h₄₇.clientPods.trans (h₃₄.clientPods.trans h₂₃)
  have hconnected (hknown : settings.skipIdentityCheck = false → ∀ agent ∈ i₇.agentPods.values,
      IdentitiesKnown seen i₇ agent settings.agentContainer) :
      Connected seen clients settings i₇ := {
    clientEndpoints := by rwa [hclients₇, h₁₂.clientPods]
    echoEndpoints := by rwa [hechos₇]
    sameNode := by rwa [hclients₇, h₁₂.clientPods]
    otherNode := by rwa [hclients₇, h₁₂.clientPods]
    clusterNames := by rwa [hclients₇]
    services := hservices.sameSubjects h₄₇
    nodePorts := fun hmulti => (hports hmulti).sameSubjects h₅₇
    identities := hknown }
  split
  next hskip =>
    refine (identities_shows settings).mono ?_
    rintro _ i₇ ⟨hknown, rfl⟩
    exact hconnected fun _ => hknown
  next hskip => exact .pure (hconnected fun h => absurd (by rw [h]; rfl) hskip)

/-- What follows the list of agents, if pods are not measured against each other. -/
theorem inspection_shows (hperformance : settings.performance = false)
    (hclients : i.clientPods = ∅) (hechos : i.echoPods = ∅) :
    (inspection clients settings features).Shows seen i fun _ i' =>
      let plan := Topology.plan settings features ""
      (∀ name ∈ plan.sourceDeployments,
        DeploymentReady seen clients.source ⟨settings.testNamespace, name⟩) ∧
      (∀ name ∈ plan.destinationDeployments,
        DeploymentReady seen clients.destination ⟨settings.testNamespace, name⟩) ∧
      Connected seen clients settings i' := by
  refine .bind (deployments_shows settings ..) ?_
  rintro _ i ⟨hsource, rfl⟩
  refine .bind (deployments_shows settings ..) ?_
  rintro _ i ⟨hdestination, rfl⟩
  rw [hperformance, if_neg Bool.false_ne_true]
  refine (connectivity_shows clients settings features hclients hechos).mono ?_
  exact fun _ i h => ⟨hsource, hdestination, h⟩

end Survey

/-- A validation from an empty inventory that succeeds. It lists the agents; what it exchanges after
that shows all of the following. -/
theorem validate_shows {clients : Clients} {settings : Settings} {features : FeatureSet}
    (hperformance : settings.performance = false) {exchanges : List Exchange} {i : Inventory}
    (h : ((validate clients settings features).run.run ∅).Admits exchanges (.ok (), i)) :
    ∃ before after, exchanges = before ++ after ∧
      (∀ x ∈ before,
        x.call.request = .listPods settings.agentNamespace settings.agentSelector) ∧
      (∀ x ∈ after, x.call.request.Inspects settings) ∧
      let plan := Topology.plan settings features ""
      (∀ name ∈ plan.sourceDeployments,
        DeploymentReady (· ∈ after) clients.source ⟨settings.testNamespace, name⟩) ∧
      (∀ name ∈ plan.destinationDeployments,
        DeploymentReady (· ∈ after) clients.destination ⟨settings.testNamespace, name⟩) ∧
      Connected (· ∈ after) clients settings i := by
  rw [validate_eq] at h
  obtain ⟨before, after, ⟨e | _, i₁⟩, rfl, hbefore, hafter⟩ :=
    Wait.Procedure.Admits.of_bind (p := (Survey.agentPods clients settings).run.run ∅)
      (b := (Except.ok (), i)) h
  · obtain ⟨-, h⟩ := hafter
    cases h
  · have hagents := (Survey.agentPods_shows clients settings).holds hbefore
      fun _ hx => hx
    have hshows := (Survey.inspection_shows clients settings features hperformance hagents.1
      hagents.2).holds hafter fun _ hx => hx
    exact ⟨before, after, rfl, (Survey.agentPods_asks clients settings).asks ∅ _ _ hbefore,
      (Survey.inspection_asks clients settings features).asks i₁ _ _ hafter, hshows⟩

end Reachability
