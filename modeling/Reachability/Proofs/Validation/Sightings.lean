import Reachability.Proofs.Simulation.Crews
import Reachability.Proofs.Simulation.Identities
import Reachability.Proofs.Validation.Standstill

namespace Reachability

open Reachability.Topology
open Simulation
open Survey (addPods addServices found listed recordPerformance servicesKept)

variable {clients : Clients} {stores : Side → Store} {machines : List Machine}
  {settings : Settings} {features : FeatureSet} {zone ns selector : String} {side : Side}

/-- What is seen of a pod apart from its own name and its addresses. -/
structure Sighting where
  cluster : Cluster
  space : String
  labels : Labels
  node : Option String
  hostNetwork : Bool
  scheme : Option String := none
  port : Option Nat := none

def Pod.sighting (p : Pod) : Sighting where
  cluster := p.cluster
  space := p.space
  labels := p.object.metadata.labels
  node := p.nodeName
  hostNetwork := p.hostNetwork
  scheme := p.scheme
  port := p.port

/-- How a pod at a post is seen. -/
def Simulation.Post.sighting (cluster : Cluster) (ns : String) (p : Post) : Sighting where
  cluster
  space := ns
  labels := p.workload.podLabels
  node := some p.node.name
  hostNetwork := p.workload.hostNetwork

/-- The sighting of an echo server. -/
def Sighting.echo (s : Sighting) : Sighting :=
  { s with scheme := some "http", port := some echoPort }

/-- How a pod with these traits is seen. -/
def Simulation.Traits.sighting (cluster : Cluster) (ns : String) (t : Traits) : Sighting where
  cluster
  space := ns
  labels := t.labels
  node := t.nodeName
  hostNetwork := t.hostNetwork.getD false

theorem Simulation.Post.sighting_traits (cluster : Cluster) (ns : String) (p : Post) :
    p.traits.sighting cluster ns = p.sighting cluster ns := by
  cases h : p.workload.hostNetwork <;> simp [Traits.sighting, Post.sighting, Post.traits, h]

section Furnished

variable (h : Furnished clients stores ns (brought settings features zone) machines)

include h

/-- What the cluster of a side lists of the pods of a plan is at their posts. -/
theorem sightings_perm {q : Workload → Bool}
    (hq : ∀ w : Workload, w.Plain → Store.matchesSelector w.podLabels selector = q w)
    (side : Side) : ((listedOn clients stores ns selector side).map Pod.sighting).Perm
      (((crewOf settings features zone (clients.get side).name side).filter (q ·.workload)).map
        (Post.sighting (clients.get side) ns)) := by
  have hseen : (listedOn clients stores ns selector side).map Pod.sighting =
      (((stores side).listPods ns selector).map traits).map
        (Traits.sighting (clients.get side) ns) := by
    rw [listedOn, List.map_map, List.map_map]
    refine List.map_congr_left fun object hobject => ?_
    have hspace := (h.hosts side).space_of_mem hobject
    simp [Pod.sighting, Traits.sighting, traits, Pod.space, hspace, Pod.nodeName, Pod.hostNetwork]
  rw [hseen, ← funext (Post.sighting_traits (clients.get side) ns), ← Function.comp_def,
    ← List.map_map]
  exact (crew_listed (h.hosts side) hq).map _

/-- Pods of different workloads on the clusters have different names. -/
theorem name_ne {selector' : String} {side side' : Side} {pod pod' : Pod}
    (hpod : pod ∈ listedOn clients stores ns selector side)
    (hpod' : pod' ∈ listedOn clients stores ns selector' side')
    (hne : pod.label? "name" ≠ pod'.label? "name") : pod.name ≠ pod'.name := by
  obtain ⟨object, hobject, rfl⟩ := List.mem_map.1 hpod
  obtain ⟨object', hobject', rfl⟩ := List.mem_map.1 hpod'
  obtain ⟨owner, m, hm, hlabel, htitle⟩ := exists_title (h.hosts side) hobject
  obtain ⟨owner', n, hn, hlabel', htitle'⟩ := exists_title (h.hosts side') hobject'
  intro hname
  refine hne (hlabel.trans (.trans ?_ hlabel'.symm))
  rw [(podName_inj hm hn (htitle.symm.trans (hname.trans htitle'))).1]

end Furnished

theorem label?_eq_of_sighting {pod : Pod} {s : Sighting} (h : pod.sighting = s) (key : String) :
    pod.label? key = s.labels.get? key :=
  congrArg (·.labels.get? key) h

theorem hostNetwork_eq_false {pods : List Pod} {seen : List Sighting}
    (hpods : (pods.map Pod.sighting).Perm seen) (hseen : ∀ s ∈ seen, s.hostNetwork = false) :
    ∀ pod ∈ pods, pod.hostNetwork = false :=
  fun pod hpod => hseen pod.sighting (hpods.mem_iff.1 (List.mem_map_of_mem hpod))

/-- A run has a second cluster just if its settings name one. -/
structure Clients.Suit (clients : Clients) (settings : Settings) : Prop where
  single (h : settings.isMultiCluster = false) : clients.source = clients.destination
  multi (h : settings.isMultiCluster = true) : clients.source.id ≠ clients.destination.id

theorem Clients.Suit.seat_eq_iff (h : clients.Suit settings) {side side' : Side} :
    seat settings side' = seat settings side ↔ (clients.get side').id = (clients.get side).id := by
  unfold seat
  cases hmulti : settings.isMultiCluster with
  | false =>
    have hsame := h.single hmulti
    cases side <;> cases side' <;> simp [Clients.get, hsame]
  | true =>
    have hdiffer := h.multi hmulti
    cases side <;> cases side' <;> simp [Clients.get, hdiffer, hdiffer.symm]

/-- Without a second cluster, both sides have one store. -/
theorem Stocked.stores_eq (h : Stocked clients stores machines)
    (hid : clients.source.id = clients.destination.id) (side : Side) :
    stores side = stores .source := by
  cases side with
  | source => rfl
  | destination =>
    have hthere := h.there .destination
    rw [show (clients.get .destination).id = (clients.get .source).id from hid.symm,
      h.there .source] at hthere
    exact (congrArg Machine.store (Option.some.inj hthere)).symm

def Cluster.firstNode (c : Cluster) : Node := Store.firstNode { name := c.name }
def Cluster.secondNode (c : Cluster) : Node := Store.secondNode { name := c.name }

theorem Cluster.nodes_apart (c : Cluster) : c.firstNode.name ≠ c.secondNode.name := by
  intro h
  have hlists := congrArg String.toList h
  simp [firstNode, secondNode, Store.firstNode, Store.secondNode] at hlists

theorem get?_name_sameNode (settings : Settings) (features : FeatureSet) :
    (sameNodeWorkload settings features).podLabels.get? "name" = some echoSameNodeName :=
  Workload.Plain.get?_name (.of_labels "other" _ rfl (by decide) (by decide))

theorem get?_name_otherNode (settings : Settings) (features : FeatureSet) :
    (otherNodeWorkload settings features).podLabels.get? "name" = some echoOtherNodeName :=
  Workload.Plain.get?_name (.of_labels "first" _ rfl (by decide) (by decide))

section Connectivity

variable (h : Furnished clients stores ns (brought settings features zone) machines)
  (hperformance : settings.performance = false)

include h hperformance

theorem clients_seen :
    ((listedOn clients stores ns WorkloadKind.client.selector .source).map Pod.sighting).Perm
      ([⟨clientWorkload settings clientName, clients.source.firstNode⟩,
        ⟨secondClientWorkload settings, clients.source.firstNode⟩].map
          (Post.sighting clients.source ns)) :=
  (sightings_perm h (fun _ => matchesSelector_of_plain_kind .client) .source).trans
    (.of_eq (congrArg _ (crewOf_client hperformance)))

theorem sameNode_seen :
    ((listedOn clients stores ns (nameSelector echoSameNodeName) .source).map Pod.sighting).Perm
      [Post.sighting clients.source ns
        ⟨sameNodeWorkload settings features, clients.source.firstNode⟩] :=
  (sightings_perm h (fun _ => matchesSelector_of_plain_name (by decide)) .source).trans
    (.of_eq (congrArg _ (crewOf_sameNode hperformance)))

theorem otherNode_seen :
    ((listedOn clients stores ns (nameSelector echoOtherNodeName) .destination).map
      Pod.sighting).Perm
      ((if settings.spansNodes then
        [⟨otherNodeWorkload settings features, clients.destination.secondNode⟩] else []).map
          (Post.sighting clients.destination ns)) :=
  (sightings_perm h (fun _ => matchesSelector_of_plain_name (by decide)) .destination).trans
    (.of_eq (congrArg _ (crewOf_otherNode hperformance)))

theorem externalEchoes_seen :
    ((listedOn clients stores ns (nameSelector echoExternalNodeName) .destination).map
      Pod.sighting).Perm
      ((if features.enabled .nodeWithoutCilium then
        [⟨externalEchoWorkload settings, clients.destination.firstNode⟩] else []).map
          (Post.sighting clients.destination ns)) :=
  (sightings_perm h (fun _ => matchesSelector_of_plain_name (by decide)) .destination).trans
    (.of_eq (congrArg _ (crewOf_external hperformance)))

theorem hostNetwork_seen :
    ((listedOn clients stores ns WorkloadKind.hostNetwork.selector .destination).map
      Pod.sighting).Perm
      ((if features.enabled .nodeWithoutCilium then
        [⟨hostNetworkWorkload settings, clients.destination.firstNode⟩,
          ⟨hostNetworkWorkload settings, clients.destination.secondNode⟩] else []).map
          (Post.sighting clients.destination ns)) :=
  (sightings_perm h (fun _ => matchesSelector_of_plain_kind .hostNetwork) .destination).trans
    (.of_eq (congrArg _ (crewOf_hostNetwork hperformance)))

theorem echoes_seen (side : Side) :
    ((listedOn clients stores ns WorkloadKind.echo.selector side).map Pod.sighting).Perm
      (((if seat settings .source = seat settings side then
          [⟨sameNodeWorkload settings features, (clients.get side).firstNode⟩] else []) ++
        if seat settings .destination = seat settings side ∧ settings.spansNodes then
          [⟨otherNodeWorkload settings features, (clients.get side).secondNode⟩]
        else [] : List Post).map (Post.sighting (clients.get side) ns)) :=
  (sightings_perm h (fun _ => matchesSelector_of_plain_kind .echo) side).trans
    (.of_eq (congrArg _ (crewOf_echo hperformance side)))

/-- The echo servers that are to be seen on all clusters. -/
def echoSightings (clients : Clients) (settings : Settings) (features : FeatureSet) (ns : String) :
    List Sighting :=
  Post.sighting clients.source ns
      ⟨sameNodeWorkload settings features, clients.source.firstNode⟩ ::
    if settings.spansNodes then
      [Post.sighting clients.destination ns
        ⟨otherNodeWorkload settings features, clients.destination.secondNode⟩]
    else []

theorem allEchoes_seen (hclients : clients.Suit settings) :
    ((listed clients stores ns WorkloadKind.echo.selector).map Pod.sighting).Perm
      (echoSightings clients settings features ns) := by
  have hsource := echoes_seen h hperformance .source
  have hdestination := echoes_seen h hperformance .destination
  unfold listed Clients.sides echoSightings
  cases hmulti : settings.isMultiCluster with
  | false =>
    have hsame := hclients.single hmulti
    rw [if_pos (congrArg Cluster.id hsame), List.flatMap_singleton]
    refine hsource.trans (.of_eq ?_)
    cases settings.spansNodes <;> simp [seat, hmulti, Clients.get, ← hsame]
  | true =>
    rw [if_neg (hclients.multi hmulti), List.flatMap_cons, List.flatMap_singleton, List.map_append]
    refine (hsource.append hdestination).trans (.of_eq ?_)
    simp [seat, hmulti, Clients.get, spansNodes_of_isMultiCluster hmulti]

/-- No two echo servers have one name, on whichever clusters they are. -/
theorem allEchoes_names_nodup (hclients : clients.Suit settings) :
    ((listed clients stores ns WorkloadKind.echo.selector).map Pod.name).Nodup := by
  have hsource := echoes_seen h hperformance .source
  have hdestination := echoes_seen h hperformance .destination
  unfold listed Clients.sides
  cases hmulti : settings.isMultiCluster with
  | false =>
    rw [if_pos (congrArg Cluster.id (hclients.single hmulti)), List.flatMap_singleton]
    exact h.names_nodup _ _
  | true =>
    rw [if_neg (hclients.multi hmulti), List.flatMap_cons, List.flatMap_singleton, List.map_append]
    refine (h.names_nodup _ _).append (h.names_nodup _ _) ?_
    intro name hname hname'
    obtain ⟨pod, hpod, rfl⟩ := List.mem_map.1 hname
    obtain ⟨pod', hpod', hsame⟩ := List.mem_map.1 hname'
    refine name_ne h hpod hpod' ?_ hsame.symm
    have hseen : pod.sighting = Post.sighting clients.source ns
        ⟨sameNodeWorkload settings features, clients.source.firstNode⟩ := by
      simpa [seat, hmulti, Clients.get] using hsource.mem_iff.1 (List.mem_map_of_mem hpod)
    have hseen' : pod'.sighting = Post.sighting clients.destination ns
        ⟨otherNodeWorkload settings features, clients.destination.secondNode⟩ := by
      simpa [seat, hmulti, Clients.get, spansNodes_of_isMultiCluster hmulti] using
        hdestination.mem_iff.1 (List.mem_map_of_mem hpod')
    rw [label?_eq_of_sighting hseen, label?_eq_of_sighting hseen', Post.sighting, Post.sighting,
      get?_name_sameNode, get?_name_otherNode]
    decide

/-- Every echo server that is listed is found. -/
theorem echoPods_values_perm (hclients : clients.Suit settings) :
    (addPods ∅ ((listed clients stores ns WorkloadKind.echo.selector).map
      (·.withEndpoint "http" echoPort))).values.Perm
      ((listed clients stores ns WorkloadKind.echo.selector).map
        (·.withEndpoint "http" echoPort)) := by
  refine Survey.values_addPods_perm ?_
  rw [List.map_map]
  exact allEchoes_names_nodup h hperformance hclients

end Connectivity

section Soundness

variable (h : Furnished clients stores settings.testNamespace (brought settings features zone)
    machines)
  (hperformance : settings.performance = false)

include h hperformance

theorem echoServices_titles_nodup :
    (((stores .source).listServices settings.testNamespace WorkloadKind.echo.selector).map
      (·.metadata.title)).Nodup := by
  rw [(echoServices_listed hperformance (h.hosts .source)).nodup_iff, echoServiceNames]
  split <;> decide

/-- The echo services of the source are kept; the other cluster has no other. -/
theorem servicesKept_eq (hclients : clients.Suit settings) :
    servicesKept clients stores settings =
      .ofList (((stores .source).listServices settings.testNamespace
        WorkloadKind.echo.selector).map fun s => (s.metadata.title, s)) := by
  have hsource := Survey.addServices_of_nodup (d := ∅) settings.isMultiCluster
    (echoServices_titles_nodup h hperformance) fun _ _ => rfl
  unfold servicesKept Clients.sides
  cases hmulti : settings.isMultiCluster with
  | false =>
    rw [if_pos (congrArg Cluster.id (hclients.single hmulti)), ← hmulti]
    exact hsource
  | true =>
    rw [hmulti] at hsource
    rw [if_neg (hclients.multi hmulti), List.foldl_cons, List.foldl_cons, List.foldl_nil]
    refine Eq.trans (Survey.addServices_of_contains fun s hs => ?_) hsource
    rw [Survey.contains_addServices]
    refine .inr ((echoServices_listed hperformance (h.hosts .source)).mem_iff.2 ?_)
    exact echoServices_listed_subset hperformance (h.hosts .destination)
      (List.mem_map_of_mem hs)

theorem servicesKept_entries_perm (hclients : clients.Suit settings) :
    (servicesKept clients stores settings).entries.Perm
      (((stores .source).listServices settings.testNamespace WorkloadKind.echo.selector).map
        fun s => (s.metadata.title, s)) := by
  rw [servicesKept_eq h hperformance hclients]
  refine Dict.entries_ofList_perm ?_
  rw [List.map_map]
  exact echoServices_titles_nodup h hperformance

/-- An echo service resolves to its address. -/
theorem resolves_of_listed {s : Manifest.Service}
    (hs : s ∈ (stores .source).listServices settings.testNamespace WorkloadKind.echo.selector) :
    (stores .source).Resolves settings.testNamespace s := by
  intro pod hpod hspace
  obtain ⟨htype, n, haddress, hstored⟩ := (h.hosts .source).served hs
  have htitle : s.metadata.title ≠ "kubernetes.default" := by
    have hname := (echoServices_listed hperformance (h.hosts .source)).mem_iff.1
      (List.mem_map_of_mem hs)
    rintro heq
    rw [heq, echoServiceNames] at hname
    split at hname <;> exact absurd hname (by decide)
  rw [← hspace] at hstored
  refine ⟨_, Store.exec_service _ hpod htitle hstored, verifyLookup_serverAnswer ?_ ?_⟩
  · simp [Manifest.Service.expectedAddress, Manifest.Service.typeName, htype, haddress]
  · have hdigits : '\r' ∉ (toString n).toList := by
      intro hmem
      have hdigit := Nat.isDigit_of_mem_toDigits (by decide) (by decide)
        (Nat.toList_repr (n := n) ▸ hmem)
      exact absurd hdigit (by decide)
    simpa using hdigits

/-- The agents of a single cluster know the pods that a validation finds. -/
theorem judgeCache_found (hclients : clients.Suit settings)
    (hsingle : settings.isMultiCluster = false) (expected : Dict String Manifest.Service)
    (side : Side) :
    Check.judgeCache (found clients stores settings features expected)
      (stores side).identityDump = .ok () := by
  have hid := congrArg Cluster.id (hclients.single hsingle)
  have hlisted {selector : String} {pod : Pod}
      (hpod : pod ∈ listedOn clients stores settings.testNamespace selector .source) :
      ∃ selector, pod.object ∈ (stores side).listPods settings.testNamespace selector := by
    obtain ⟨object, hobject, rfl⟩ := List.mem_map.1 hpod
    exact ⟨selector, h.toStocked.stores_eq hid side ▸ hobject⟩
  refine (h.hosts side).judgeCache_identityDump fun pod hpod => ?_
  rcases List.mem_append.1 hpod with hclient | hecho
  · exact hlisted ((Survey.values_addPods_perm (h.names_nodup _ _)).mem_iff.1 hclient)
  · have hperm := echoPods_values_perm h hperformance hclients
    obtain ⟨target, htarget, rfl⟩ := List.mem_map.1 (hperm.mem_iff.1 hecho)
    obtain ⟨side', hside', htarget⟩ := List.mem_flatMap.1 htarget
    rw [Clients.sides, if_pos hid] at hside'
    obtain rfl := List.mem_singleton.1 hside'
    obtain ⟨selector, hobject⟩ := hlisted htarget
    exact ⟨selector, hobject⟩

theorem sound (hclients : clients.Suit settings)
    (hskips : settings.isMultiCluster = true → settings.skipIdentityCheck = true)
    (expected : Dict String Manifest.Service) :
    Survey.Sound clients stores settings features expected where
  clientPods := by
    intro hnil
    have hlength := (clients_seen h hperformance).length_eq
    rw [hnil] at hlength
    cases hlength
  clientNetworks := by
    refine hostNetwork_eq_false (clients_seen h hperformance) ?_
    simp only [List.map_cons, List.map_nil, List.forall_mem_cons]
    exact ⟨rfl, rfl, List.forall_mem_nil _⟩
  sameNode := by
    simpa using (sameNode_seen h hperformance).length_eq
  otherNode hspans := by
    simpa [hspans] using (otherNode_seen h hperformance).length_eq
  echoNetworks side := by
    refine hostNetwork_eq_false (echoes_seen h hperformance side) fun s hs => ?_
    obtain ⟨p, hp, rfl⟩ := List.mem_map.1 hs
    rcases List.mem_append.1 hp with hp | hp <;>
    · obtain rfl := List.mem_singleton.1 (List.mem_ite_nil_right.1 hp).2
      rfl
  services s hs := by
    obtain ⟨e, he, rfl⟩ := List.mem_map.1 hs
    have hperm := servicesKept_entries_perm h hperformance hclients
    obtain ⟨service, hservice, rfl⟩ := List.mem_map.1 (hperm.mem_iff.1 he)
    exact resolves_of_listed h hperformance hservice
  identities hchecks agent hagent := by
    have hsingle : settings.isMultiCluster = false := by
      rw [Bool.eq_false_iff]
      intro hmulti
      exact Bool.false_ne_true (hchecks.symm.trans (hskips hmulti))
    obtain ⟨side, -, hlisted⟩ := List.mem_flatMap.1 (Survey.mem_of_mem_values_addPods hagent)
    exact ⟨side, h.stands hlisted,
      judgeCache_found h hperformance hclients hsingle expected side⟩

end Soundness

end Reachability
