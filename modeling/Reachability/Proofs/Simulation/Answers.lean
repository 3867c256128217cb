import Mathlib.Data.List.Nodup
import Reachability.Cluster.Checks
import Reachability.Proofs.Simulation.Holdings

namespace Reachability.Simulation

open Manifest (Kind Object)
open Reachability.Topology (Item WorkloadKind nameSelector)

variable {ns cluster : String}

/-- A selector of one term asks for one label. -/
theorem Store.matchesSelector_term (labels : Labels) {key value selector : String}
    (hselector : selector = key ++ "=" ++ value) (hcomma : ',' ∉ selector.toList)
    (hkey : '=' ∉ key.toList) :
    Store.matchesSelector labels selector = (labels.get? key == some value) := by
  have hlist : selector.toList = key.toList ++ '=' :: value.toList := by
    simp [hselector]
  have hkept : ∀ c ∈ key.toList, (c != '=') = true := by
    intro c hc
    rw [bne_iff_ne]
    rintro rfl
    exact hkey hc
  have htake : (key.toList ++ '=' :: value.toList).takeWhile (· != '=') = key.toList := by
    simp [List.takeWhile_append_of_pos hkept]
  have hdrop : (key.toList ++ '=' :: value.toList).dropWhile (· != '=') = '=' :: value.toList := by
    simp [List.dropWhile_append_of_pos hkept]
  rw [matchesSelector, List.splitOn_eq_singleton hcomma, hlist]
  simp [htake, hdrop]

theorem Store.matchesSelector_kind (labels : Labels) (kind : WorkloadKind) :
    Store.matchesSelector labels kind.selector = (labels.get? "kind" == some kind.label) := by
  refine matchesSelector_term labels ?_ ?_ (by decide) <;> cases kind <;> decide

theorem Store.matchesSelector_name (labels : Labels) {name : String} (hname : ',' ∉ name.toList) :
    Store.matchesSelector labels (nameSelector name) = (labels.get? "name" == some name) := by
  refine matchesSelector_term labels (by rw [nameSelector]; rfl) ?_ (by decide)
  simpa [nameSelector] using hname

theorem getElem?_madePods (ns owner : String) (template : Manifest.PodTemplate) (count : Nat)
    (nodes : List Node) (k : Nat) : (madePods ns owner template count nodes)[k]? =
      (nodes[k]?).map fun node => (⟨ns, podName owner (count + k + 1)⟩,
        madePod ns owner template (count + k + 1) node) := by
  induction nodes generalizing count k with
  | nil => simp [madePods]
  | cons node nodes ih =>
    cases k with
    | zero => rfl
    | succ k =>
      rw [madePods, List.getElem?_cons_succ, ih, List.getElem?_cons_succ]
      simp only [Nat.add_assoc, Nat.add_comm 1]

/-- The pods have been numbered one after the other, and each is for one of these objects. -/
def Holdings.Numbered (cluster ns : String) (objects : List Object) (h : Holdings) : Prop :=
  ∀ (k : Nat) (e : ObjectKey × Manifest.Pod), h.pods[k]? = some e →
    ∃ o ∈ objects, ∃ node ∈ crew cluster o,
      e = (⟨ns, podName o.name (k + 1)⟩, madePod ns o.name (podTemplateOf o) (k + 1) node)

theorem mem_nodes_of_mem_crew {o : Object} {node : Node} (h : node ∈ crew cluster o) :
    node ∈ Store.nodes { name := cluster } := by
  cases o with
  | deployment d =>
    obtain rfl := List.eq_of_mem_replicate h
    unfold Store.nodeFor Store.nodes
    split <;> simp
  | daemonSet d => exact h
  | _ => cases h

theorem Holdings.Numbered.add {h : Holdings} {objects : List Object}
    (hh : h.Numbered cluster ns objects) {o : Object} (ho : o ∈ objects) :
    (h.add cluster ns o).Numbered cluster ns objects := by
  intro k e he
  rw [Holdings.add, List.getElem?_append] at he
  split at he
  next => exact hh k e he
  next hk =>
    rw [getElem?_madePods] at he
    obtain ⟨node, hnode, rfl⟩ := Option.map_eq_some_iff.1 he
    refine ⟨o, ho, node, List.mem_of_getElem? hnode, ?_⟩
    rw [show h.pods.length + (k - h.pods.length) = k by lia]

theorem Holdings.Numbered.addAll {h : Holdings} {all objects : List Object}
    (hh : h.Numbered cluster ns all) (hobjects : objects ⊆ all) :
    (h.addAll cluster ns objects).Numbered cluster ns all := by
  induction objects generalizing h with
  | nil => exact hh
  | cons o objects ih =>
    obtain ⟨ho, hobjects⟩ := List.cons_subset.1 hobjects
    exact ih (hh.add ho) hobjects

theorem numbered_holdings (cluster ns : String) (items : List Item) :
    (holdings cluster ns items).Numbered cluster ns (items.flatMap (·.objects)) :=
  Holdings.Numbered.addAll (fun _ _ he => by cases he) (List.Subset.refl _)

/-- Names of pods differ where owners or numbers do, as long as the numbers are small. -/
theorem podName_inj {owner owner' : String} {m n : Nat} (hm : m < 16) (hn : n < 16)
    (h : podName owner m = podName owner' n) : owner = owner' ∧ m = n := by
  have hlength : ∀ k < 16, (Store.paddedHex 5 k).toList.length = 5 := by decide
  have hdigits : ∀ k < 16, ∀ l < 16,
      (Store.paddedHex 5 k).toList = (Store.paddedHex 5 l).toList → k = l := by decide
  have hlists : (owner ++ "-").toList ++ (Store.paddedHex 5 m).toList =
      (owner' ++ "-").toList ++ (Store.paddedHex 5 n).toList := by
    simpa [podName] using congrArg String.toList h
  obtain ⟨howner, hnumber⟩ := List.append_inj' hlists (by rw [hlength m hm, hlength n hn])
  refine ⟨String.toList_inj.1 ?_, hdigits m hm n hn hnumber⟩
  simpa using howner

theorem Holdings.Numbered.nodup {h : Holdings} {objects : List Object}
    (hh : h.Numbered cluster ns objects) (hfew : h.pods.length < 15) :
    (h.pods.map Prod.fst).Nodup := by
  rw [List.nodup_iff_pairwise_ne, List.pairwise_map, List.pairwise_iff_getElem]
  intro j k hj hk hlt heq
  obtain ⟨_, -, _, -, hej⟩ := hh j _ (List.getElem?_eq_getElem hj)
  obtain ⟨_, -, _, -, hek⟩ := hh k _ (List.getElem?_eq_getElem hk)
  rw [hej, hek] at heq
  have hnumbers := (podName_inj (by lia) (by lia) (congrArg ObjectKey.name heq)).2
  lia

/-- A cluster that was fresh before these items came there: few pods in an ordinary namespace, and
objects in places of their own. -/
structure Store.Hosts (cluster ns : String) (items : List Item) (s : Store) : Prop
    extends s.Holds cluster (holdings cluster ns items) where
  few : (holdings cluster ns items).pods.length < 15
  apart : ((holdings cluster ns items).objects.map Prod.fst).Nodup
  ordinary : ns ≠ agentSpace

/-- The agents are in their namespace, each under its own name. -/
theorem key_of_mem_fresh {e : ObjectKey × Manifest.Pod}
    (he : e ∈ (Store.fresh cluster).pods.entries) :
    e.1.space = agentSpace ∧ e.1 = ⟨e.2.metadata.space.getD "", e.2.metadata.title⟩ := by
  have hmem := (Dict.mem_of_mem_entries_insertAll he).resolve_right List.not_mem_nil
  obtain ⟨i, hi, rfl⟩ := List.mem_mapIdx.1 hmem
  exact ⟨rfl, rfl⟩

theorem key_of_mem_holdings {items : List Item} {e : ObjectKey × Manifest.Pod}
    (he : e ∈ (holdings cluster ns items).pods) :
    e.1.space = ns ∧ e.1 = ⟨e.2.metadata.space.getD "", e.2.metadata.title⟩ := by
  obtain ⟨k, hk⟩ := List.mem_iff_getElem?.1 he
  obtain ⟨o, -, node, -, rfl⟩ := numbered_holdings cluster ns items k e hk
  exact ⟨rfl, rfl⟩

namespace Store.Hosts

variable {items : List Item} {s : Store}

/-- The pods of the run stand beside the agents. -/
theorem pods_perm (hs : s.Hosts cluster ns items) : s.pods.entries.Perm
    ((holdings cluster ns items).pods ++ (Store.fresh cluster).pods.entries) := by
  rw [hs.pods]
  refine Dict.entries_insertAll_perm ((numbered_holdings cluster ns items).nodup hs.few)
    fun e he => ?_
  refine Option.eq_none_iff_forall_ne_some.2 fun pod hpod => hs.ordinary ?_
  rw [← (key_of_mem_holdings he).1]
  exact (key_of_mem_fresh (Dict.mem_entries_iff.2 hpod)).1

/-- Every pod stands under its own name in its own namespace. -/
theorem get?_own (hs : s.Hosts cluster ns items) {space selector : String} {pod : Manifest.Pod}
    (hpod : pod ∈ s.listPods space selector) :
    s.pods.get? ⟨pod.metadata.space.getD "", pod.metadata.title⟩ = some pod := by
  obtain ⟨e, he, rfl⟩ := List.mem_map.1 hpod
  have he := (List.mem_filter.1 he).1
  have hkey : e.1 = ⟨e.2.metadata.space.getD "", e.2.metadata.title⟩ := by
    rcases List.mem_append.1 (hs.pods_perm.mem_iff.1 he) with hrun | hagent
    · exact (key_of_mem_holdings hrun).2
    · exact (key_of_mem_fresh hagent).2
  rw [← hkey]
  exact Dict.mem_entries_iff.1 he

/-- The pods that are listed in the namespace are those of the run with the labels asked for. -/
theorem listPods_perm (hs : s.Hosts cluster ns items) (selector : String) :
    (s.listPods ns selector).Perm
      (((holdings cluster ns items).pods.map Prod.snd).filter fun pod =>
        Store.matchesSelector pod.metadata.labels selector) := by
  have hagents : (Store.fresh cluster).pods.entries.filter (fun e =>
      e.1.space = ns && Store.matchesSelector e.2.metadata.labels selector) = [] := by
    rw [List.filter_eq_nil_iff]
    intro e he hkept
    simp only [Bool.and_eq_true, decide_eq_true_eq] at hkept
    exact hs.ordinary (hkept.1.symm.trans (key_of_mem_fresh he).1)
  have hrun : (holdings cluster ns items).pods.filter (fun e =>
      e.1.space = ns && Store.matchesSelector e.2.metadata.labels selector) =
      (holdings cluster ns items).pods.filter fun e =>
        Store.matchesSelector e.2.metadata.labels selector :=
    List.filter_congr fun e he => by simp [(key_of_mem_holdings he).1]
  have hperm := (hs.pods_perm.filter fun e =>
    e.1.space = ns && Store.matchesSelector e.2.metadata.labels selector).map Prod.snd
  rw [List.filter_append, hagents, List.append_nil, hrun] at hperm
  rwa [List.filter_map]

theorem space_of_mem (hs : s.Hosts cluster ns items) {selector : String} {pod : Manifest.Pod}
    (hpod : pod ∈ s.listPods ns selector) : pod.metadata.space.getD "" = ns := by
  obtain ⟨e, he, rfl⟩ :=
    List.mem_map.1 (List.mem_filter.1 ((hs.listPods_perm selector).mem_iff.1 hpod)).1
  obtain ⟨hspace, hkey⟩ := key_of_mem_holdings he
  rw [← hspace, hkey]

/-- No two of the pods that are listed have one name. -/
theorem names_nodup (hs : s.Hosts cluster ns items) (selector : String) :
    ((s.listPods ns selector).map (·.metadata.title)).Nodup := by
  have hkeys : (holdings cluster ns items).pods.map Prod.fst =
      (((holdings cluster ns items).pods.map Prod.snd).map (·.metadata.title)).map
        (ObjectKey.mk ns) := by
    simp only [List.map_map]
    refine List.map_congr_left fun e he => ?_
    obtain ⟨hspace, hkey⟩ := key_of_mem_holdings he
    rw [← hspace, hkey]
    rfl
  have hnodup := (numbered_holdings cluster ns items).nodup hs.few
  rw [hkeys] at hnodup
  refine ((hs.listPods_perm selector).map _).nodup_iff.2 ?_
  exact (List.Nodup.of_map _ hnodup).sublist (List.filter_sublist.map _)

end Store.Hosts

/-- What is known of a pod apart from its number. -/
structure Traits where
  labels : Labels
  nodeName : Option String
  hostNetwork : Option Bool
deriving DecidableEq

def traits (pod : Manifest.Pod) : Traits := ⟨pod.metadata.labels, pod.nodeName, pod.hostNetwork⟩

/-- The traits of the pods for an object. -/
def traitsOf (cluster : String) (o : Object) : List Traits :=
  (crew cluster o).map fun node =>
    { labels := (podTemplateOf o).metadata.labels
      nodeName := some node.name
      hostNetwork := if (podTemplateOf o).spec.hostNetwork then some true else none }

theorem map_traits_madePods (ns owner : String) (template : Manifest.PodTemplate) (count : Nat)
    (nodes : List Node) :
    (madePods ns owner template count nodes).map (fun e => traits e.2) =
      nodes.map fun node =>
        { labels := template.metadata.labels
          nodeName := some node.name
          hostNetwork := if template.spec.hostNetwork then some true else none } := by
  induction nodes generalizing count with
  | nil => rfl
  | cons node nodes ih =>
    rw [madePods, List.map_cons, List.map_cons, ih]
    rfl

theorem map_traits_addAll (cluster ns : String) (h : Holdings) (objects : List Object) :
    (h.addAll cluster ns objects).pods.map (fun e => traits e.2) =
      h.pods.map (fun e => traits e.2) ++ objects.flatMap (traitsOf cluster) := by
  induction objects generalizing h with
  | nil => simp [Holdings.addAll]
  | cons o objects ih =>
    refine (ih _).trans ?_
    rw [Holdings.add, List.map_append, map_traits_madePods, List.append_assoc]
    rfl

theorem map_traits_holdings (cluster ns : String) (items : List Item) :
    (holdings cluster ns items).pods.map (fun e => traits e.2) =
      (items.flatMap (·.objects)).flatMap (traitsOf cluster) :=
  map_traits_addAll cluster ns {} _

/-- The traits of the pods that are listed are those that the items call for. -/
theorem Store.Hosts.map_traits_perm {items : List Item} {s : Store}
    (hs : s.Hosts cluster ns items) (selector : String) :
    ((s.listPods ns selector).map traits).Perm
      (((items.flatMap (·.objects)).flatMap (traitsOf cluster)).filter fun t =>
        Store.matchesSelector t.labels selector) := by
  rw [← map_traits_holdings cluster ns items, ← Function.comp_def, ← List.map_map, List.filter_map]
  exact (hs.listPods_perm selector).map traits

theorem mem_addAll_objects {h : Holdings} {objects : List Object} {e : Place × Object}
    (he : e ∈ (h.addAll cluster ns objects).objects) :
    e ∈ h.objects ∨ ∃ o ∈ objects, ∃ services, e ∈ stored ns services o := by
  induction objects generalizing h with
  | nil => exact .inl he
  | cons o objects ih =>
    rcases ih he with hmem | ⟨o', ho', hstored⟩
    · rcases List.mem_append.1 hmem with hmem | hmem
      · exact .inl hmem
      · exact .inr ⟨o, List.mem_cons_self, h.services, hmem⟩
    · exact .inr ⟨o', List.mem_cons_of_mem _ ho', hstored⟩

theorem subset_addAll (cluster ns : String) (h : Holdings) (objects : List Object) :
    h.objects ⊆ (h.addAll cluster ns objects).objects := by
  induction objects generalizing h with
  | nil => exact fun _ he => he
  | cons o objects ih => exact fun _ he => ih _ (List.mem_append_left _ he)

/-- What is stored for an object is held, under some number. -/
theorem exists_stored_subset (cluster ns : String) (h : Holdings) {objects : List Object}
    {o : Object} (ho : o ∈ objects) : ∃ services, stored ns services o ⊆
      (h.addAll cluster ns objects).objects := by
  induction objects generalizing h with
  | nil => cases ho
  | cons o' objects ih =>
    rcases List.mem_cons.1 ho with rfl | ho
    · exact ⟨h.services, fun _ he => subset_addAll cluster ns (h.add cluster ns o) objects
        (List.mem_append_right _ he)⟩
    · exact ih _ ho

/-- A service as it is given out: at an address of its own, with a port on every node. -/
structure Served (ns : String) (p : Place) (service : Manifest.Service) : Prop where
  place : p = ⟨.service, ⟨ns, service.metadata.title⟩⟩
  type : service.type = some "NodePort"
  address : ∃ n : Nat, service.clusterIP = some ("10.96.0." ++ toString n)

theorem served_of_mem_holdings {items : List Item} {p : Place} {service : Manifest.Service}
    (he : (p, .service service) ∈ (holdings cluster ns items).objects) : Served ns p service := by
  rcases mem_addAll_objects he with hnone | ⟨o, ho, services, hstored⟩
  · cases hnone
  · obtain ⟨item, -, ho⟩ := List.mem_flatMap.1 ho
    cases item with
    | service d =>
      obtain rfl := List.mem_singleton.1 ho
      cases List.mem_singleton.1 hstored
      exact ⟨rfl, rfl, _, rfl⟩
    | ingress =>
      obtain rfl := List.mem_singleton.1 ho
      rcases List.mem_cons.1 hstored with hingress | hpublished
      · cases hingress
      · cases List.mem_singleton.1 hpublished
        exact ⟨rfl, rfl, _, rfl⟩
    | deployment w =>
      rcases List.mem_cons.1 ho with rfl | ho
      · cases List.mem_singleton.1 hstored
      · obtain rfl := List.mem_singleton.1 ho
        cases List.mem_singleton.1 hstored
    | _ =>
      obtain rfl := List.mem_singleton.1 ho
      cases List.mem_singleton.1 hstored

def service? : Object → Option Manifest.Service
  | .service s => some s
  | _ => none

/-- The name and the labels of a service, which it has before it gets an address. -/
def heading (s : Manifest.Service) : String × Labels := (s.metadata.title, s.metadata.labels)

/-- The headings of the services that an object brings. -/
def headingsOf (o : Object) : List (String × Labels) :=
  match o with
  | .service s => [heading s]
  | .ingress _ => [heading (Store.balancerService o.name)]
  | _ => []

theorem map_heading_stored (ns : String) (services : Nat) (o : Object) :
    ((stored ns services o).filterMap fun e => service? e.2).map heading = headingsOf o := by
  cases o <;> rfl

theorem map_heading_addAll (cluster ns : String) (h : Holdings) (objects : List Object) :
    ((h.addAll cluster ns objects).objects.filterMap fun e => service? e.2).map heading =
      (h.objects.filterMap fun e => service? e.2).map heading ++ objects.flatMap headingsOf := by
  induction objects generalizing h with
  | nil => simp [Holdings.addAll]
  | cons o objects ih =>
    refine (ih _).trans ?_
    rw [Holdings.add, List.filterMap_append, List.map_append, map_heading_stored,
      List.append_assoc]
    rfl

namespace Store.Hosts

variable {items : List Item} {s : Store}

theorem get?_object (hs : s.Hosts cluster ns items) {p : Place} {o : Object}
    (ho : (p, o) ∈ (holdings cluster ns items).objects) : s.objects.get? p = some o := by
  rw [hs.objects]
  exact Dict.get?_ofList_of_mem hs.apart ho

theorem listServices_perm (hs : s.Hosts cluster ns items) (selector : String) :
    (s.listServices ns selector).Perm
      (((holdings cluster ns items).objects.filterMap fun e => service? e.2).filter fun service =>
        Store.matchesSelector service.metadata.labels selector) := by
  have hperm : s.objects.entries.Perm (holdings cluster ns items).objects := by
    rw [hs.objects]
    exact Dict.entries_ofList_perm hs.apart
  refine (hperm.filterMap _).trans (.of_eq ?_)
  rw [List.filter_filterMap]
  refine List.filterMap_congr fun e he => ?_
  obtain ⟨p, o⟩ := e
  cases o with
  | service service =>
    have hspace : p.key.space = ns := by rw [(served_of_mem_holdings he).place]
    simp [service?, hspace, Option.filter]
  | _ => rfl

/-- The headings of the services that are listed are those that the items call for. -/
theorem map_heading_perm (hs : s.Hosts cluster ns items) (selector : String) :
    ((s.listServices ns selector).map heading).Perm
      (((items.flatMap (·.objects)).flatMap headingsOf).filter fun x =>
        Store.matchesSelector x.2 selector) := by
  have hheadings : ((holdings cluster ns items).objects.filterMap fun e => service? e.2).map
      heading = (items.flatMap (·.objects)).flatMap headingsOf :=
    map_heading_addAll cluster ns {} _
  rw [← hheadings, List.filter_map]
  exact (hs.listServices_perm selector).map heading

/-- A service that is listed stands under its name, at its address. -/
theorem served (hs : s.Hosts cluster ns items) {selector : String} {service : Manifest.Service}
    (hservice : service ∈ s.listServices ns selector) :
    service.type = some "NodePort" ∧ ∃ n : Nat,
      service.clusterIP = some ("10.96.0." ++ toString n) ∧
        s.clusterIPOf ⟨ns, service.metadata.title⟩ = some ("10.96.0." ++ toString n) := by
  obtain ⟨hheld, -⟩ := List.mem_filter.1 ((hs.listServices_perm selector).mem_iff.1 hservice)
  obtain ⟨⟨p, o⟩, ho, hservice⟩ := List.mem_filterMap.1 hheld
  cases o with
  | service service' =>
    obtain rfl := Option.some.inj hservice
    obtain ⟨rfl, htype, n, haddress⟩ := served_of_mem_holdings ho
    refine ⟨htype, n, haddress, ?_⟩
    rw [clusterIPOf, hs.get?_object ho]
    exact haddress
  | _ => cases hservice

/-- A deployment is there, and ready. -/
theorem get_deployment (hs : s.Hosts cluster ns items) {w : Topology.Workload}
    (hw : .deployment w ∈ items) :
    s.get .deployment ⟨ns, w.name⟩ = .ok (Store.settled ns (Manifest.deployment w)) := by
  have ho : .deployment (Manifest.deployment w) ∈ items.flatMap (·.objects) :=
    List.mem_flatMap.2 ⟨_, hw, List.mem_cons_of_mem _ List.mem_cons_self⟩
  obtain ⟨services, hstored⟩ := exists_stored_subset cluster ns {} ho
  have hget := hs.get?_object (hstored List.mem_cons_self)
  simp only [Store.get]
  rw [show s.objects.get? ⟨.deployment, ⟨ns, w.name⟩⟩ = _ from hget]

end Store.Hosts

theorem readiness_settled (ns : String) (d : Manifest.Deployment) :
    (Store.settled ns d).readiness = some (.ok ()) := by
  simp [Manifest.Deployment.readiness, Store.settled, Manifest.Deployment.readiness.settled]

namespace Store

variable {s : Store} {pod : ObjectKey} (shown : ObjectKey)

theorem exec_localhost (hpod : s.pods.contains pod = true) (server : String) :
    s.exec pod shown ["nslookup", "localhost", server] =
      .ok (serverAnswer "\n" "10.0.0.5" "localhost" "127.0.0.1") := by
  simp [exec, hpod]

theorem exec_clusterName (hpod : s.pods.contains pod = true) :
    s.exec pod shown ["nslookup", "kubernetes.default"] =
      .ok (serverAnswer "\n" "10.96.0.10" "kubernetes.default.svc.cluster.local" "10.96.0.1") := by
  simp [exec, hpod]

theorem exec_service (hpod : s.pods.contains pod = true) {service ip : String}
    (hservice : service ≠ "kubernetes.default")
    (hip : s.clusterIPOf ⟨pod.space, service⟩ = some ip) :
    s.exec pod shown ["nslookup", service] =
      .ok (serverAnswer "\r\n" "10.96.0.10"
        (service ++ "." ++ pod.space ++ ".svc.cluster.local") ip) := by
  simp [exec, hpod, hip]

theorem exec_port (hpod : s.pods.contains pod = true) (node port : String) :
    s.exec pod shown ["nc", "-w", "3", "-z", node, port] = .ok "" := by
  simp [exec, hpod]

theorem exec_cache (hpod : s.pods.contains pod = true) :
    s.exec pod shown Check.cacheCommand = .ok s.identityDump := by
  simp [exec, hpod, Check.cacheCommand]

end Store

end Reachability.Simulation
