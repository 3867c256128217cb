import Mathlib.Data.List.Nodup
import Reachability.Proofs.Cluster.Record
import Reachability.Proofs.Dict
import Reachability.Proofs.Validation.Network

namespace Reachability

open Reachability.Topology (Side WorkloadKind nameSelector)
open Wait (Instant Limits Moment Procedure)

variable {α β γ : Type}

theorem find?_eq_some_iff_of_nodup {f : α → String} {l : List α} (h : (l.map f).Nodup) {k : String}
    {a : α} : l.find? (fun a => f a == k) = some a ↔ a ∈ l ∧ f a = k := by
  constructor
  · intro hfind
    exact ⟨List.mem_of_find?_eq_some hfind, by simpa using List.find?_some hfind⟩
  · rintro ⟨ha, rfl⟩
    induction l with
    | nil => cases ha
    | cons b l ih =>
      obtain ⟨hb, hl⟩ := List.nodup_cons.1 h
      rcases List.mem_cons.1 ha with rfl | ha
      · simp
      · have hne : f b ≠ f a := fun heq => hb (heq ▸ List.mem_map_of_mem ha)
        rw [List.find?_cons_of_neg (by simpa using hne)]
        exact ih hl ha

namespace Survey

/-- Of pods with one name, the last stays. -/
theorem get?_addPods (d : Dict String Pod) (pods : List Pod) (k : String) :
    (addPods d pods).get? k = (pods.reverse.find? fun p => p.name == k).or (d.get? k) := by
  induction pods generalizing d with
  | nil => rfl
  | cons p pods ih =>
    have hfirst : addPods d (p :: pods) = addPods (d.insert p.name p) pods := rfl
    rw [hfirst, ih, List.reverse_cons, List.find?_append, Option.or_assoc]
    congr 1
    by_cases hk : p.name = k
    · simp [hk]
    · simp [hk, Dict.get?_insert, Ne.symm hk]

/-- Of two lists in which names are distinct, the second is held, and of the first those pods whose
names are not in the second. -/
theorem mem_values_addPods {first second : List Pod} (hfirst : (first.map Pod.name).Nodup)
    (hsecond : (second.map Pod.name).Nodup) {pod : Pod} :
    pod ∈ (addPods ∅ (first ++ second)).values ↔
      pod ∈ second ∨ pod ∈ first ∧ pod.name ∉ second.map Pod.name := by
  have hget (k : String) : (addPods ∅ (first ++ second)).get? k =
      (second.reverse.find? (·.name == k)).or (first.reverse.find? (·.name == k)) := by
    rw [get?_addPods, Dict.get?_empty, Option.or_none, List.reverse_append, List.find?_append]
  have hreverse {l : List Pod} (hl : (l.map Pod.name).Nodup) {k : String} {p : Pod} :
      l.reverse.find? (·.name == k) = some p ↔ p ∈ l ∧ p.name = k := by
    rw [find?_eq_some_iff_of_nodup (by simpa using hl), List.mem_reverse]
  have hnone {l : List Pod} {k : String} :
      l.reverse.find? (·.name == k) = none ↔ k ∉ l.map Pod.name := by
    simp
  simp only [Dict.mem_values_iff, hget, Option.or_eq_some_iff, hreverse hfirst, hreverse hsecond,
    hnone]
  constructor
  · rintro ⟨k, ⟨hmem, -⟩ | ⟨hout, hmem, rfl⟩⟩
    · exact .inl hmem
    · exact .inr ⟨hmem, hout⟩
  · rintro (hmem | ⟨hmem, hout⟩)
    · exact ⟨pod.name, .inl ⟨hmem, rfl⟩⟩
    · exact ⟨pod.name, .inr ⟨hout, hmem, rfl⟩⟩

/-- If the survey succeeds, then `post` holds of what it exchanges, its result and the inventory
that it leaves. -/
structure Gathers (s : Survey α) (i : Inventory) (post : List Exchange → α → Inventory → Prop) :
    Prop where
  holds {exchanges a i'} (h : (s.run.run i).Admits exchanges (.ok a, i')) : post exchanges a i'

namespace Gathers

variable {i : Inventory}

theorem pure (a : α) :
    Gathers (Pure.pure a) i fun exchanges a' i' => exchanges = [] ∧ a' = a ∧ i' = i := by
  refine ⟨?_⟩
  rintro exchanges a' i' ⟨rfl, ha⟩
  cases ha
  exact ⟨rfl, rfl, rfl⟩

theorem throw (f : Failure) (post : List Exchange → α → Inventory → Prop) :
    Gathers (MonadExcept.throw f) i post := by
  refine ⟨?_⟩
  rintro exchanges a' i' ⟨-, ha⟩
  cases ha

theorem mono {s : Survey α} {post post' : List Exchange → α → Inventory → Prop}
    (hs : s.Gathers i post) (hpost : ∀ exchanges a i', post exchanges a i' → post' exchanges a i') :
    s.Gathers i post' :=
  ⟨fun h => hpost _ _ _ (hs.holds h)⟩

theorem bind {s : Survey α} {f : α → Survey β} {post : List Exchange → α → Inventory → Prop}
    {post' : List Exchange → β → Inventory → Prop} (hs : s.Gathers i post)
    (hf : ∀ before a i', post before a i' →
      (f a).Gathers i' fun after b i'' => post' (before ++ after) b i'') :
    Gathers (s >>= f) i post' := by
  refine ⟨fun {exchanges b i''} h => ?_⟩
  obtain ⟨before, after, ⟨e | a, i'⟩, rfl, ha, hb⟩ :=
    Procedure.Admits.of_bind (p := s.run.run i) (b := (Except.ok b, i'')) h
  · obtain ⟨-, hb⟩ := hb
    cases hb
  · exact (hf before a i' (hs.holds ha)).holds hb

theorem record (f : Inventory → Inventory) :
    (Survey.record f).Gathers i fun exchanges _ i' => exchanges = [] ∧ i' = f i := by
  refine ⟨?_⟩
  rintro exchanges a' i' ⟨rfl, ha⟩
  cases ha
  exact ⟨rfl, rfl⟩

theorem check {allowed : Call → Prop} {c : Check α} (hc : c.Asks allowed) :
    (Survey.check c).Gathers i fun exchanges _ i' =>
      (∀ x ∈ exchanges, allowed x.call) ∧ i' = i := by
  refine ⟨fun {exchanges a i'} h => ?_⟩
  obtain ⟨before, after, r, rfl, hr, rfl, ha⟩ :=
    Procedure.Admits.of_bind (p := c.run) (b := (Except.ok a, i')) h
  cases ha
  rw [List.append_nil]
  exact ⟨hc.asks _ _ hr, rfl⟩

/-- A request that succeeds is made once. -/
theorem request (what : String) (cluster : Cluster) (r : Request) :
    (Survey.request what cluster r).Gathers i fun exchanges answer i' =>
      exchanges = [⟨⟨cluster, r⟩, .ok answer⟩] ∧ i' = i := by
  refine ⟨fun {exchanges answer i'} h => ?_⟩
  obtain ⟨before, after, a, rfl, ha, rfl, hanswer⟩ := Procedure.Admits.of_bind
    (p := (Check.request what cluster r).run) (b := (Except.ok answer, i')) h
  cases hanswer
  obtain ⟨tried, _, answer', rfl, htried, rfl, rfl⟩ := ha
  rcases htried with ⟨_, _, rfl, rfl, rfl⟩ | ⟨_, _, _, _, hinterrupted⟩
  · exact ⟨rfl, rfl⟩
  · cases hinterrupted

theorem listPods (what : String) (cluster : Cluster) (ns selector : String) :
    (Survey.listPods what cluster ns selector).Gathers i fun exchanges pods i' =>
      ∃ objects : List Manifest.Pod,
        exchanges = [⟨⟨cluster, .listPods ns selector⟩, .ok objects⟩] ∧
        pods = objects.map (fun object => { cluster, object }) ∧ i' = i := by
  refine .bind (request what cluster (.listPods ns selector)) ?_
  rintro before (objects : List Manifest.Pod) _ ⟨rfl, rfl⟩
  refine (pure _).mono ?_
  rintro after pods i' ⟨rfl, rfl, rfl⟩
  exact ⟨objects, rfl, rfl, rfl⟩

/-- Clusters that are asked one after the other for their pods. -/
theorem forM_clusters
    {post : List (Cluster × List Manifest.Pod) → List Exchange → Inventory → Inventory → Prop}
    {f : Cluster → Survey Unit} (hnil : ∀ i, post [] [] i i)
    (hcons : ∀ cluster i, (f cluster).Gathers i fun before _ i' => ∃ objects, ∀ listed after i'',
      post listed after i' i'' → post ((cluster, objects) :: listed) (before ++ after) i i'')
    (clusters : List Cluster) (i : Inventory) :
    (clusters.forM f).Gathers i fun exchanges _ i' =>
      ∃ listed, listed.map Prod.fst = clusters ∧ post listed exchanges i i' := by
  induction clusters generalizing i with
  | nil =>
    refine (pure ()).mono ?_
    rintro _ _ _ ⟨rfl, -, rfl⟩
    exact ⟨[], rfl, hnil _⟩
  | cons cluster clusters ih =>
    refine .bind (hcons cluster i) ?_
    rintro before _ i' ⟨objects, hpost⟩
    refine (ih i').mono ?_
    rintro after _ i'' ⟨listed, rfl, hlisted⟩
    exact ⟨(cluster, objects) :: listed, rfl, hpost listed after i'' hlisted⟩

end Gathers

/-- The list of echo pods in a namespace. -/
def echoListing (ns : String) : Request := .listPods ns WorkloadKind.echo.selector

/-- The survey leaves the agents and echo pods of the inventory alone, and lists no echo pods. -/
structure Passes (ns : String) (s : Survey α) : Prop where
  gathers (i : Inventory) : s.Gathers i fun exchanges _ i' =>
    i'.agentPods = i.agentPods ∧ i'.echoPods = i.echoPods ∧
      ∀ x ∈ exchanges, x.call.request ≠ echoListing ns

namespace Passes

variable {ns : String}

theorem pure (a : α) : Passes ns (Pure.pure a) := by
  refine ⟨fun i => (Gathers.pure a).mono ?_⟩
  rintro exchanges _ i' ⟨rfl, -, rfl⟩
  exact ⟨rfl, rfl, List.forall_mem_nil _⟩

theorem throw (f : Failure) : Passes ns (MonadExcept.throw f : Survey α) :=
  ⟨fun _ => .throw f _⟩

theorem bind {s : Survey α} {f : α → Survey β} (hs : s.Passes ns) (hf : ∀ a, (f a).Passes ns) :
    Passes ns (s >>= f) := by
  refine ⟨fun i => .bind (hs.gathers i) ?_⟩
  rintro before a i' ⟨hagents, hechoes, hbefore⟩
  refine ((hf a).gathers i').mono ?_
  rintro after _ i'' ⟨hagents', hechoes', hafter⟩
  exact ⟨hagents'.trans hagents, hechoes'.trans hechoes, List.forall_mem_append.2 ⟨hbefore, hafter⟩⟩

/-- A part that is left out under some condition. -/
theorem ite_bind {q : Prop} [Decidable q] {s : Survey Unit} {f : Unit → Survey β}
    (hs : s.Passes ns) (hf : ∀ a, (f a).Passes ns) :
    Passes ns (if q then s >>= f else f ()) := by
  split
  · exact hs.bind hf
  · exact hf ()

theorem forM {f : γ → Survey Unit} {l : List γ} (hf : ∀ a ∈ l, (f a).Passes ns) :
    (l.forM f).Passes ns := by
  induction l with
  | nil => exact .pure ()
  | cons a l ih =>
    obtain ⟨ha, hl⟩ := List.forall_mem_cons.1 hf
    exact .bind ha fun _ => ih hl

theorem check {c : Check α} (hc : c.Asks (·.request ≠ echoListing ns)) :
    (Survey.check c).Passes ns := by
  refine ⟨fun i => (Gathers.check hc).mono ?_⟩
  rintro exchanges _ i' ⟨hrequests, rfl⟩
  exact ⟨rfl, rfl, hrequests⟩

/-- Checks list nothing. -/
theorem query {c : Check α} (hc : c.Asks (·.request.Queries)) : (Survey.check c).Passes ns := by
  refine .check (hc.mono fun call hquery heq => ?_)
  rw [heq] at hquery
  exact hquery

theorem record {f : Inventory → Inventory}
    (hf : ∀ i, (f i).agentPods = i.agentPods ∧ (f i).echoPods = i.echoPods) :
    (Survey.record f).Passes ns := by
  refine ⟨fun i => (Gathers.record f).mono ?_⟩
  rintro exchanges _ i' ⟨rfl, rfl⟩
  exact ⟨(hf i).1, (hf i).2, List.forall_mem_nil _⟩

theorem inventory : Survey.inventory.Passes ns := by
  refine ⟨fun i => ⟨?_⟩⟩
  rintro exchanges a i' ⟨rfl, ha⟩
  cases ha
  exact ⟨rfl, rfl, List.forall_mem_nil _⟩

theorem listPods {what : String} {cluster : Cluster} {ns' selector : String}
    (h : selector ≠ WorkloadKind.echo.selector) :
    (Survey.listPods what cluster ns' selector).Passes ns := by
  refine ⟨fun i => (Gathers.listPods ..).mono ?_⟩
  rintro exchanges pods i' ⟨objects, rfl, -, rfl⟩
  refine ⟨rfl, rfl, fun x hx heq => ?_⟩
  obtain rfl := List.mem_singleton.1 hx
  exact h (Request.listPods.inj heq).2

end Passes

variable {ns : String} (clients : Clients) (settings : Settings) (features : FeatureSet)

theorem deployments_passes (cluster : Cluster) (names : List String) :
    (deployments cluster settings names).Passes ns := by
  unfold deployments
  split
  · exact .pure ()
  · exact .query (Check.deployments_asks ..)

theorem endpoint_passes (pod : Pod) : (endpoint settings pod).Passes ns :=
  .query (Check.endpoint_asks ..)

theorem performancePods_passes : (performancePods clients settings).Passes ns := by
  refine .bind (.listPods (by decide)) fun pods => .forM fun pod _ => ?_
  refine .ite_bind (endpoint_passes settings pod) fun _ => .record fun i => ?_
  split <;> exact ⟨rfl, rfl⟩

theorem clientPods_passes : (clientPods clients settings).Passes ns :=
  .bind (.listPods (by decide)) fun _ => .forM fun pod _ =>
    .bind (endpoint_passes settings pod) fun _ => .record fun _ => ⟨rfl, rfl⟩

theorem echoPodNames_passes {deployment : String}
    (h : nameSelector deployment ≠ WorkloadKind.echo.selector) (cluster : Cluster) (what : String) :
    (echoPodNames cluster settings deployment what).Passes ns := by
  refine .bind (.bind (.listPods h) fun pods => ?_) fun target => .bind .inventory fun _ =>
    .query (.within (.forM fun _ _ => Check.podNames_asks _ target) _)
  split
  · exact .pure _
  · exact .throw _

theorem clusterNames_passes : (clusterNames settings).Passes ns :=
  .bind .inventory fun _ => .query (.within (.forM fun _ _ => Check.clusterNames_asks _) _)

theorem externalEchoPods_passes : (externalEchoPods clients settings).Passes ns :=
  .bind (.listPods (by decide)) fun _ => .record fun _ => ⟨rfl, rfl⟩

theorem echoServices_passes : (echoServices clients settings).Passes ns := by
  refine .forM fun cluster _ => .bind ?_ fun _ => .record fun _ => ⟨rfl, rfl⟩
  exact .check (.request nofun _)

theorem resolvedServices_passes : (resolvedServices settings).Passes ns :=
  .bind .inventory fun _ => .forM fun _ _ => .query (Check.service_asks ..)

theorem ingressServices_passes : (ingressServices clients settings).Passes ns := by
  refine .bind ?_ fun _ => .record fun _ => ⟨rfl, rfl⟩
  exact .check (.request nofun _)

theorem nodePorts_passes : (nodePorts settings).Passes ns := by
  refine .bind .inventory fun i => .forM fun agent _ => ?_
  split
  · exact .pure ()
  · exact .forM fun _ _ => .query (Check.nodePorts_asks ..)

theorem hostNetworkPods_passes : (hostNetworkPods clients settings).Passes ns :=
  .bind (.listPods (by decide)) fun _ => .record fun _ => ⟨rfl, rfl⟩

theorem externalWorkloads_passes : (externalWorkloads clients).Passes ns := by
  refine .forM fun cluster _ => .bind ?_ fun answer => ?_
  · exact .check (.attempt (.request nofun _))
  split
  · exact .record fun _ => ⟨rfl, rfl⟩
  · split
    · exact .pure ()
    · exact .throw _

theorem identities_passes : (identities settings).Passes ns :=
  .bind .inventory fun _ =>
    .query (.within (.forM fun _ _ => Check.identities_asks ..) _)

/-- What follows the echo pods. -/
def afterEchoPods : Survey Unit := do
  echoServices clients settings
  resolvedServices settings
  if features.enabled .ingressController then ingressServices clients settings
  if !settings.isMultiCluster then nodePorts settings
  hostNetworkPods clients settings
  externalWorkloads clients
  if !settings.skipIdentityCheck then identities settings

theorem afterEchoPods_passes : (afterEchoPods clients settings features).Passes ns := by
  refine .bind (echoServices_passes clients settings) fun _ => ?_
  refine .bind (resolvedServices_passes settings) fun _ => ?_
  refine .ite_bind (ingressServices_passes clients settings) fun _ => ?_
  refine .ite_bind (nodePorts_passes settings) fun _ => ?_
  refine .bind (hostNetworkPods_passes clients settings) fun _ => ?_
  refine .bind (externalWorkloads_passes clients) fun _ => ?_
  split
  · exact identities_passes settings
  · exact .pure ()

/-- The answers of some clusters to one list request. -/
def listings (ns selector : String) (listed : List (Cluster × List Manifest.Pod)) :
    List Exchange :=
  listed.map fun (cluster, objects) => ⟨⟨cluster, .listPods ns selector⟩, .ok objects⟩

/-- The listed pods with their clusters. -/
def listedPods (listed : List (Cluster × List Manifest.Pod)) : List Pod :=
  listed.flatMap fun (cluster, objects) => objects.map fun object => { cluster, object }

theorem addPods_append (d : Dict String Pod) (pods pods' : List Pod) :
    addPods d (pods ++ pods') = addPods (addPods d pods) pods' :=
  List.foldl_append

theorem listedPods_cons (cluster : Cluster) (objects : List Manifest.Pod)
    (listed : List (Cluster × List Manifest.Pod)) : listedPods ((cluster, objects) :: listed) =
      objects.map (fun object => ({ cluster, object } : Pod)) ++ listedPods listed :=
  rfl

/-- These agents have been listed and recorded. -/
def AgentsListed (settings : Settings) (listed : List (Cluster × List Manifest.Pod))
    (exchanges : List Exchange) (i i' : Inventory) : Prop :=
  exchanges = listings settings.agentNamespace settings.agentSelector listed ∧
  i'.agentPods = addPods i.agentPods (listedPods listed) ∧ i'.echoPods = i.echoPods

/-- These echo pods have been listed and recorded, with the endpoint at which they answer. -/
def EchoesListed (settings : Settings) (listed : List (Cluster × List Manifest.Pod))
    (exchanges : List Exchange) (i i' : Inventory) : Prop :=
  exchanges.filter (·.call.request = echoListing settings.testNamespace) =
    listings settings.testNamespace WorkloadKind.echo.selector listed ∧
  i'.agentPods = i.agentPods ∧
  i'.echoPods =
    addPods i.echoPods ((listedPods listed).map (·.withEndpoint "http" Topology.echoPort))

theorem agentPods_gathers (i : Inventory) :
    (agentPods clients settings).Gathers i fun exchanges _ i' => ∃ listed,
      listed.map Prod.fst = clients.distinct ∧ AgentsListed settings listed exchanges i i' := by
  have hnil (i : Inventory) : AgentsListed settings [] [] i i := ⟨rfl, rfl, rfl⟩
  refine Gathers.forM_clusters hnil (fun cluster i => ?_) _ i
  refine .bind (.listPods ..) ?_
  rintro _ _ _ ⟨objects, rfl, rfl, rfl⟩
  refine (Gathers.record _).mono ?_
  rintro _ _ _ ⟨rfl, rfl⟩
  refine ⟨objects, ?_⟩
  rintro listed after i'' ⟨rfl, hagents, hechoes⟩
  exact ⟨rfl, by rw [hagents, listedPods_cons, addPods_append], hechoes⟩

/-- Records an echo pod once its endpoint is there. -/
def recordEchoPod (pod : Pod) : Survey Unit := do
  endpoint settings pod
  record fun i =>
    { i with echoPods := i.echoPods.insert pod.name (pod.withEndpoint "http" Topology.echoPort) }

theorem recordEchoPod_gathers (pod : Pod) (i : Inventory) :
    (recordEchoPod settings pod).Gathers i fun exchanges _ i' =>
      (∀ x ∈ exchanges, x.call.request ≠ echoListing settings.testNamespace) ∧
      i'.agentPods = i.agentPods ∧
      i'.echoPods = addPods i.echoPods [pod.withEndpoint "http" Topology.echoPort] := by
  have hendpoint : (endpoint settings pod).Passes settings.testNamespace :=
    endpoint_passes settings pod
  refine .bind (hendpoint.gathers i) ?_
  rintro before _ i' ⟨hagents, hechoes, hbefore⟩
  refine (Gathers.record _).mono ?_
  rintro _ _ _ ⟨rfl, rfl⟩
  refine ⟨by rwa [List.append_nil], hagents, ?_⟩
  rw [← hechoes]
  rfl

theorem recordEchoPods_gathers (pods : List Pod) (i : Inventory) :
    Gathers (pods.forM (recordEchoPod settings)) i fun exchanges _ i' =>
      (∀ x ∈ exchanges, x.call.request ≠ echoListing settings.testNamespace) ∧
      i'.agentPods = i.agentPods ∧
      i'.echoPods = addPods i.echoPods (pods.map (·.withEndpoint "http" Topology.echoPort)) := by
  induction pods generalizing i with
  | nil =>
    refine (Gathers.pure ()).mono ?_
    rintro _ _ _ ⟨rfl, -, rfl⟩
    exact ⟨List.forall_mem_nil _, rfl, rfl⟩
  | cons pod pods ih =>
    refine .bind (recordEchoPod_gathers settings pod i) ?_
    rintro before _ i' ⟨hbefore, hagents, hechoes⟩
    refine (ih i').mono ?_
    rintro after _ i'' ⟨hafter, hagents', hechoes'⟩
    refine ⟨List.forall_mem_append.2 ⟨hbefore, hafter⟩, hagents'.trans hagents, ?_⟩
    rw [hechoes', hechoes, ← addPods_append]
    rfl

theorem echoPods_gathers (i : Inventory) :
    (echoPods clients settings).Gathers i fun exchanges _ i' => ∃ listed,
      listed.map Prod.fst = clients.distinct ∧ EchoesListed settings listed exchanges i i' := by
  have hnil (i : Inventory) : EchoesListed settings [] [] i i := ⟨rfl, rfl, rfl⟩
  refine Gathers.forM_clusters hnil (fun cluster i => ?_) _ i
  refine .bind (.listPods ..) ?_
  rintro _ _ _ ⟨objects, rfl, rfl, rfl⟩
  refine (recordEchoPods_gathers settings _ _).mono ?_
  rintro before _ i' ⟨hbefore, hagents, hechoes⟩
  refine ⟨objects, ?_⟩
  rintro listed after i'' ⟨hafter, hagents', hechoes'⟩
  refine ⟨?_, hagents'.trans hagents, ?_⟩
  · have hnone : before.filter (·.call.request = echoListing settings.testNamespace) = [] := by
      simpa [List.filter_eq_nil_iff] using hbefore
    rw [List.filter_append, List.filter_append, hnone, List.append_nil, hafter]
    simp [listings, echoListing]
  · rw [hechoes', hechoes, listedPods_cons, List.map_append, addPods_append]

/-- The survey lists the echo pods of every cluster once and records them. -/
structure FindsEchoes (s : Survey α) : Prop where
  gathers (i : Inventory) : s.Gathers i fun exchanges _ i' => ∃ listed,
    listed.map Prod.fst = clients.distinct ∧ EchoesListed settings listed exchanges i i'

theorem filter_echoListing_eq_nil {exchanges : List Exchange}
    (h : ∀ x ∈ exchanges, x.call.request ≠ echoListing ns) :
    exchanges.filter (·.call.request = echoListing ns) = [] := by
  simpa [List.filter_eq_nil_iff] using h

variable {clients settings}

theorem FindsEchoes.after {s : Survey α} {f : α → Survey β} (hs : s.Passes settings.testNamespace)
    (hf : ∀ a, (f a).FindsEchoes clients settings) : FindsEchoes clients settings (s >>= f) := by
  refine ⟨fun i => .bind (hs.gathers i) ?_⟩
  rintro before a i' ⟨hagents, hechoes, hbefore⟩
  refine ((hf a).gathers i').mono ?_
  rintro exchanges _ i'' ⟨listed, hclusters, hlisted, hagents', hechoes'⟩
  refine ⟨listed, hclusters, ?_, hagents'.trans hagents, by rw [hechoes', hechoes]⟩
  rw [List.filter_append, filter_echoListing_eq_nil hbefore, List.nil_append, hlisted]

theorem FindsEchoes.before {s : Survey α} {f : α → Survey β} (hs : s.FindsEchoes clients settings)
    (hf : ∀ a, (f a).Passes settings.testNamespace) : FindsEchoes clients settings (s >>= f) := by
  refine ⟨fun i => .bind (hs.gathers i) ?_⟩
  rintro exchanges a i' ⟨listed, hclusters, hlisted, hagents, hechoes⟩
  refine ((hf a).gathers i').mono ?_
  rintro after _ i'' ⟨hagents', hechoes', hafter⟩
  refine ⟨listed, hclusters, ?_, hagents'.trans hagents, hechoes'.trans hechoes⟩
  rw [List.filter_append, filter_echoListing_eq_nil hafter, List.append_nil, hlisted]

/-- A part before the echo pods that is left out under some condition. -/
theorem FindsEchoes.ite_after {q : Prop} [Decidable q] {s : Survey Unit} {f : Unit → Survey β}
    (hs : s.Passes settings.testNamespace) (hf : ∀ a, (f a).FindsEchoes clients settings) :
    FindsEchoes clients settings (if q then s >>= f else f ()) := by
  split
  · exact .after hs hf
  · exact hf ()

theorem connectivity_findsEchoes :
    (connectivity clients settings features).FindsEchoes clients settings := by
  refine .after (clientPods_passes clients settings) fun _ => ?_
  refine .after (echoPodNames_passes settings (by decide) ..) fun _ => ?_
  refine .ite_after (echoPodNames_passes settings (by decide) ..) fun _ => ?_
  refine .ite_after (externalEchoPods_passes clients settings) fun _ => ?_
  refine .after (clusterNames_passes settings) fun _ => ?_
  exact .before ⟨echoPods_gathers clients settings⟩ fun _ =>
    afterEchoPods_passes clients settings features

theorem inspection_findsEchoes (hperformance : settings.performance = false) :
    (inspection clients settings features).FindsEchoes clients settings := by
  refine .after (deployments_passes settings ..) fun _ => ?_
  refine .after (deployments_passes settings ..) fun _ => ?_
  rw [if_neg (by simp [hperformance])]
  exact connectivity_findsEchoes features

theorem inspection_passes (hperformance : settings.performance = true) :
    (inspection clients settings features).Passes ns := by
  refine .bind (deployments_passes settings ..) fun _ => ?_
  refine .bind (deployments_passes settings ..) fun _ => ?_
  rw [if_pos hperformance]
  exact performancePods_passes clients settings

end Survey

open Survey (addPods echoListing listedPods listings)

/-- A validation lists the agents of every cluster, and after that, unless pods are measured, the
echo pods of every cluster. It records them all. -/
theorem validate_gathers (clients : Clients) (settings : Settings) (features : FeatureSet) :
    (validate clients settings features).Gathers ∅ fun exchanges _ i =>
      ∃ agents after, agents.map Prod.fst = clients.distinct ∧
        exchanges = listings settings.agentNamespace settings.agentSelector agents ++ after ∧
        i.agentPods = addPods ∅ (listedPods agents) ∧
        (settings.performance = false → ∃ echoes, echoes.map Prod.fst = clients.distinct ∧
          after.filter (·.call.request = echoListing settings.testNamespace) =
            listings settings.testNamespace WorkloadKind.echo.selector echoes ∧
          i.echoPods =
            addPods ∅ ((listedPods echoes).map (·.withEndpoint "http" Topology.echoPort))) := by
  rw [validate_eq]
  refine .bind (Survey.agentPods_gathers clients settings ∅) ?_
  rintro _ _ i ⟨agents, hclusters, rfl, hagents, hechoes⟩
  cases hperformance : settings.performance with
  | false =>
    refine ((Survey.inspection_findsEchoes features hperformance).gathers i).mono ?_
    rintro after _ i' ⟨echoes, hclusters', hlisted, hagents', hechoes'⟩
    refine ⟨agents, after, hclusters, rfl, hagents'.trans hagents, fun _ => ?_⟩
    exact ⟨echoes, hclusters', hlisted, by rw [hechoes', hechoes]; rfl⟩
  | true =>
    have hpasses : (Survey.inspection clients settings features).Passes settings.testNamespace :=
      Survey.inspection_passes features hperformance
    refine (hpasses.gathers i).mono ?_
    rintro after _ i' ⟨hagents', -, -⟩
    exact ⟨agents, after, hclusters, rfl, hagents'.trans hagents, nofun⟩

/-- Of two clusters that have listed pods, those are held, each with its cluster, that the
destination has listed, and those of the source whose names the destination has not listed. -/
def HoldsListed (clients : Clients) (listed : Side → List Manifest.Pod) (seenAs : Pod → Pod)
    (d : Dict String Pod) : Prop :=
  ∀ pod, pod ∈ d.values ↔
    (∃ o ∈ listed .destination, pod = seenAs { cluster := clients.destination, object := o }) ∨
    ∃ o ∈ listed .source, pod = seenAs { cluster := clients.source, object := o } ∧
      ∀ o' ∈ listed .destination, o'.metadata.title ≠ o.metadata.title

theorem holdsListed_addPods (clients : Clients) (listed : Side → List Manifest.Pod)
    (seenAs : Pod → Pod) (hname : ∀ p, (seenAs p).name = p.name)
    (hnodup : ∀ side, ((listed side).map (·.metadata.title)).Nodup) :
    HoldsListed clients listed seenAs (addPods ∅ ((listedPods
      [(clients.source, listed .source), (clients.destination, listed .destination)]).map
        seenAs)) := by
  let seen (side : Side) : List Pod :=
    (listed side).map fun object => seenAs { cluster := clients.get side, object }
  have hnames (side : Side) : (seen side).map Pod.name =
      (listed side).map (·.metadata.title) := by
    simp only [seen, List.map_map]
    exact List.map_congr_left fun object _ => hname _
  have hdistinct (side : Side) : ((seen side).map Pod.name).Nodup := by
    rw [hnames]
    exact hnodup side
  have hseen : (listedPods [(clients.source, listed .source),
      (clients.destination, listed .destination)]).map seenAs =
      seen .source ++ seen .destination := by
    simp [listedPods, seen, Clients.get, Function.comp_def]
  intro pod
  rw [hseen, Survey.mem_values_addPods (hdistinct .source) (hdistinct .destination),
    hnames .destination]
  simp only [seen, List.mem_map, Clients.get]
  constructor
  · rintro (⟨o, ho, rfl⟩ | ⟨⟨o, ho, rfl⟩, hout⟩)
    · exact .inl ⟨o, ho, rfl⟩
    · refine .inr ⟨o, ho, rfl, fun o' ho' heq => hout ⟨o', ho', ?_⟩⟩
      rw [hname]
      exact heq
  · rintro (⟨o, ho, rfl⟩ | ⟨o, ho, rfl, hother⟩)
    · exact .inl ⟨o, ho, rfl⟩
    · refine .inr ⟨⟨o, ho, rfl⟩, ?_⟩
      rintro ⟨o', ho', heq⟩
      rw [hname] at heq
      exact hother o' ho' heq

/-- Each of two clusters has been listed once. -/
theorem exists_sides {clients : Clients} (hclients : clients.source.id ≠ clients.destination.id)
    {listed : List (Cluster × List Manifest.Pod)}
    (h : listed.map Prod.fst = clients.distinct) : ∃ pods : Side → List Manifest.Pod,
      listed = [(clients.source, pods .source), (clients.destination, pods .destination)] := by
  rw [Clients.distinct, if_neg hclients] at h
  match listed, h with
  | [(_, sourcePods), (_, destinationPods)], h =>
    cases h
    exact ⟨@Side.rec (fun _ => List Manifest.Pod) sourcePods destinationPods, rfl⟩

/-- A validation between two clusters that succeeds has listed the agents of both and then, unless
pods are measured, the echo pods of both. If no list has a name twice, it holds the pods that the
destination listed, and those that the source listed under names that the destination did not list
too: pods are held by name alone, and the destination comes last. -/
theorem validate_holds_listed (w : Wait.World clusterApi) (clients : Clients)
    (hclients : clients.source.id ≠ clients.destination.id) (settings : Settings)
    (features : FeatureSet) (patience : Nat) (l : Limits) (t : Instant) (s : w.State)
    {i : Inventory} {m : Moment w}
    (hrun : ((validate clients settings features).run.run ∅).run w patience l ⟨t, s, []⟩ =
      (.returned (.ok (), i), m)) :
    ∃ (agents : Side → List Manifest.Pod) (after : List Exchange),
      ((validate clients settings features).run.run ∅).exchanges w patience l t s =
        [⟨⟨clients.source, .listPods settings.agentNamespace settings.agentSelector⟩,
            .ok (agents .source)⟩,
          ⟨⟨clients.destination, .listPods settings.agentNamespace settings.agentSelector⟩,
            .ok (agents .destination)⟩] ++ after ∧
      ((∀ side, ((agents side).map (·.metadata.title)).Nodup) →
        HoldsListed clients agents id i.agentPods) ∧
      (settings.performance = false → ∃ echoes : Side → List Manifest.Pod,
        after.filter (·.call.request = echoListing settings.testNamespace) =
          [⟨⟨clients.source, echoListing settings.testNamespace⟩, .ok (echoes .source)⟩,
            ⟨⟨clients.destination, echoListing settings.testNamespace⟩,
              .ok (echoes .destination)⟩] ∧
        ((∀ side, ((echoes side).map (·.metadata.title)).Nodup) →
          HoldsListed clients echoes (·.withEndpoint "http" Topology.echoPort) i.echoPods)) := by
  obtain ⟨agents, after, hclusters, hexchanges, hagents, hechoes⟩ :=
    (validate_gathers clients settings features).holds (Procedure.admits_exchanges hrun)
  obtain ⟨agents, rfl⟩ := exists_sides hclients hclusters
  refine ⟨agents, after, hexchanges, fun hnodup => ?_, fun hperformance => ?_⟩
  · have hholds := holdsListed_addPods clients agents id (fun _ => rfl) hnodup
    rwa [List.map_id, ← hagents] at hholds
  · obtain ⟨echoes, hclusters, hlisted, hechoes⟩ := hechoes hperformance
    obtain ⟨echoes, rfl⟩ := exists_sides hclients hclusters
    refine ⟨echoes, hlisted, fun hnodup => ?_⟩
    rw [hechoes]
    exact holdsListed_addPods clients echoes _ (fun _ => rfl) hnodup

/-- The echo pods of each of the twins. -/
def twinEchoes : List Manifest.Pod :=
  [calmPod Topology.echoSameNodeName "10.0.1.2", calmPod Topology.echoOtherNodeName "10.0.1.3"]

/-- What each of two clusters answers that are alike down to the names of their pods. -/
def twinAnswer : (r : Request) → Except Failure r.Answer
  | .listPods space selector =>
    if selector = WorkloadKind.echo.selector then .ok twinEchoes
    else if selector = nameSelector Topology.echoOtherNodeName then
      .ok [calmPod Topology.echoOtherNodeName "10.0.1.3"]
    else calmAnswer (.listPods space selector)
  | r => calmAnswer r

/-- Two clusters that are alike, where everything works at once. -/
def twinNetwork : Wait.World clusterApi where
  State := Unit
  start _ c := ((), some (1, fun _ => ((), twinAnswer c.request)))
  choose _ _ := ((), ⟨0, Nat.succ_pos _⟩)

def twinClients : Clients := ⟨⟨0, "kind-a"⟩, ⟨1, "kind-b"⟩⟩

def twinSettings : Settings := { multiCluster := "kind-b", skipIdentityCheck := true }

/-- What a validation of the twins leaves. -/
def twinInventory : Inventory :=
  let held (object : Manifest.Pod) : Pod := { cluster := twinClients.destination, object }
  let client : Pod := { cluster := twinClients.source, object := calmPod "client" "10.0.1.1" }
  { agentPods := .ofList [("cilium", held (calmPod "cilium" "10.0.0.1"))]
    clientPods := .ofList [("client", client)]
    echoPods := .ofList (twinEchoes.map fun object =>
      (object.metadata.title, (held object).withEndpoint "http" Topology.echoPort))
    echoServices := .ofList [(Topology.echoSameNodeName, calmService)] }

theorem twinNetwork_run : ∃ m : Moment twinNetwork,
    ((validate twinClients twinSettings ∅).run.run ∅).run twinNetwork 0 {} ⟨0, (), []⟩ =
      (.returned (.ok (), twinInventory), m) := by
  have hsucceeds : (((validate twinClients twinSettings ∅).run.run ∅).run twinNetwork 0 {}
      ⟨0, (), []⟩).1 = .returned (.ok (), twinInventory) := by decide +kernel
  rw [← hsucceeds]
  exact ⟨_, (Prod.eta _).symm⟩

/-- The pods that an exchange has listed, with the request. -/
def Exchange.podList? : Exchange → Option (Cluster × String × String × List Manifest.Pod)
  | ⟨⟨cluster, .listPods ns selector⟩, answer⟩ =>
    match (answer : Except Failure (List Manifest.Pod)) with
    | .ok objects => some (cluster, ns, selector, objects)
    | .error _ => none
  | _ => none

/-- All lists of pods that a validation of the twins has been given. -/
def twinLists : List (Cluster × String × String × List Manifest.Pod) :=
  (((validate twinClients twinSettings ∅).run.run ∅).exchanges twinNetwork 0 {} 0 ()).filterMap
    Exchange.podList?

theorem mem_twinLists {cluster : Cluster} {ns selector : String} {objects : List Manifest.Pod}
    {exchanges : List Exchange}
    (hexchanges :
      ((validate twinClients twinSettings ∅).run.run ∅).exchanges twinNetwork 0 {} 0 () = exchanges)
    (h : (⟨⟨cluster, .listPods ns selector⟩, .ok objects⟩ : Exchange) ∈ exchanges) :
    (cluster, ns, selector, objects) ∈ twinLists := by
  subst hexchanges
  exact List.mem_filterMap.2 ⟨_, h, rfl⟩

/-- The agent and the echo pods of the destination are held. -/
theorem twinNetwork_holds_destination :
    HoldsListed twinClients (fun _ => [calmPod "cilium" "10.0.0.1"]) id twinInventory.agentPods ∧
    HoldsListed twinClients (fun _ => twinEchoes) (·.withEndpoint "http" Topology.echoPort)
      twinInventory.echoPods := by
  obtain ⟨m, hrun⟩ := twinNetwork_run
  obtain ⟨agents, after, hexchanges, hagents, hechoes⟩ := validate_holds_listed twinNetwork
    twinClients (by decide) twinSettings ∅ 0 {} 0 () hrun
  obtain ⟨echoes, hlisted, hechoes⟩ := hechoes rfl
  have hafter (side : Side) :
      (⟨⟨twinClients.get side, echoListing twinSettings.testNamespace⟩, .ok (echoes side)⟩ :
        Exchange) ∈ after := by
    have hmem : (⟨⟨twinClients.get side, echoListing twinSettings.testNamespace⟩,
        .ok (echoes side)⟩ : Exchange) ∈
          after.filter (·.call.request = echoListing twinSettings.testNamespace) := by
      rw [hlisted]
      cases side <;> simp [Clients.get]
    exact List.mem_of_mem_filter hmem
  have hagentLists : ∀ x ∈ twinLists, x.2.2.1 = "k8s-app=cilium" →
      x.2.2.2 = [calmPod "cilium" "10.0.0.1"] := by decide +kernel
  have hechoLists : ∀ x ∈ twinLists, x.2.2.1 = "kind=echo" → x.2.2.2 = twinEchoes := by
    decide +kernel
  obtain rfl : agents = fun _ => [calmPod "cilium" "10.0.0.1"] := by
    funext side
    have hmem : (twinClients.get side, "kube-system", "k8s-app=cilium", agents side) ∈
        twinLists := by
      refine mem_twinLists hexchanges (List.mem_append_left _ ?_)
      cases side with
      | source => exact .head _
      | destination => exact .tail _ (.head _)
    exact hagentLists _ hmem rfl
  obtain rfl : echoes = fun _ => twinEchoes := by
    funext side
    have hmem : (twinClients.get side, "cilium-test", "kind=echo", echoes side) ∈ twinLists :=
      mem_twinLists hexchanges (List.mem_append_right _ (hafter side))
    exact hechoLists _ hmem rfl
  have hnames : (twinEchoes.map (·.metadata.title)).Nodup := by decide
  exact ⟨hagents fun _ => List.nodup_singleton _, hechoes fun _ => hnames⟩

/-- The agent and the echo pods of the source have been listed, and none of them is held. -/
theorem twinNetwork_loses_source : ∃ m : Moment twinNetwork,
    ((validate twinClients twinSettings ∅).run.run ∅).run twinNetwork 0 {} ⟨0, (), []⟩ =
      (.returned (.ok (), twinInventory), m) ∧
    (twinClients.source, "kube-system", "k8s-app=cilium", [calmPod "cilium" "10.0.0.1"]) ∈
      twinLists ∧
    (twinClients.source, "cilium-test", "kind=echo", twinEchoes) ∈ twinLists ∧
    ∀ pod ∈ twinInventory.agentPods.values ++ twinInventory.echoPods.values,
      pod.cluster ≠ twinClients.source := by
  obtain ⟨m, hrun⟩ := twinNetwork_run
  exact ⟨m, hrun, by decide +kernel, by decide +kernel, by decide +kernel⟩

end Reachability
