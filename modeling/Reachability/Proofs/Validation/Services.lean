import Reachability.Proofs.Cluster.Settlement
import Reachability.Proofs.Validation.Standstill

namespace Reachability

open Reachability.Topology (WorkloadKind nameSelector)
open Wait (Instant Limits Moment Procedure World)

variable {α β γ : Type} {settings : Settings} {clusters : List Cluster} {i : Inventory}

/-- Where the first one stays, what is in the map goes before what is added. -/
theorem Survey.get?_addServices_keepFirst (d : Dict String Manifest.Service)
    (services : List Manifest.Service) (name : String) :
    (addServices true d services).get? name =
      (d.get? name).or (services.find? (·.metadata.title == name)) := by
  induction services generalizing d with
  | nil => simp [addServices]
  | cons s services ih =>
    have hstep : addServices true d (s :: services) =
        addServices true (if d.contains s.metadata.title then d
          else d.insert s.metadata.title s) services := by
      simp [addServices]
    rw [hstep, ih]
    by_cases hname : s.metadata.title = name
    · subst hname
      rw [Dict.contains]
      cases hthere : d.get? s.metadata.title <;> simp [hthere]
    · rw [List.find?_cons_of_neg (by simpa using hname)]
      split
      · rfl
      · rw [Dict.get?_insert, if_neg (by simpa using Ne.symm hname)]

/-- The request for the echo services in a namespace. -/
def echoServiceListing (ns : String) : Request := .listServices ns WorkloadKind.echo.selector

/-- The echo services that an exchange has listed, with their cluster. -/
def Exchange.echoServices? (ns : String) : Exchange → Option (Cluster × List Manifest.Service)
  | ⟨⟨cluster, .listServices space selector⟩, answer⟩ =>
    if space = ns ∧ selector = WorkloadKind.echo.selector then
      match (answer : Except Failure (List Manifest.Service)) with
      | .ok services => some (cluster, services)
      | .error _ => none
    else none
  | _ => none

theorem Exchange.echoServices?_eq_some_iff {ns : String} {x : Exchange} {cluster : Cluster}
    {services : List Manifest.Service} : x.echoServices? ns = some (cluster, services) ↔
      x = ⟨⟨cluster, echoServiceListing ns⟩, .ok services⟩ := by
  constructor
  · intro h
    obtain ⟨⟨c, q⟩, answer⟩ := x
    cases q with
    | listServices space selector =>
      obtain ⟨⟨rfl, rfl⟩, hanswer⟩ := Option.ite_none_right_eq_some.1 h
      cases answer with
      | error f => cases hanswer
      | ok listed =>
        cases hanswer
        rfl
    | _ => cases h
  · rintro rfl
    exact if_pos ⟨rfl, rfl⟩

/-- The echo services that were listed, by cluster. -/
def servicesListed (ns : String) (exchanges : List Exchange) :
    List (Cluster × List Manifest.Service) :=
  exchanges.filterMap (·.echoServices? ns)

theorem servicesListed_append (ns : String) (before after : List Exchange) :
    servicesListed ns (before ++ after) = servicesListed ns before ++ servicesListed ns after :=
  List.filterMap_append

theorem servicesListed_eq_nil {ns : String} {exchanges : List Exchange}
    (h : ∀ x ∈ exchanges, x.call.request ≠ echoServiceListing ns) :
    servicesListed ns exchanges = [] :=
  List.filterMap_eq_nil_iff.2 fun x hx => Option.eq_none_iff_forall_ne_some.2 fun
    | (_, _), hsome => h x hx (by rw [Exchange.echoServices?_eq_some_iff.1 hsome])

theorem mem_servicesListed {ns : String} {exchanges : List Exchange} {cluster : Cluster}
    {services : List Manifest.Service} : (cluster, services) ∈ servicesListed ns exchanges ↔
      ⟨⟨cluster, echoServiceListing ns⟩, .ok services⟩ ∈ exchanges := by
  simp only [servicesListed, List.mem_filterMap, Exchange.echoServices?_eq_some_iff]
  exact exists_eq_right

theorem servicesListed_ok (ns : String) (cluster : Cluster) (services : List Manifest.Service) :
    servicesListed ns [⟨⟨cluster, echoServiceListing ns⟩, .ok services⟩] = [(cluster, services)] :=
  List.filterMap_cons_some (Exchange.echoServices?_eq_some_iff.2 rfl)

theorem servicesListed_error (ns : String) (cluster : Cluster) (f : Failure) :
    servicesListed ns [⟨⟨cluster, echoServiceListing ns⟩, .error f⟩] = [] := by
  refine List.eq_nil_iff_forall_not_mem.2 fun (_, _) h => ?_
  cases List.mem_singleton.1 (mem_servicesListed.1 h)

namespace Survey

/-- Adds the services of each cluster in turn. -/
def recordListed (settings : Settings) (d : Dict String Manifest.Service)
    (listed : List (Cluster × List Manifest.Service)) : Dict String Manifest.Service :=
  listed.foldl (fun d (_, services) => addServices settings.isMultiCluster d services) d

/-- The echo services of the first of these clusters have been listed and recorded, those of all of
them if it is done, and no others. -/
structure ServicesRecorded (settings : Settings) (clusters : List Cluster) (done : Prop)
    (exchanges : List Exchange) (i i' : Inventory) : Prop where
  order : (servicesListed settings.testNamespace exchanges).map Prod.fst <+: clusters
  complete : done → (servicesListed settings.testNamespace exchanges).map Prod.fst = clusters
  services : i'.echoServices =
    recordListed settings i.echoServices (servicesListed settings.testNamespace exchanges)

/-- However it ends, the survey has listed and recorded the echo services of the first of these
clusters, and those of all of them if it succeeds. -/
structure Lists (settings : Settings) (clusters : List Cluster) (s : Survey α) : Prop where
  lists {w : World clusterApi} {patience : Nat} {l : Limits} {i i' : Inventory}
    {m m' : Moment w.recorded} {r : Except Failure α}
    (hrun : (s.run.run i).run w.recorded patience l m = (.returned (r, i'), m')) :
    ∃ exchanges, m'.record = m.record ++ exchanges ∧
      ServicesRecorded settings clusters (∃ a, r = .ok a) exchanges i i'

theorem recordListed_append (settings : Settings) (d : Dict String Manifest.Service)
    (before after : List (Cluster × List Manifest.Service)) :
    recordListed settings d (before ++ after) =
      recordListed settings (recordListed settings d before) after :=
  List.foldl_append

namespace ServicesRecorded

variable {done done' : Prop} {before after exchanges : List Exchange} {i i' i'' : Inventory}

/-- Nothing has been listed, and nothing recorded. -/
theorem of_none (h : ∀ x ∈ exchanges, x.call.request ≠ echoServiceListing settings.testNamespace)
    (hi : i'.echoServices = i.echoServices) :
    ServicesRecorded settings [] done exchanges i i' := by
  have hnone := servicesListed_eq_nil h
  refine ⟨?_, fun _ => ?_, ?_⟩ <;> rw [hnone]
  · exact List.prefix_rfl
  · rfl
  · exact hi

theorem of_listed {cluster : Cluster} {services : List Manifest.Service}
    (hlisted : servicesListed settings.testNamespace exchanges = [(cluster, services)])
    (hi : i'.echoServices = addServices settings.isMultiCluster i.echoServices services) :
    ServicesRecorded settings [cluster] done exchanges i i' := by
  refine ⟨?_, fun _ => ?_, ?_⟩ <;> rw [hlisted]
  · exact List.prefix_rfl
  · rfl
  · exact hi

theorem of_failed (hnone : servicesListed settings.testNamespace exchanges = [])
    (hdone : ¬ done) : ServicesRecorded settings clusters done exchanges i i := by
  refine ⟨?_, fun h => absurd h hdone, ?_⟩ <;> rw [hnone]
  · exact List.nil_prefix
  · rfl

/-- What stops has recorded part of what is to be recorded. -/
theorem stopped (h : ServicesRecorded settings clusters done exchanges i i') (hdone : ¬ done')
    (more : List Cluster) : ServicesRecorded settings (clusters ++ more) done' exchanges i i' :=
  ⟨h.order.trans (List.prefix_append ..), fun h => absurd h hdone, h.services⟩

theorem append {more : List Cluster} (h : ServicesRecorded settings clusters done before i i')
    (hdone : done) (h' : ServicesRecorded settings more done' after i' i'') :
    ServicesRecorded settings (clusters ++ more) done' (before ++ after) i i'' := by
  have hlisted := servicesListed_append settings.testNamespace before after
  refine ⟨?_, fun hdone' => ?_, ?_⟩ <;> rw [hlisted]
  · rw [List.map_append, h.complete hdone, List.prefix_append_right_inj]
    exact h'.order
  · rw [List.map_append, h.complete hdone, h'.complete hdone']
  · rw [h'.services, h.services, recordListed_append]

end ServicesRecorded

namespace Lists

theorem pure (a : α) : Lists settings [] (Pure.pure a : Survey α) := by
  refine ⟨fun hrun => ?_⟩
  cases hrun
  exact ⟨[], (List.append_nil _).symm, .of_none (List.forall_mem_nil _) rfl⟩

theorem throw (f : Failure) : Lists settings [] (MonadExcept.throw f : Survey α) := by
  refine ⟨fun hrun => ?_⟩
  cases hrun
  exact ⟨[], (List.append_nil _).symm, .of_none (List.forall_mem_nil _) rfl⟩

theorem bind {more : List Cluster} {s : Survey α} {f : α → Survey β}
    (hs : s.Lists settings clusters) (hf : ∀ a, (f a).Lists settings more) :
    Lists settings (clusters ++ more) (s >>= f) := by
  refine ⟨fun {w patience l i i'' m m'' r} hrun => ?_⟩
  rw [run_bind] at hrun
  rcases hfirst : (s.run.run i).run w.recorded patience l m with ⟨⟨e | a, i'⟩ | _ | _, m'⟩ <;>
    rw [hfirst] at hrun
  · cases hrun
    obtain ⟨before, hbefore, hrecorded⟩ := hs.lists hfirst
    exact ⟨before, hbefore, hrecorded.stopped (by simp) more⟩
  · obtain ⟨before, hbefore, hrecorded⟩ := hs.lists hfirst
    obtain ⟨after, hafter, hrecorded'⟩ := (hf a).lists hrun
    refine ⟨before ++ after, ?_, hrecorded.append ⟨a, rfl⟩ hrecorded'⟩
    rw [hafter, hbefore, List.append_assoc]
  · cases hrun
  · cases hrun

theorem before {s : Survey α} {f : α → Survey β} (hs : s.Lists settings clusters)
    (hf : ∀ a, (f a).Lists settings []) : Lists settings clusters (s >>= f) := by
  have hbind := hs.bind hf
  rwa [List.append_nil] at hbind

/-- A part that lists no echo services and is left out under some condition. -/
theorem ite_bind {q : Prop} [Decidable q] {s : Survey Unit} {f : Unit → Survey β}
    (hs : s.Lists settings []) (hf : ∀ a, (f a).Lists settings clusters) :
    Lists settings clusters (if q then s >>= f else f ()) := by
  split
  · exact hs.bind hf
  · exact hf ()

theorem check {c : Check α}
    (hc : c.Asks (·.request ≠ echoServiceListing settings.testNamespace)) :
    (Survey.check c).Lists settings [] := by
  refine ⟨fun {w patience l i i' m m' r} hrun => ?_⟩
  rw [run_check] at hrun
  rcases hcheck : c.run.run w.recorded patience l m with ⟨r' | _ | _, m₁⟩ <;>
    rw [hcheck] at hrun <;> cases hrun
  obtain ⟨exchanges, hadmits, hrecord⟩ := Procedure.exists_record_eq hcheck
  exact ⟨exchanges, hrecord, .of_none (hc.asks _ _ hadmits) rfl⟩

/-- Checks list nothing. -/
theorem query {c : Check α} (hc : c.Asks (·.request.Queries)) :
    (Survey.check c).Lists settings [] := by
  refine .check (hc.mono fun call hquery heq => ?_)
  rw [heq] at hquery
  exact hquery

theorem record {f : Inventory → Inventory} (hf : ∀ i, (f i).echoServices = i.echoServices) :
    (Survey.record f).Lists settings [] := by
  refine ⟨fun {_ _ _ i _ _ _ _} hrun => ?_⟩
  cases hrun
  exact ⟨[], (List.append_nil _).symm, .of_none (List.forall_mem_nil _) (hf i)⟩

theorem inventory : Survey.inventory.Lists settings [] := by
  refine ⟨fun hrun => ?_⟩
  cases hrun
  exact ⟨[], (List.append_nil _).symm, .of_none (List.forall_mem_nil _) rfl⟩

theorem listPods (what : String) (cluster : Cluster) (ns selector : String) :
    (Survey.listPods what cluster ns selector).Lists settings [] :=
  .bind (.check (.request nofun what)) fun _ => .pure _

/-- Parts each of which lists what it is to list. -/
theorem forM {f : γ → Survey Unit} {cover : γ → List Cluster} {l : List γ}
    (hf : ∀ a ∈ l, (f a).Lists settings (cover a)) :
    (l.forM f).Lists settings (l.flatMap cover) := by
  induction l with
  | nil => exact .pure ()
  | cons a l ih =>
    obtain ⟨ha, hl⟩ := List.forall_mem_cons.1 hf
    exact .bind ha fun _ => ih hl

theorem forM_none {f : γ → Survey Unit} {l : List γ} (hf : ∀ a ∈ l, (f a).Lists settings []) :
    (l.forM f).Lists settings [] := by
  have hnone : l.flatMap (fun _ => ([] : List Cluster)) = [] := by simp
  rw [← hnone]
  exact .forM hf

end Lists

variable (clients : Clients) (settings : Settings) (features : FeatureSet)

theorem agentPods_lists : (agentPods clients settings).Lists settings [] :=
  .forM_none fun _ _ => .bind (.listPods ..) fun _ => .record fun _ => rfl

theorem deployments_lists (cluster : Cluster) (names : List String) :
    (deployments cluster settings names).Lists settings [] := by
  unfold deployments
  split
  · exact .pure ()
  · exact .query (Check.deployments_asks ..)

theorem endpoint_lists (pod : Pod) : (endpoint settings pod).Lists settings [] :=
  .query (Check.endpoint_asks ..)

theorem performancePods_lists : (performancePods clients settings).Lists settings [] := by
  refine .bind (.listPods ..) fun pods => .forM_none fun pod _ => ?_
  refine .ite_bind (endpoint_lists settings pod) fun _ => .record fun i => ?_
  split <;> rfl

theorem clientPods_lists : (clientPods clients settings).Lists settings [] :=
  .bind (.listPods ..) fun _ => .forM_none fun pod _ =>
    .bind (endpoint_lists settings pod) fun _ => .record fun _ => rfl

theorem echoPodNames_lists (cluster : Cluster) (deployment what : String) :
    (echoPodNames cluster settings deployment what).Lists settings [] := by
  have hsingle : (singleEchoPod cluster settings deployment what).Lists settings [] := by
    refine .bind (.listPods ..) fun pods => ?_
    split
    · exact .pure _
    · exact .throw _
  exact .bind hsingle fun target => .bind .inventory fun _ =>
    .query (.within (.forM fun _ _ => Check.podNames_asks _ target) _)

theorem clusterNames_lists : (clusterNames settings).Lists settings [] :=
  .bind .inventory fun _ => .query (.within (.forM fun _ _ => Check.clusterNames_asks _) _)

theorem externalEchoPods_lists : (externalEchoPods clients settings).Lists settings [] :=
  .bind (.listPods ..) fun _ => .record fun _ => rfl

theorem echoPods_lists : (echoPods clients settings).Lists settings [] :=
  .forM_none fun _ _ => .bind (.listPods ..) fun _ => .forM_none fun pod _ =>
    .bind (endpoint_lists settings pod) fun _ => .record fun _ => rfl

theorem resolvedServices_lists : (resolvedServices settings).Lists settings [] :=
  .bind .inventory fun _ => .forM_none fun _ _ => .query (Check.service_asks ..)

/-- The services of ingresses have a selector of their own. -/
theorem ingressServices_lists : (ingressServices clients settings).Lists settings [] := by
  refine .bind (.check (.request (fun heq => ?_) _)) fun _ => .record fun _ => rfl
  exact absurd (Request.listServices.inj heq).2 (by decide)

theorem nodePorts_lists : (nodePorts settings).Lists settings [] := by
  refine .bind .inventory fun i => .forM_none fun agent _ => ?_
  split
  · exact .pure ()
  · exact .forM_none fun _ _ => .query (Check.nodePorts_asks ..)

theorem hostNetworkPods_lists : (hostNetworkPods clients settings).Lists settings [] :=
  .bind (.listPods ..) fun _ => .record fun _ => rfl

theorem externalWorkloads_lists : (externalWorkloads clients).Lists settings [] := by
  refine .forM_none fun cluster _ => .bind (.check (.attempt (.request nofun _))) fun answer => ?_
  split
  · exact .record fun _ => rfl
  · split
    · exact .pure ()
    · exact .throw _

theorem identities_lists : (identities settings).Lists settings [] :=
  .bind .inventory fun _ => .query (.within (.forM fun _ _ => Check.identities_asks ..) _)

/-- A request leaves the inventory alone. It is recorded with its answer, unless it has been
interrupted. -/
theorem run_request_record {w : World clusterApi} {patience : Nat} {l : Limits} {i i' : Inventory}
    {m m' : Moment w.recorded} {what : String} {cluster : Cluster} {q : Request}
    {answer : Except Failure q.Answer}
    (hrun : ((request what cluster q).run.run i).run w.recorded patience l m =
      (.returned (answer, i'), m')) :
    i' = i ∧ (m'.record = m.record ++ [⟨⟨cluster, q⟩, answer⟩] ∨
      m'.record = m.record ∧ ∃ why, Wait.Interrupted why answer) := by
  rw [request, run_check] at hrun
  rcases hfirst : (Check.request what cluster q).run.run w.recorded patience l m with
    ⟨r | _ | _, m₁⟩ <;> rw [hfirst] at hrun <;> cases hrun
  rw [Check.run_request] at hfirst
  exact ⟨rfl, Wait.raceOnce_call_record hfirst⟩

/-- Lists the echo services of one cluster. -/
def recordServices (cluster : Cluster) : Survey Unit := do
  let services ← listServices "echo service list" cluster settings.testNamespace
    WorkloadKind.echo.selector
  record fun i =>
    { i with echoServices := addServices settings.isMultiCluster i.echoServices services }

theorem recordServices_lists (cluster : Cluster) :
    (recordServices settings cluster).Lists settings [cluster] := by
  refine ⟨fun {w patience l i i' m m' r} hrun => ?_⟩
  rw [recordServices, run_bind] at hrun
  rcases hfirst : ((listServices "echo service list" cluster settings.testNamespace
    WorkloadKind.echo.selector).run.run i).run w.recorded patience l m with
    ⟨⟨answer, i₁⟩ | _ | _, m₁⟩ <;> rw [hfirst] at hrun
  · obtain ⟨rfl, hanswer⟩ := run_request_record hfirst
    cases answer with
    | error f =>
      cases hrun
      rcases hanswer with hrecord | ⟨hrecord, -⟩
      · exact ⟨_, hrecord, .of_failed (servicesListed_error ..) nofun⟩
      · exact ⟨[], hrecord.trans (List.append_nil _).symm, .of_failed rfl nofun⟩
    | ok services =>
      cases hrun
      rcases hanswer with hrecord | ⟨-, why, hinterrupted⟩
      · exact ⟨_, hrecord, .of_listed (servicesListed_ok ..) rfl⟩
      · exact absurd hinterrupted Check.not_interrupted_ok
  · cases hrun
  · cases hrun

theorem echoServices_lists : (echoServices clients settings).Lists settings clients.distinct := by
  have hsingle : clients.distinct.flatMap (fun cluster => [cluster]) = clients.distinct := by simp
  rw [← hsingle]
  exact .forM fun cluster _ => recordServices_lists settings cluster

theorem connectivity_lists :
    (connectivity clients settings features).Lists settings clients.distinct := by
  refine .bind (clientPods_lists clients settings) fun _ => ?_
  refine .bind (echoPodNames_lists settings ..) fun _ => ?_
  refine .ite_bind (echoPodNames_lists settings ..) fun _ => ?_
  refine .ite_bind (externalEchoPods_lists clients settings) fun _ => ?_
  refine .bind (clusterNames_lists settings) fun _ => ?_
  refine .bind (echoPods_lists clients settings) fun _ => ?_
  refine .before (echoServices_lists clients settings) fun _ => ?_
  refine .bind (resolvedServices_lists settings) fun _ => ?_
  refine .ite_bind (ingressServices_lists clients settings) fun _ => ?_
  refine .ite_bind (nodePorts_lists settings) fun _ => ?_
  refine .bind (hostNetworkPods_lists clients settings) fun _ => ?_
  refine .bind (externalWorkloads_lists clients settings) fun _ => ?_
  split
  · exact identities_lists settings
  · exact .pure ()

theorem validate_lists : (validate clients settings features).Lists settings
    (if settings.performance then [] else clients.distinct) := by
  refine .bind (agentPods_lists clients settings) fun _ => ?_
  refine .bind (deployments_lists settings ..) fun _ => ?_
  refine .bind (deployments_lists settings ..) fun _ => ?_
  cases settings.performance with
  | true => exact performancePods_lists clients settings
  | false => exact connectivity_lists clients settings features

end Survey

/-- Of two lists of services, the map holds the first, and what the second has under other names,
all by name. -/
structure KeepsFirst (first second : List Manifest.Service) (d : Dict String Manifest.Service) :
    Prop where
  names (name : String) : d.contains name = true ↔
    name ∈ first.map (·.metadata.title) ∨ name ∈ second.map (·.metadata.title)
  ofFirst : ∀ s ∈ first, d.get? s.metadata.title = some s
  ofSecond : ∀ s ∈ second, s.metadata.title ∉ first.map (·.metadata.title) →
    d.get? s.metadata.title = some s

theorem keepsFirst_addServices {first second : List Manifest.Service}
    (hfirst : (first.map (·.metadata.title)).Nodup)
    (hsecond : (second.map (·.metadata.title)).Nodup) :
    KeepsFirst first second (Survey.addServices true (Survey.addServices true ∅ first) second) := by
  have hget (name : String) :
      (Survey.addServices true (Survey.addServices true ∅ first) second).get? name =
        (first.find? (·.metadata.title == name)).or (second.find? (·.metadata.title == name)) := by
    rw [Survey.get?_addServices_keepFirst, Survey.get?_addServices_keepFirst, Dict.get?_empty,
      Option.none_or]
  refine ⟨fun name => ?_, fun s hs => ?_, fun s hs hother => ?_⟩
  · rw [Survey.contains_addServices, Survey.contains_addServices, Dict.contains, Dict.get?_empty]
    simp
  · rw [hget, (find?_eq_some_iff_of_nodup hfirst).2 ⟨hs, rfl⟩, Option.some_or]
  · have hnone : first.find? (·.metadata.title == s.metadata.title) = none := by
      simpa using hother
    rw [hget, hnone, Option.none_or, (find?_eq_some_iff_of_nodup hsecond).2 ⟨hs, rfl⟩]

/-- Two have been visited, if at all one before the other. -/
theorem eq_pair_of_prefix {κ : Type} {x y : κ} (hne : x ≠ y) {visited : List (κ × α)}
    (horder : visited.map Prod.fst <+: [x, y]) {a b : α} (ha : (x, a) ∈ visited)
    (hb : (y, b) ∈ visited) : visited = [(x, a), (y, b)] := by
  match visited, horder with
  | [(_, u)], horder =>
    obtain ⟨rfl, -⟩ := List.cons_prefix_cons.1 horder
    exact absurd (congrArg Prod.fst (List.mem_singleton.1 hb)).symm hne
  | [(_, u), (_, v)], horder =>
    obtain ⟨rfl, hrest⟩ := List.cons_prefix_cons.1 horder
    obtain ⟨rfl, -⟩ := List.cons_prefix_cons.1 hrest
    obtain rfl : a = u := by simpa [hne] using ha
    obtain rfl : b = v := by simpa [hne.symm] using hb
    rfl
  | _ :: _ :: _ :: _, horder => exact absurd horder.length_le (by simp)

/-- What is recorded once both clusters have listed their services. -/
theorem Survey.ServicesRecorded.keepsFirst {exchanges : List Exchange} {done : Prop}
    {source destination : Cluster} (hne : source ≠ destination)
    (hclusters : clusters <+: [source, destination]) (hmulti : settings.isMultiCluster = true)
    (h : ServicesRecorded settings clusters done exchanges ∅ i)
    {ofSource ofDestination : List Manifest.Service}
    (hsource : ⟨⟨source, echoServiceListing settings.testNamespace⟩, .ok ofSource⟩ ∈ exchanges)
    (hdestination :
      ⟨⟨destination, echoServiceListing settings.testNamespace⟩, .ok ofDestination⟩ ∈ exchanges)
    (hnodup : (ofSource.map (·.metadata.title)).Nodup)
    (hnodup' : (ofDestination.map (·.metadata.title)).Nodup) :
    KeepsFirst ofSource ofDestination i.echoServices := by
  have hlisted := eq_pair_of_prefix hne (h.order.trans hclusters) (mem_servicesListed.2 hsource)
    (mem_servicesListed.2 hdestination)
  have hheld := keepsFirst_addServices hnodup hnodup'
  rw [h.services, hlisted, recordListed, hmulti]
  exact hheld

/-- What is listed when all is done. -/
theorem Survey.ServicesRecorded.exists_lists {exchanges : List Exchange} {done : Prop}
    {source destination : Cluster}
    (h : ServicesRecorded settings [source, destination] done exchanges ∅ i) (hdone : done) :
    ∃ ofSource ofDestination : List Manifest.Service,
      ⟨⟨source, echoServiceListing settings.testNamespace⟩, .ok ofSource⟩ ∈ exchanges ∧
      ⟨⟨destination, echoServiceListing settings.testNamespace⟩, .ok ofDestination⟩ ∈
        exchanges := by
  have hcomplete := h.complete hdone
  obtain ⟨⟨_, ofSource⟩, rest, hlisted, rfl, hrest⟩ := List.map_eq_cons_iff.1 hcomplete
  obtain ⟨⟨_, ofDestination⟩, _, rfl, rfl, -⟩ := List.map_eq_cons_iff.1 hrest
  refine ⟨ofSource, ofDestination, mem_servicesListed.1 ?_, mem_servicesListed.1 ?_⟩ <;>
    simp [hlisted]

/-- A validation of connectivity that succeeds has looked up every service that it holds. -/
theorem validate_resolves {clients : Clients} {features : FeatureSet} {exchanges : List Exchange}
    (hperformance : settings.performance = false)
    (h : ((validate clients settings features).run.run ∅).Admits exchanges (.ok (), i)) :
    ∀ s ∈ i.echoServices.values, ∃ pod ∈ i.clientPods.values,
      ServiceResolvedFrom (· ∈ exchanges) s pod := by
  obtain ⟨before, after, rfl, -, -, -, -, hconnected⟩ := validate_shows hperformance h
  intro s hs
  obtain ⟨pod, hpod, output, hcommanded, hverified⟩ := hconnected.services s hs
  exact ⟨pod, hpod, output, List.mem_append_right _ hcommanded, hverified⟩

/-- A validation between two clusters, whatever becomes of it: once both clusters have listed their
echo services, it holds those that the source has listed, and of those that the destination has
listed only the ones with other names. If it succeeds, both have done so, unless pods are measured,
and each service of the source has been looked up from a client pod and found at the address that
the source has for it. -/
theorem validate_keeps_source_services (w : World clusterApi) (clients : Clients)
    (hclients : clients.source.id ≠ clients.destination.id) (settings : Settings)
    (hmulti : settings.isMultiCluster = true) (features : FeatureSet) (patience : Nat) (l : Limits)
    (t : Instant) (s : w.State) {r : Except Failure Unit} {i : Inventory} {m : Moment w}
    (hrun : ((validate clients settings features).run.run ∅).run w patience l ⟨t, s, []⟩ =
      (.returned (r, i), m)) :
    let exchanges := ((validate clients settings features).run.run ∅).exchanges w patience l t s
    let listing := echoServiceListing settings.testNamespace
    (∀ ofSource ofDestination : List Manifest.Service,
      ⟨⟨clients.source, listing⟩, .ok ofSource⟩ ∈ exchanges →
      ⟨⟨clients.destination, listing⟩, .ok ofDestination⟩ ∈ exchanges →
      (ofSource.map (·.metadata.title)).Nodup → (ofDestination.map (·.metadata.title)).Nodup →
        KeepsFirst ofSource ofDestination i.echoServices) ∧
    (r = .ok () → settings.performance = false →
      ∃ ofSource ofDestination : List Manifest.Service,
        ⟨⟨clients.source, listing⟩, .ok ofSource⟩ ∈ exchanges ∧
        ⟨⟨clients.destination, listing⟩, .ok ofDestination⟩ ∈ exchanges ∧
        ((ofSource.map (·.metadata.title)).Nodup →
          (ofDestination.map (·.metadata.title)).Nodup → ∀ service ∈ ofSource,
            ∃ pod ∈ i.clientPods.values, ServiceResolvedFrom (· ∈ exchanges) service pod)) := by
  intro exchanges listing
  obtain ⟨m', hrecorded, -, hexchanges⟩ := exists_recorded_run hrun
  obtain ⟨recorded, hrecord, hservices⟩ :=
    (Survey.validate_lists clients settings features).lists hrecorded
  obtain rfl : recorded = exchanges := hrecord.symm.trans hexchanges
  have hdistinct : clients.distinct = [clients.source, clients.destination] := if_neg hclients
  have hne : clients.source ≠ clients.destination := fun h => hclients (congrArg Cluster.id h)
  rw [hdistinct] at hservices
  constructor
  · intro ofSource ofDestination
    refine hservices.keepsFirst hne ?_ hmulti
    split
    · exact List.nil_prefix
    · exact List.prefix_rfl
  · rintro rfl hperformance
    rw [hperformance, if_neg Bool.false_ne_true] at hservices
    obtain ⟨ofSource, ofDestination, hsource, hdestination⟩ := hservices.exists_lists ⟨(), rfl⟩
    refine ⟨ofSource, ofDestination, hsource, hdestination, fun hnodup hnodup' service hs => ?_⟩
    have hkept := hservices.keepsFirst hne List.prefix_rfl hmulti hsource hdestination hnodup
      hnodup'
    exact validate_resolves hperformance (Procedure.admits_exchanges hrun) service
      (Dict.mem_values_iff.2 ⟨_, hkept.ofFirst service hs⟩)

/-- A service that a cluster has given an address. -/
def addressedAs (name address : String) : Manifest.Service :=
  { metadata := { name := some name }, clusterIP := some address }

/-- The echo services of each of the twins. Both have the one of the other node, each at an address
of its own. -/
def sharedServices (cluster : Cluster) : List Manifest.Service :=
  if cluster = twinClients.source then
    [addressedAs Topology.echoOtherNodeName "10.96.0.12",
      addressedAs Topology.echoSameNodeName "10.96.0.11"]
  else
    [addressedAs "echo-extra" "10.97.0.13", addressedAs Topology.echoOtherNodeName "10.97.0.12"]

def sharedAnswer (cluster : Cluster) : (r : Request) → Except Failure r.Answer
  | .listServices .. => .ok (sharedServices cluster)
  | .exec .. => .ok "Address: 10.96.0.11\nAddress: 10.96.0.12\nAddress: 10.97.0.13\n"
  | r => twinAnswer r

/-- The twins with their services, where a look-up finds the addresses that the source has given. -/
def sharedNetwork : World clusterApi where
  State := Unit
  start _ c := ((), some (1, fun _ => ((), sharedAnswer c.cluster c.request)))
  choose _ _ := ((), ⟨0, Nat.succ_pos _⟩)

/-- What a validation of them leaves. -/
def sharedInventory : Inventory :=
  { twinInventory with
    echoServices := .ofList
      [("echo-extra", addressedAs "echo-extra" "10.97.0.13"),
        (Topology.echoOtherNodeName, addressedAs Topology.echoOtherNodeName "10.96.0.12"),
        (Topology.echoSameNodeName, addressedAs Topology.echoSameNodeName "10.96.0.11")] }

/-- Of the shared service, that of the source is held, and it has been found at its address. -/
theorem sharedNetwork_keeps_source : ∃ (m : Moment sharedNetwork) (exchanges : List Exchange),
    ((validate twinClients twinSettings ∅).run.run ∅).run sharedNetwork 0 {} ⟨0, (), []⟩ =
      (.returned (.ok (), sharedInventory), m) ∧
    KeepsFirst (sharedServices twinClients.source) (sharedServices twinClients.destination)
      sharedInventory.echoServices ∧
    ∃ pod ∈ sharedInventory.clientPods.values, ServiceResolvedFrom (· ∈ exchanges)
      (addressedAs Topology.echoOtherNodeName "10.96.0.12") pod := by
  have hsucceeds : (((validate twinClients twinSettings ∅).run.run ∅).run sharedNetwork 0 {}
      ⟨0, (), []⟩).1 = .returned (.ok (), sharedInventory) := by decide +kernel
  obtain ⟨m, hrun⟩ := Wait.exists_moment hsucceeds
  obtain ⟨hkept, hresolved⟩ := validate_keeps_source_services sharedNetwork twinClients (by decide)
    twinSettings rfl ∅ 0 {} 0 () hrun
  obtain ⟨ofSource, ofDestination, hsource, hdestination, hresolved⟩ := hresolved rfl rfl
  have hlists : ∀ x ∈ servicesListed "cilium-test"
      (((validate twinClients twinSettings ∅).run.run ∅).exchanges sharedNetwork 0 {} 0 ()),
        x.2 = sharedServices x.1 := by decide +kernel
  obtain rfl : ofSource = sharedServices twinClients.source :=
    hlists (twinClients.source, ofSource) (mem_servicesListed.2 hsource)
  obtain rfl : ofDestination = sharedServices twinClients.destination :=
    hlists (twinClients.destination, ofDestination) (mem_servicesListed.2 hdestination)
  exact ⟨m, _, hrun, hkept _ _ hsource hdestination (by decide) (by decide),
    hresolved (by decide) (by decide) _ List.mem_cons_self⟩

end Reachability
