import Reachability.Proofs.Simulation.Staffing
import Reachability.Proofs.Teardown.Completion

namespace Reachability

open Manifest (Kind Object)
open Reachability.Topology (Item Plan Side)
open Simulation
open Wait (Instant Moment Procedure World)

/-- A request for a new object has the place filled, and is granted if the place was empty. -/
theorem Simulation.Store.contains_create (s : Store) (ns : String) (o : Object) {p : Place}
    (hpublished : o.kind = .ingress → p ≠ ⟨.service, ⟨ns, Topology.ingressServiceName o.name⟩⟩) :
    (s.create ns o).1.objects.contains p =
        (s.objects.contains p || decide (newPlace ns o = p)) ∧
      (s.create ns o).2.isOk = !s.objects.contains (newPlace ns o) := by
  cases hthere : s.objects.contains (newPlace ns o) with
  | true =>
    have hcreate : s.create ns o = (s, .error (.alreadyExists o.kind.label o.name)) :=
      if_pos hthere
    rw [hcreate]
    refine ⟨?_, rfl⟩
    by_cases hp : newPlace ns o = p
    · subst hp
      simp [hthere]
    · simp [hp]
  | false =>
    have hcreate : s.create ns o = ({ s.added ns o with creates := s.creates + 1 }, .ok ()) :=
      if_neg (Bool.eq_false_iff.1 hthere)
    rw [hcreate]
    refine ⟨?_, rfl⟩
    by_cases hp : newPlace ns o = p
    · subst hp
      simp [s.contains_added ns o]
    · have hsame := s.get?_added_of_ne ns o (Ne.symm hp) hpublished
      simp only [Dict.contains, hsame, hp, decide_false, Bool.or_false]

/-- Something stands in a place on a machine. -/
def occupied (id : Nat) (p : Place) (machines : List Machine) : Bool :=
  (machines[id]?).any fun m => m.store.objects.contains p

/-- An object is made in a place of a cluster by this exchange. -/
def Exchange.makes (id : Nat) (p : Place) (x : Exchange) : Bool :=
  match x.call.request with
  | .create space o =>
    decide (x.call.cluster.id = id) && decide (Store.newPlace space o = p) && x.answer.isOk
  | _ => false

/-- An ingress is only made under the one name that there is for it. -/
def Call.MakesOwnIngress (ns : String) (c : Call) : Prop :=
  ∀ space o, c.request = .create space o → o.kind = .ingress →
    space = ns ∧ o.name = Topology.ingressName

section Exchanges

variable {ns : String} {p : Place} {machines machines' : List Machine}

/-- A creation fills a place if the object belongs there and nothing was there before. -/
theorem occupied_create (id : Nat) (cluster : Cluster) (space : String) (o : Object)
    (hpublished : o.kind = .ingress →
      p ≠ ⟨.service, ⟨space, Topology.ingressServiceName o.name⟩⟩) :
    let after := answered machines ⟨cluster, .create space o⟩
    let makes := decide (cluster.id = id) && decide (Store.newPlace space o = p) && after.2.isOk
    occupied id p after.1 = (occupied id p machines || makes) ∧
      (occupied id p machines = true → makes = false) := by
  intro after makes
  cases hm : machines[cluster.id]? with
  | none =>
    have hrefused : after = (machines, .error (.api (.transport "no such cluster"))) := by
      simp only [after, answered, answerFrom, hm]
    have hmakes : makes = false := by
      simp only [makes, hrefused]
      exact Bool.and_false _
    rw [hmakes, hrefused, Bool.or_false]
    exact ⟨rfl, fun _ => rfl⟩
  | some m =>
    obtain ⟨hcontains, hok⟩ := m.store.contains_create space o hpublished
    have hanswered := answered_of_getElem? (c := ⟨cluster, .create space o⟩) hm
    have hisOk : after.2.isOk = !m.store.objects.contains (Store.newPlace space o) := by
      rw [show after = _ from hanswered]
      exact hok
    have hafter : occupied id p after.1 =
        if cluster.id = id then (m.store.create space o).1.objects.contains p
        else occupied id p machines := by
      rw [show after = _ from hanswered, occupied, getElem?_updateStore]
      split
      next hid =>
        subst hid
        simp [hm, Store.answer]
      next hid =>
        have hid : ¬ cluster.id = id := hid
        rw [occupied]
        cases machines[id]? <;> simp
    simp only [makes]
    rw [hafter, hisOk]
    split
    next hid =>
      have hbefore : occupied id p machines = m.store.objects.contains p := by
        rw [occupied, ← hid, hm]
        rfl
      rw [hcontains, hbefore]
      by_cases hplace : Store.newPlace space o = p
      · subst hplace
        simp [hid]
      · simp [hplace]
    next hid => simp [hid]

/-- What a request that only looks or creates does to a place: it is filled by an object made in it
if it was empty, and otherwise nothing is made there. -/
theorem occupied_answered (id : Nat) {x : Exchange}
    (hanswer : x.answer = (answered machines x.call).2)
    (hprovisions : x.call.request.Provisions) (hingress : x.call.MakesOwnIngress ns)
    (hp : p ≠ publishedPlace ns) :
    occupied id p (answered machines x.call).1 = (occupied id p machines || x.makes id p) ∧
      (occupied id p machines = true → x.makes id p = false) := by
  obtain ⟨⟨cluster, r⟩, answer⟩ := x
  have hlooks (hsame : ∀ s : Store, (s.answer (shownPod r) r).1 = s) :
      (answered machines ⟨cluster, r⟩).1 = machines := by
    rw [answered_fst]
    exact updateStore_eq_self fun m _ => hsame m.store
  cases r with
  | create space o =>
    have hpublished : o.kind = .ingress →
        p ≠ ⟨.service, ⟨space, Topology.ingressServiceName o.name⟩⟩ := by
      intro hkind
      obtain ⟨rfl, hname⟩ := hingress space o rfl hkind
      rwa [hname]
    obtain rfl : answer = (answered machines ⟨cluster, .create space o⟩).2 := hanswer
    exact occupied_create id cluster space o hpublished
  | get kind key =>
    rw [hlooks fun _ => rfl]
    exact ⟨(Bool.or_false _).symm, fun _ => rfl⟩
  | listNodes =>
    rw [hlooks fun _ => rfl]
    exact ⟨(Bool.or_false _).symm, fun _ => rfl⟩
  | _ => exact hprovisions.elim

theorem Follows.makes_nothing {id : Nat} {exchanges : List Exchange}
    (h : Follows machines exchanges machines')
    (hcalls : ∀ x ∈ exchanges, x.call.request.Provisions ∧ x.call.MakesOwnIngress ns)
    (hp : p ≠ publishedPlace ns) (hoccupied : occupied id p machines = true) :
    exchanges.filter (·.makes id p) = [] := by
  induction exchanges generalizing machines with
  | nil => rfl
  | cons x exchanges ih =>
    obtain ⟨⟨hprovisions, hingress⟩, hrest⟩ := List.forall_mem_cons.1 hcalls
    obtain ⟨hanswer, hfollows⟩ := h
    obtain ⟨hafter, hnothing⟩ := occupied_answered id hanswer hprovisions hingress hp
    rw [List.filter_cons_of_neg (Bool.eq_false_iff.1 (hnothing hoccupied))]
    exact ih hfollows hrest (by rw [hafter, hoccupied, Bool.true_or])

/-- A place that was empty and is filled in the end has been filled once. -/
theorem Follows.makes_once {id : Nat} {exchanges : List Exchange}
    (h : Follows machines exchanges machines')
    (hcalls : ∀ x ∈ exchanges, x.call.request.Provisions ∧ x.call.MakesOwnIngress ns)
    (hp : p ≠ publishedPlace ns) (hempty : occupied id p machines = false)
    (hfilled : occupied id p machines' = true) :
    ∃ x, exchanges.filter (·.makes id p) = [x] := by
  induction exchanges generalizing machines with
  | nil =>
    obtain rfl := h
    exact absurd hfilled (Bool.eq_false_iff.1 hempty)
  | cons x exchanges ih =>
    obtain ⟨⟨hprovisions, hingress⟩, hrest⟩ := List.forall_mem_cons.1 hcalls
    obtain ⟨hanswer, hfollows⟩ := h
    obtain ⟨hafter, -⟩ := occupied_answered id hanswer hprovisions hingress hp
    rw [hempty, Bool.false_or] at hafter
    cases hmakes : x.makes id p with
    | true =>
      rw [List.filter_cons_of_pos hmakes]
      exact ⟨x, congrArg _ (hfollows.makes_nothing hrest hp (hafter.trans hmakes))⟩
    | false =>
      rw [List.filter_cons_of_neg (Bool.eq_false_iff.1 hmakes)]
      exact ih hfollows hrest (hafter.trans hmakes)

end Exchanges

section Provisioning

variable {clients : Clients} {settings : Settings} {features : FeatureSet} {ns zone : String}
  {side : Side} {item : Item} {o : Object}

/-- By whatever exchanges provisioning succeeds, it only looks and creates what it has planned. -/
theorem provision_provisions {i i' : Inventory} {plan : Plan} {exchanges : List Exchange}
    (h : ((provision clients settings features).run.run i).Admits exchanges (.ok plan, i')) :
    ∀ x ∈ exchanges, x.call.Provisions clients settings.testNamespace plan.steps := by
  obtain ⟨looked, _, ⟨e | zone, i₁⟩, rfl, hlooked, hrest⟩ := Procedure.Admits.of_bind h
  · cases hrest.2
  · obtain ⟨taken, _, ⟨e | _, i₂⟩, rfl, htaken, hrest⟩ := Procedure.Admits.of_bind hrest
    · cases hrest.2
    · obtain ⟨rfl, heq⟩ := hrest
      cases heq
      rw [List.append_nil]
      refine List.forall_mem_append.2 ⟨?_, ?_⟩
      · exact (chooseZone_confined clients settings).asks.asks i _ _ hlooked
      · exact (takeSteps_confined clients settings.testNamespace _).asks.asks i₁ _ _ htaken

theorem Call.Provisions.makesOwnIngress {steps : List (Side × Item)} {c : Call}
    (h : c.Provisions clients ns steps) : c.MakesOwnIngress ns := by
  intro space o hcreate hkind
  obtain ⟨side, item, -, ho, rfl⟩ := h.planned space o hcreate
  obtain ⟨hspace, -⟩ := Request.create.inj hcreate
  refine ⟨?_, Store.ingress_name_of_mem_objects ho hkind⟩
  rw [← hspace, Kind.keyIn, hkind]
  rfl

/-- The service that is published for the ingress is not planned. -/
theorem place_ne_published
    (hstep : (side, item) ∈ (Topology.plan settings features zone).steps) (ho : o ∈ item.objects) :
    place settings.testNamespace o ≠ publishedPlace settings.testNamespace := by
  intro heq
  have hkind : o.kind = .service := congrArg Place.kind heq
  have hname : o.name = Topology.ingressServiceName Topology.ingressName :=
    congrArg (fun p : Place => p.key.name) heq
  have hmem := mem_everything_of_planned hstep ho
  rw [hkind, hname, everything, List.mem_append] at hmem
  rcases hmem with hmem | hmem
  · exact absurd hmem (by decide)
  · cases List.mem_singleton.1 hmem

/-- What is made in a planned place is what is planned there. -/
theorem Call.Provisions.creates_planned {x : Exchange} {id : Nat}
    (hstep : (side, item) ∈ (Topology.plan settings features zone).steps) (ho : o ∈ item.objects)
    (h : x.call.Provisions clients settings.testNamespace
      (Topology.plan settings features zone).steps)
    (hmakes : x.makes id (place settings.testNamespace o) = true) :
    x.call.request = o.creation settings.testNamespace := by
  unfold Exchange.makes at hmakes
  split at hmakes
  next space o' hcreate =>
    obtain ⟨side', item', hstep', ho', heq⟩ := h.planned space o' hcreate
    have hcreation : o'.creation settings.testNamespace = .create space o' := by
      rw [← hcreate, heq]
    obtain ⟨hspace, -⟩ := Request.create.inj hcreation
    have hplace : Store.newPlace space o' = place settings.testNamespace o := by
      simp only [Bool.and_eq_true, decide_eq_true_eq] at hmakes
      exact hmakes.1.2
    rw [← hspace, Store.newPlace_keyIn] at hplace
    have hsame : o' = o := Topology.plan_object_eq hstep' hstep ho' ho
      (congrArg Place.kind hplace) (congrArg (fun p : Place => p.key.name) hplace)
    rw [heq, hsame]
  next => cases hmakes

end Provisioning

theorem occupied_eq_false_of_vacant {id : Nat} {p : Place} {machines : List Machine}
    (h : Vacant id p machines) : occupied id p machines = false := by
  unfold occupied
  cases hm : machines[id]? with
  | none => rfl
  | some m => simp [Dict.contains, h m hm]

/-- Exchanges that take the clusters from one state to another renew what is planned: at some point
nothing of it stands on any of the clusters, then each object is made where it is planned, and that
once, and in the end it is there. -/
def Renews (clients : Clients) (ns : String) (steps : List (Side × Item))
    (initial : List Machine) (exchanges : List Exchange) (final : List Machine) : Prop :=
  ∃ torn made middle, exchanges = torn ++ made ∧
    Follows initial torn middle ∧ Follows middle made final ∧
    ∀ side item, (side, item) ∈ steps → ∀ o ∈ item.objects,
      (∀ side', Vacant (clients.get side').id (place ns o) middle) ∧
      (exchanges.filter (·.makes (clients.get side).id (place ns o))).map (·.call.request) =
        [o.creation ns] ∧
      occupied (clients.get side).id (place ns o) final = true

section Deployments

variable {clients : Clients} {settings : Settings} {features : FeatureSet}
  {machines : List Machine}

/-- Teardowns make nothing. -/
theorem makes_eq_false_of_clears {ns : String} {x : Exchange} (h : x.call.request.Clears ns)
    (id : Nat) (p : Place) : x.makes id p = false := by
  unfold Exchange.makes
  split
  next space o hcreate =>
    rw [hcreate] at h
    exact h.elim
  next => rfl

/-- After a teardown, nothing that is planned stands on any of the clusters. -/
theorem Cleared.vacant {ns : String}
    (h : ∀ cluster ∈ clients.distinct, Cleared ns cluster machines) (side : Side)
    {subject : Kind × String} (hsubject : subject ∈ everything ns) :
    Vacant (clients.get side).id ⟨subject.1, subject.1.keyIn ns subject.2⟩ machines := by
  obtain ⟨cluster, hcluster, hid⟩ := clients.exists_mem_distinct side
  rw [← hid]
  exact h cluster hcluster subject hsubject

/-- What is carried out on clusters where nothing of it stood is there, with all its objects. -/
theorem occupied_ensureAll {zone : String} {final : List Machine} (hready : Ready clients machines)
    (hcleared : ∀ cluster ∈ clients.distinct, Cleared settings.testNamespace cluster machines)
    (hfinal : final = ensureAll clients settings.testNamespace
      (Topology.plan settings features zone).steps machines) {side : Side} {item : Item}
    (hstep : (side, item) ∈ (Topology.plan settings features zone).steps) {o : Object}
    (ho : o ∈ item.objects) :
    occupied (clients.get side).id (place settings.testNamespace o) final = true := by
  have hstaffed : StaffedOn (fun id key => (∃ side, (clients.get side).id = id) ∧
      key.space = settings.testNamespace ∧ key.name ∈ everyDeployment) machines := by
    rintro _ m hm ⟨_, name⟩ ⟨⟨side, rfl⟩, rfl, hname⟩
    exact .of_vacant (Cleared.vacant hcleared side (mem_everything_deployment.2 hname) m hm)
  have hpartway : Partway clients settings.testNamespace
      (Topology.plan settings features zone).steps machines final := hfinal ▸ .complete
  have hsettled : SettledOn clients settings.testNamespace (side, item) final :=
    hfinal ▸ settledOn_ensureAll hstep
  have hm := List.getElem?_eq_getElem ((hpartway.ready hready).there side)
  rw [occupied, hm]
  refine (hsettled _ hm).contains_object (fun hkind => ?_) ho
  have hname : item.name ∈ everyDeployment := by
    have hitem := mem_everything_of_step hstep
    rwa [show item.kind = .deployment from hkind, mem_everything_deployment] at hitem
  exact hpartway.staffed hstaffed _ _ hm _ ⟨⟨side, rfl⟩, rfl, hname⟩

/-- A teardown after which nothing is left, and provisioning that succeeds: what is planned has been
renewed. -/
theorem renews_of_cleared {initial middle final : List Machine} {torn made : List Exchange}
    (htorn : ∀ x ∈ torn, x.call.request.Clears settings.testNamespace)
    (hcleared : ∀ cluster ∈ clients.distinct, Cleared settings.testNamespace cluster middle)
    (hready : Ready clients middle) {zone : String}
    (hmade : ∀ x ∈ made, x.call.Provisions clients settings.testNamespace
      (Topology.plan settings features zone).steps)
    (hinitial : Follows initial torn middle) (hmiddle : Follows middle made final)
    (hfinal : final = ensureAll clients settings.testNamespace
      (Topology.plan settings features zone).steps middle) :
    Renews clients settings.testNamespace (Topology.plan settings features zone).steps initial
      (torn ++ made) final := by
  refine ⟨torn, made, middle, rfl, hinitial, hmiddle, fun side item hstep o ho => ?_⟩
  have hvacant (side' : Side) :
      Vacant (clients.get side').id (place settings.testNamespace o) middle :=
    Cleared.vacant hcleared side' (mem_everything_of_planned hstep ho)
  have hfilled : occupied (clients.get side).id (place settings.testNamespace o) final = true :=
    occupied_ensureAll hready hcleared hfinal hstep ho
  refine ⟨hvacant, ?_, hfilled⟩
  have hnothing : torn.filter (·.makes (clients.get side).id
      (place settings.testNamespace o)) = [] :=
    List.filter_eq_nil_iff.2 fun x hx =>
      Bool.eq_false_iff.1 (makes_eq_false_of_clears (htorn x hx) _ _)
  obtain ⟨x, hx⟩ := hmiddle.makes_once
    (fun x hx => ⟨(hmade x hx).request, (hmade x hx).makesOwnIngress⟩)
    (place_ne_published hstep ho) (occupied_eq_false_of_vacant (hvacant side)) hfilled
  obtain ⟨hmem, hmakes⟩ := List.mem_filter.1 (hx ▸ List.mem_cons_self)
  rw [List.filter_append, hnothing, hx, List.nil_append, List.map_singleton,
    (hmade x hmem).creates_planned hstep ho hmakes]

/-- The teardowns with which a deployment begins are over no later than the deployment. -/
theorem now_run_teardowns_le {w : World clusterApi} (clients : Clients) {settings : Settings}
    (hforce : settings.forceDeploy = true) (features : FeatureSet) (inventory : Inventory)
    (patience : Nat) (m : Moment w.recorded) :
    (((teardowns clients settings.testNamespace).run.run inventory).run w.recorded patience {}
      m).2.now ≤
    (((deploy clients settings features).run.run inventory).run w patience {} m.plain).2.now := by
  rw [Procedure.run_plain, deploy_eq_of_force clients features hforce]
  exact Procedure.now_run_le_bind ((teardowns clients settings.testNamespace).run.run inventory) _

/-- Deployments that begin with teardowns renew what they plan. On clusters in memory that answer
every call in their own time, whatever stands on them, and whose rejections of namespace deletions
end while the observer has patience, such a deployment succeeds. No object with the kind and name of
a planned one is left of those that were there before, on any of the clusters, and each planned
object has been made where it is planned, that once, as it is planned. -/
theorem deploy_renews {w : World clusterApi} {machines : w.State → List Machine}
    (hattends : Attends w machines) (clients : Clients) (settings : Settings)
    (features : FeatureSet) (hforce : settings.forceDeploy = true) (inventory : Inventory)
    (patience : Nat) (t : Instant) {s : w.State}
    (hthere : ∀ side, (clients.get side).id < (machines s).length) (hquiet : Quiet (machines s))
    (hpatient : Patient patience (machines s))
    (hclock : Wait.after? (((deploy clients settings features).run.run inventory).run w patience {}
      ⟨t, s, []⟩).2.now Wait.defaultPacing ≠ none) :
    let deployment := (deploy clients settings features).run.run inventory
    ∃ inventory' m,
      deployment.run w patience {} ⟨t, s, []⟩ =
        (.returned (.ok (simulatedPlan settings features), inventory'), m) ∧
      Renews clients settings.testNamespace (simulatedPlan settings features).steps (machines s)
        (deployment.exchanges w patience {} t s) (machines m.state) := by
  intro deployment
  have hrecorded := hattends.recorded
  have hdistinct : ∀ cluster ∈ clients.distinct, cluster.id < (machines s).length := by
    intro cluster hcluster
    obtain ⟨side, rfl⟩ := Clients.exists_of_mem_distinct hcluster
    exact hthere side
  -- the clock can reckon the pauses of the teardowns, as they come before the end
  have hsooner := now_run_teardowns_le clients hforce features inventory patience
    (⟨t, (s, []), []⟩ : Moment w.recorded)
  obtain ⟨m₁, hteardown, hcleared⟩ := hrecorded.run_teardowns settings.testNamespace
    (m := ⟨t, (s, []), []⟩) hquiet hdistinct hpatient inventory
    (Wait.after?_ne_none_of_le (Nat.add_le_add_right hsooner _) hclock)
  have hdown := hrecorded.toServes.run_teardowns (m := ⟨t, (s, []), []⟩) hquiet hteardown
  have hready : Ready clients (machines m₁.state.1) :=
    ⟨fun side => hdown.removes.length_eq.symm ▸ hthere side, hdown.quiet⟩
  obtain ⟨outcome, m₂, hprovision, houtcome⟩ :=
    provision_leads hrecorded.stage hready settings features patience {} inventory m₁ rfl rfl
  rcases outcome with ⟨f | plan, inventory'⟩ | _ | _
  · exact houtcome.1.elim
  · obtain ⟨rfl, hfinal⟩ := houtcome
    have hrun : deployment.run w.recorded patience {} ⟨t, (s, []), []⟩ =
        (.returned (.ok (simulatedPlan settings features), inventory'), m₂) := by
      unfold deployment
      rw [deploy_eq_of_force clients features hforce, Survey.run_bind, teardowns, hteardown]
      exact hprovision
    obtain ⟨torn, hadmits, hrecord₁, hinitial⟩ := hattends.toServes.run_recorded hquiet hteardown
    obtain ⟨made, hadmits', hrecord₂, hmiddle⟩ :=
      hattends.toServes.run_recorded hdown.quiet hprovision
    have hexchanges : deployment.exchanges w patience {} t s = torn ++ made := by
      rw [Procedure.exchanges, hrun, hrecord₂, hrecord₁]
      rfl
    have htorn : (teardowns clients settings.testNamespace).Confined
        (·.request.Clears settings.testNamespace) :=
      .forM fun cluster _ => .check ((teardown_confined cluster _).mono fun _ hc => hc.2)
    refine ⟨inventory', m₂.plain, ?_, ?_⟩
    · exact (deployment.run_plain patience {} ⟨t, (s, []), []⟩).trans (congrArg Wait.plain hrun)
    · rw [hexchanges]
      exact renews_of_cleared (htorn.asks.asks inventory _ _ hadmits) hcleared hready
        (provision_provisions hadmits') hinitial hmiddle hfinal
  · exact houtcome.1.elim
  · exact houtcome.1.elim

/-- A cluster where one of the deployments was left behind, but not its service account, and which
rejects deletions of namespaces at first. -/
def staleCluster : Store :=
  { Store.fresh "kind" with
    rejections := 2
    objects := .ofList
      [(⟨.space, ⟨"", "cilium-test"⟩⟩, .space (.named "cilium-test")),
        (⟨.deployment, ⟨"cilium-test", "perf-client"⟩⟩,
          .deployment (Manifest.deployment { name := "perf-client" }))] }

/-- Five objects are made, and the namespace is deleted at the third attempt. -/
theorem staleCluster_renewed :
    let settings : Settings := { performance := true, singleNode := true, forceDeploy := true }
    let deployment := (deploy (.single ⟨0, "kind"⟩) settings ∅).run.run ∅
    ∃ (inventory : Inventory) (m : Moment (world false)),
      deployment.run (world false) 3 {} ⟨0, [{ store := staleCluster }], []⟩ =
        (.returned (.ok (simulatedPlan settings ∅), inventory), m) ∧
      Renews (.single ⟨0, "kind"⟩) "cilium-test" (simulatedPlan settings ∅).steps
        [{ store := staleCluster }]
        (deployment.exchanges (world false) 3 {} 0 [{ store := staleCluster }])
        (machinesAt m.state) ∧
      (machinesAt m.state).map (fun machine =>
        (machine.store.creates, machine.store.spaceDeletes)) = [(5, 3)] := by
  intro settings deployment
  obtain ⟨inventory, m, hrun, hrenews⟩ := deploy_renews attends_world (.single ⟨0, "kind"⟩) settings
    ∅ rfl ∅ 3 0 (s := [{ store := staleCluster }])
    (by rintro (_ | _) <;> exact Nat.one_pos)
    (fun machine hmachine => by rw [List.mem_singleton.1 hmachine])
    (fun machine hmachine => by rw [List.mem_singleton.1 hmachine]; decide)
    (by decide +kernel)
  refine ⟨inventory, m, hrun, hrenews, ?_⟩
  rw [← congrArg (fun r => machinesAt r.2.state) hrun]
  decide +kernel

end Deployments

end Reachability
