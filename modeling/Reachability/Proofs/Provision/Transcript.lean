import Reachability.Proofs.Cluster.Transcript
import Reachability.Proofs.Topology.Plan
import Reachability.Provision

namespace Reachability

open Manifest (Kind Object)
open Reachability.Topology (Item Plan Side)
open Wait (Instant Moment)

variable {p : Respondent}

/-- The question whether an item is there. -/
def Topology.Item.lookup (item : Item) (ns : String) : Request :=
  .get item.kind (item.kind.keyIn ns item.name)

/-- The request to make an object. -/
def Manifest.Object.creation (o : Object) (ns : String) : Request :=
  .create (o.kind.keyIn ns o.name).space o

/-- Objects are made one after the other; it does not matter who makes them, but any other failure
ends it. -/
inductive Creates (cluster : Cluster) (ns : String) :
    List Object → List Exchange → Except Failure Unit → Prop where
  | none : Creates cluster ns [] [] (.ok ())
  | next {o objects exchanges r} {answer : Except Failure Unit}
      (hmade : ∀ f, answer = .error f → f.isAlreadyExists = true)
      (hrest : Creates cluster ns objects exchanges r) :
      Creates cluster ns (o :: objects) (⟨⟨cluster, o.creation ns⟩, answer⟩ :: exchanges) r
  | failed {o objects f} (hf : f.isAlreadyExists = false) :
      Creates cluster ns (o :: objects) [⟨⟨cluster, o.creation ns⟩, .error f⟩] (.error f)

/-- An item is looked up, and made if it is missing. -/
inductive Ensures (cluster : Cluster) (ns : String) (item : Item) :
    List Exchange → Except Failure Unit → Prop where
  | present (found : item.kind.Found) :
      Ensures cluster ns item [⟨⟨cluster, item.lookup ns⟩, .ok found⟩] (.ok ())
  | unknown {f : Failure} (hf : f.isNotFound = false) :
      Ensures cluster ns item [⟨⟨cluster, item.lookup ns⟩, .error f⟩] (.error f)
  | missing {f : Failure} {exchanges r} (hf : f.isNotFound = true)
      (hmade : Creates cluster ns item.objects exchanges r) :
      Ensures cluster ns item (⟨⟨cluster, item.lookup ns⟩, .error f⟩ :: exchanges) r

/-- The steps of a plan are taken in order, up to the first one that fails. -/
inductive Takes (clients : Clients) (ns : String) :
    List (Side × Item) → List Exchange → Except Failure Unit → Prop where
  | none : Takes clients ns [] [] (.ok ())
  | next {side item steps before after r}
      (hstep : Ensures (clients.get side) ns item before (.ok ()))
      (hrest : Takes clients ns steps after r) :
      Takes clients ns ((side, item) :: steps) (before ++ after) r
  | failed {side item steps exchanges f}
      (hstep : Ensures (clients.get side) ns item exchanges (.error f)) :
      Takes clients ns ((side, item) :: steps) exchanges (.error f)

/-- The nodes are listed first if the run measures performance. Then the plan is followed. -/
inductive Deploys (clients : Clients) (settings : Settings) (features : FeatureSet) :
    List Exchange → Except Failure Plan → Prop where
  | unlisted {f : Failure} (hperformance : settings.performance = true) :
      Deploys clients settings features [⟨⟨clients.source, .listNodes⟩, .error f⟩] (.error f)
  | listed {nodes : List Manifest.Node} {exchanges r} (hperformance : settings.performance = true)
      (hsteps : Takes clients settings.testNamespace
        (Topology.plan settings features (Topology.selectZone nodes)).steps exchanges r) :
      Deploys clients settings features (⟨⟨clients.source, .listNodes⟩, .ok nodes⟩ :: exchanges)
        (r.map fun _ => Topology.plan settings features (Topology.selectZone nodes))
  | unmeasured {exchanges r} (hperformance : settings.performance = false)
      (hsteps : Takes clients settings.testNamespace (Topology.plan settings features "").steps
        exchanges r) :
      Deploys clients settings features exchanges
        (r.map fun _ => Topology.plan settings features "")

theorem createObject_exchanges (cluster : Cluster) (ns : String) (o : Object) :
    (createObject cluster ns o).Exchanges p fun exchanges r =>
      ∃ answer, exchanges = [⟨⟨cluster, o.creation ns⟩, answer⟩] ∧ r = created answer := by
  refine .mono (.attempt_bind _ _ _ fun answer => .ofExcept (created answer)) ?_
  rintro exchanges r ⟨answer, _, rfl, rfl, rfl⟩
  exact ⟨answer, rfl, rfl⟩

theorem created_eq_ok {answer : Except Failure Unit} (h : created answer = .ok ()) :
    ∀ f, answer = .error f → f.isAlreadyExists = true := by
  rintro f rfl
  cases hf : f.isAlreadyExists with
  | true => rfl
  | false => simp [created, hf] at h

theorem created_eq_error {answer : Except Failure Unit} {f : Failure}
    (h : created answer = .error f) : answer = .error f ∧ f.isAlreadyExists = false := by
  cases answer with
  | ok _ => cases h
  | error g => cases hg : g.isAlreadyExists <;> simp_all [created]

theorem creations_exchanges (cluster : Cluster) (ns : String) (objects : List Object) :
    Survey.Exchanges p (objects.forM (createObject cluster ns)) (Creates cluster ns objects) := by
  induction objects with
  | nil =>
    refine .mono (.pure ()) ?_
    rintro exchanges r ⟨rfl, rfl⟩
    exact .none
  | cons o objects ih =>
    refine .mono (.bind (createObject_exchanges cluster ns o) fun _ => ih) ?_
    rintro exchanges r
      (⟨f, ⟨answer, rfl, hanswer⟩, rfl⟩ | ⟨_, _, after, ⟨answer, rfl, hmade⟩, hrest, rfl⟩)
    · obtain ⟨rfl, hf⟩ := created_eq_error hanswer.symm
      exact .failed hf
    · exact .next (created_eq_ok hmade.symm) hrest

theorem make_exchanges (cluster : Cluster) (ns : String) (item : Item) :
    (make cluster ns item).Exchanges p (Creates cluster ns item.objects) := by
  refine .mono (.bind (creations_exchanges cluster ns item.objects)
    fun _ => .ite (.record _) (.pure ())) ?_
  rintro exchanges r (⟨f, hmade, rfl⟩ | ⟨_, before, _, hmade, ⟨rfl, rfl⟩, rfl⟩)
  · exact hmade
  · rwa [List.append_nil]

theorem absent_eq_ok {lookup : Except Failure α} {missing : Bool}
    (h : absent lookup = .ok missing) :
    (missing = false ∧ ∃ a, lookup = .ok a) ∨
      (missing = true ∧ ∃ f, lookup = .error f ∧ f.isNotFound = true) := by
  cases lookup with
  | ok a =>
    cases h
    exact .inl ⟨rfl, a, rfl⟩
  | error f => cases hf : f.isNotFound <;> simp_all [absent]

theorem absent_eq_error {lookup : Except Failure α} {f : Failure} (h : absent lookup = .error f) :
    lookup = .error f ∧ f.isNotFound = false := by
  cases lookup with
  | ok a => cases h
  | error g => cases hg : g.isNotFound <;> simp_all [absent]

theorem ensure_exchanges (cluster : Cluster) (ns : String) (item : Item) :
    (ensure cluster ns item).Exchanges p (Ensures cluster ns item) := by
  have hensure (missing : Bool) : Survey.Exchanges p
      (if missing then make cluster ns item else pure ()) fun exchanges r =>
        if missing then Creates cluster ns item.objects exchanges r
        else exchanges = [] ∧ r = .ok () := by
    cases missing with
    | false => exact .pure ()
    | true => exact make_exchanges cluster ns item
  refine .mono (.attempt_bind _ _ _ fun lookup => .bind (.ofExcept (absent lookup)) hensure) ?_
  rintro _ r ⟨lookup, exchanges, rfl,
    ⟨f, ⟨rfl, hlookup⟩, rfl⟩ | ⟨missing, _, after, ⟨rfl, hlookup⟩, h, rfl⟩⟩
  · obtain ⟨rfl, hf⟩ := absent_eq_error hlookup.symm
    exact .unknown hf
  · rcases absent_eq_ok hlookup.symm with ⟨rfl, found, rfl⟩ | ⟨rfl, f, rfl, hf⟩
    · obtain ⟨rfl, rfl⟩ := h
      exact .present found
    · exact .missing hf h

theorem takeSteps_exchanges (clients : Clients) (ns : String) (steps : List (Side × Item)) :
    (takeSteps clients ns steps).Exchanges p (Takes clients ns steps) := by
  induction steps with
  | nil =>
    refine .mono (.pure ()) ?_
    rintro exchanges r ⟨rfl, rfl⟩
    exact .none
  | cons step steps ih =>
    obtain ⟨side, item⟩ := step
    refine .mono (.bind (ensure_exchanges (clients.get side) ns item) fun _ => ih) ?_
    rintro exchanges r (⟨f, hstep, rfl⟩ | ⟨_, before, after, hstep, hrest, rfl⟩)
    · exact .failed hstep
    · exact .next hstep hrest

theorem chooseZone_exchanges (clients : Clients) (settings : Settings) :
    (chooseZone clients settings).Exchanges p fun exchanges r =>
      if settings.performance then
        ∃ answer : Except Failure (List Manifest.Node),
          exchanges = [⟨⟨clients.source, .listNodes⟩, answer⟩] ∧ r = answer.map Topology.selectZone
      else exchanges = [] ∧ r = .ok "" := by
  unfold chooseZone
  cases settings.performance with
  | false => exact .pure ""
  | true =>
    refine .mono (.map (.request _ _ _) _) ?_
    rintro exchanges r ⟨answer, rfl, rfl⟩
    exact ⟨answer, rfl, rfl⟩

theorem deploy_exchanges (clients : Clients) (settings : Settings) (features : FeatureSet)
    (hforce : settings.forceDeploy = false) :
    (deploy clients settings features).Exchanges p (Deploys clients settings features) := by
  have hfollow (zone : String) : Survey.Exchanges p (do
        takeSteps clients settings.testNamespace (Topology.plan settings features zone).steps
        return Topology.plan settings features zone)
      fun exchanges r => ∃ r', Takes clients settings.testNamespace
        (Topology.plan settings features zone).steps exchanges r' ∧
          r = r'.map fun _ => Topology.plan settings features zone := by
    refine .mono (.bind (takeSteps_exchanges clients settings.testNamespace _) fun _ => .pure _) ?_
    rintro exchanges r (⟨f, hsteps, rfl⟩ | ⟨_, before, _, hsteps, ⟨rfl, rfl⟩, rfl⟩)
    · exact ⟨.error f, hsteps, rfl⟩
    · exact ⟨.ok (), by rwa [List.append_nil], rfl⟩
  unfold deploy
  simp only [hforce, Bool.false_eq_true, if_false]
  refine .mono (.bind (chooseZone_exchanges clients settings) hfollow) ?_
  intro exchanges r h
  cases hperformance : settings.performance with
  | false =>
    simp only [hperformance, Bool.false_eq_true, if_false] at h
    rcases h with ⟨f, ⟨_, hf⟩, _⟩ | ⟨zone, before, after, ⟨rfl, hzone⟩, ⟨r', hsteps, rfl⟩, rfl⟩
    · cases hf
    · cases hzone
      exact .unmeasured hperformance hsteps
  | true =>
    simp only [hperformance, if_true] at h
    rcases h with ⟨f, ⟨answer, rfl, hf⟩, rfl⟩ |
      ⟨zone, before, after, ⟨answer, rfl, hzone⟩, ⟨r', hsteps, rfl⟩, rfl⟩
    · cases answer with
      | ok nodes => cases hf
      | error g =>
        cases hf
        exact .unlisted hperformance
    · cases answer with
      | error g => cases hzone
      | ok nodes =>
        cases hzone
        exact .listed hperformance hsteps

/-- All that may be asked about an item. -/
def Topology.Item.requests (item : Item) (ns : String) : List Request :=
  item.lookup ns :: item.objects.map (·.creation ns)

/-- All that may be asked in a deployment, in order. -/
def plannedRequests (settings : Settings) (plan : Plan) : List (Side × Request) :=
  (if settings.performance then [(.source, .listNodes)] else []) ++
    plan.steps.flatMap fun (side, item) =>
      (item.requests settings.testNamespace).map fun r => (side, r)

/-- A request to one of the sides as a call. -/
def Clients.call (clients : Clients) (r : Side × Request) : Call := ⟨clients.get r.1, r.2⟩

theorem Creates.calls_sublist {cluster : Cluster} {ns : String} {objects : List Object}
    {exchanges : List Exchange} {r : Except Failure Unit}
    (h : Creates cluster ns objects exchanges r) :
    (exchanges.map (·.call)).Sublist (objects.map fun o => ⟨cluster, o.creation ns⟩) := by
  induction h with
  | none => exact .slnil
  | next _ _ ih => exact ih.cons_cons _
  | failed _ => exact (List.nil_sublist _).cons_cons _

theorem Ensures.calls_sublist {cluster : Cluster} {ns : String} {item : Item}
    {exchanges : List Exchange} {r : Except Failure Unit}
    (h : Ensures cluster ns item exchanges r) :
    (exchanges.map (·.call)).Sublist ((item.requests ns).map fun r => ⟨cluster, r⟩) := by
  cases h with
  | present => exact (List.nil_sublist _).cons_cons _
  | unknown => exact (List.nil_sublist _).cons_cons _
  | missing _ hmade =>
    refine List.Sublist.cons_cons _ ?_
    rw [List.map_map]
    exact hmade.calls_sublist

theorem Takes.calls_sublist {clients : Clients} {ns : String} {steps : List (Side × Item)}
    {exchanges : List Exchange} {r : Except Failure Unit} (h : Takes clients ns steps exchanges r) :
    (exchanges.map (·.call)).Sublist
      ((steps.flatMap fun (side, item) => (item.requests ns).map fun r => (side, r)).map
        clients.call) := by
  induction h with
  | none => exact .slnil
  | next hstep _ ih =>
    rw [List.map_append, List.flatMap_cons, List.map_append, List.map_map]
    exact hstep.calls_sublist.append ih
  | failed hstep =>
    rw [List.flatMap_cons, List.map_append, List.map_map]
    exact hstep.calls_sublist.trans (List.sublist_append_left _ _)

theorem Deploys.calls_sublist {clients : Clients} {settings : Settings} {features : FeatureSet}
    {exchanges : List Exchange} {r : Except Failure Plan}
    (h : Deploys clients settings features exchanges r) :
    ∃ zone, (exchanges.map (·.call)).Sublist
      ((plannedRequests settings (Topology.plan settings features zone)).map clients.call) := by
  unfold plannedRequests
  cases h with
  | unlisted hperformance =>
    refine ⟨"", ?_⟩
    simp only [hperformance, if_true]
    exact (List.nil_sublist _).cons_cons _
  | @listed nodes _ _ hperformance hsteps =>
    refine ⟨Topology.selectZone nodes, ?_⟩
    simp only [hperformance, if_true]
    exact hsteps.calls_sublist.cons_cons _
  | unmeasured hperformance hsteps =>
    refine ⟨"", ?_⟩
    simp only [hperformance]
    exact hsteps.calls_sublist

/-- The item that a request of a plan is about, by kind and name. -/
def Request.subject : Request → Option (Kind × String)
  | .get kind key => some (kind, key.name)
  | .create _ o => some (if o.kind = .serviceAccount then .deployment else o.kind, o.name)
  | _ => none

theorem Topology.Item.subject_of_mem_requests {item : Item} {ns : String} {r : Request}
    (h : r ∈ item.requests ns) : r.subject = some (item.kind, item.name) := by
  simp only [requests, List.mem_cons, List.mem_map] at h
  rcases h with rfl | ⟨o, ho, rfl⟩
  · rfl
  · obtain ⟨hname, hkind | ⟨hkind, hitem⟩⟩ := of_mem_objects ho
    · simp [Request.subject, Object.creation, hname, hkind, item.kind_ne_serviceAccount]
    · simp [Request.subject, Object.creation, hname, hkind, hitem]

theorem Topology.Item.requests_nodup (item : Item) (ns : String) : (item.requests ns).Nodup := by
  refine List.nodup_cons.2 ⟨?_, ?_⟩
  · simp [lookup, Object.creation]
  · rw [List.Nodup, List.pairwise_map]
    refine item.objects_pairwise.imp ?_
    intro a b hkind heq
    simp only [Object.creation, Request.create.injEq] at heq
    exact hkind (congrArg Object.kind heq.2)

/-- Two requests are told apart, by what they ask or where. -/
def Apart {γ : Type} (place : Side → γ) (a b : Side × Request) : Prop :=
  (place a.1, a.2) ≠ (place b.1, b.2)

theorem Topology.Item.requests_pairwise {γ : Type} (place : Side → γ) (side : Side) (item : Item)
    (ns : String) : ((item.requests ns).map fun r => (side, r)).Pairwise (Apart place) := by
  rw [List.pairwise_map]
  exact (item.requests_nodup ns).imp fun hne heq => hne (Prod.mk.inj heq).2

/-- Nothing is asked twice in a deployment, unless a run between clusters meets one cluster on both
sides. -/
theorem plannedRequests_pairwise {γ : Type} (place : Side → γ) (settings : Settings)
    (features : FeatureSet) (zone : String)
    (hplace : settings.isMultiCluster = true → place .source ≠ place .destination) :
    (plannedRequests settings (Topology.plan settings features zone)).Pairwise (Apart place) := by
  have hsubjects := Topology.plan_subjects_nodup place settings features zone hplace
  rw [Topology.subjects, List.Nodup, List.pairwise_map] at hsubjects
  rw [plannedRequests, List.pairwise_append, List.pairwise_flatMap]
  refine ⟨?_, ⟨fun (side, item) _ => item.requests_pairwise place side _, ?_⟩, ?_⟩
  · split <;> simp
  · refine hsubjects.imp ?_
    rintro ⟨side, item⟩ ⟨side', item'⟩ hne x hx y hy heq
    obtain ⟨r, hr, rfl⟩ := List.mem_map.1 hx
    obtain ⟨r', hr', rfl⟩ := List.mem_map.1 hy
    obtain ⟨hside, rfl⟩ := Prod.mk.inj heq
    have hsubject := (Topology.Item.subject_of_mem_requests hr).symm.trans
      (Topology.Item.subject_of_mem_requests hr')
    exact hne (Prod.ext hside (Option.some.inj hsubject))
  · intro x hx y hy heq
    obtain ⟨⟨side, item⟩, _, hy⟩ := List.mem_flatMap.1 hy
    obtain ⟨r, hr, rfl⟩ := List.mem_map.1 hy
    split at hx
    · obtain rfl := List.mem_singleton.1 hx
      obtain ⟨_, rfl⟩ := Prod.mk.inj heq
      cases Topology.Item.subject_of_mem_requests hr
    · cases hx

theorem plannedRequests_delete_nothing {settings : Settings} {plan : Plan} {r : Side × Request}
    (h : r ∈ plannedRequests settings plan) (kind : Kind) (key : ObjectKey) :
    r.2 ≠ .delete kind key := by
  rintro heq
  rcases List.mem_append.1 h with h | h
  · split at h
    · obtain rfl := List.mem_singleton.1 h
      cases heq
    · cases h
  · obtain ⟨⟨side, item⟩, _, h⟩ := List.mem_flatMap.1 h
    obtain ⟨r', hr', rfl⟩ := List.mem_map.1 h
    subst heq
    cases Topology.Item.subject_of_mem_requests hr'

/-- Without a teardown beforehand, a deployment follows its plan call by call, whatever the clusters
answer. It asks nothing twice on one side, and nothing twice on one cluster unless a run between
clusters meets one cluster on both sides, and deletes nothing. -/
theorem deploy_follows_plan (p : Respondent) (clients : Clients) (settings : Settings)
    (features : FeatureSet) (hforce : settings.forceDeploy = false) (inventory : Inventory)
    (patience : Nat) (t : Instant) :
    ∃ (r : Except Failure Plan) (inventory' : Inventory) (m : Moment p.world),
      ((deploy clients settings features).run.run inventory).run p.world patience {} ⟨t, [], []⟩ =
        (.returned (r, inventory'), m) ∧
      p.Gives [] (Respondent.transcript m) ∧
      Deploys clients settings features (Respondent.transcript m) r ∧
      m.asked = (Respondent.transcript m).map (·.call) ∧
      (∃ asked : List (Side × Request), asked.Nodup ∧ m.asked = asked.map clients.call) ∧
      ((settings.isMultiCluster = true → clients.source ≠ clients.destination) → m.asked.Nodup) ∧
      ∀ c ∈ m.asked, ∀ kind key, c.request ≠ .delete kind key := by
  obtain ⟨r, inventory', m, exchanges, hrun, hm, hr⟩ :=
    deploy_exchanges (p := p) clients settings features hforce patience inventory ⟨t, [], []⟩
  obtain rfl : exchanges = Respondent.transcript m := by
    simpa [Respondent.transcript] using hm.transcript.symm
  have hasked : m.asked = (Respondent.transcript m).map (·.call) := hm.asked
  obtain ⟨zone, hsublist⟩ := hr.calls_sublist
  obtain ⟨asked, hplanned, heq⟩ := List.sublist_map_iff.1 hsublist
  rw [← hasked] at heq
  refine ⟨r, inventory', m, hrun, hm.gives, hr, hasked, ⟨asked, ?_, heq⟩, fun hclients => ?_, ?_⟩
  · have hapart := plannedRequests_pairwise id settings features zone (by simp)
    exact (hapart.sublist hplanned).imp fun hne heq => hne (by rw [heq])
  · rw [heq, List.Nodup, List.pairwise_map]
    have hapart := plannedRequests_pairwise clients.get settings features zone hclients
    exact (hapart.sublist hplanned).imp fun hne heq => hne (by simpa [Clients.call] using heq)
  · intro c hc kind key
    rw [heq] at hc
    obtain ⟨r, hr, rfl⟩ := List.mem_map.1 hc
    exact plannedRequests_delete_nothing (hplanned.mem hr) kind key

/-- Clusters on which nothing can be found and nothing be made. -/
def voidClusters : Respondent where
  delay _ _ := 1
  answer _ _ := .error (.notFound "resource" "")

/-- The first creation that fails ends the deployment. -/
theorem deploy_voidClusters :
    ∃ m : Moment voidClusters.world,
      ((deploy (.single ⟨0, "kind"⟩) {} ∅).run.run ∅).run voidClusters.world 0 {} ⟨0, [], []⟩ =
        (.returned (.error (.notFound "resource" ""), ∅), m) ∧
      m.asked = [⟨⟨0, "kind"⟩, (Item.space "cilium-test").lookup "cilium-test"⟩,
        ⟨⟨0, "kind"⟩, (Manifest.testNamespace "cilium-test").creation "cilium-test"⟩] ∧
      m.asked.Nodup := by
  obtain ⟨r, inventory, m, hrun, _, _, _, _, hnodup, _⟩ :=
    deploy_follows_plan voidClusters (.single ⟨0, "kind"⟩) {} ∅ rfl ∅ 0 0
  have hevaluated : ((deploy (.single ⟨0, "kind"⟩) {} ∅).run.run ∅).run voidClusters.world 0 {}
      ⟨0, [], []⟩ = (.returned (.error (.notFound "resource" ""), ∅), _) := rfl
  obtain ⟨_, rfl⟩ := Prod.mk.inj (hevaluated.symm.trans hrun)
  exact ⟨_, hevaluated, rfl, hnodup (by decide)⟩

end Reachability
