import Reachability.Proofs.Cluster.Duration
import Reachability.Proofs.Validation.Performance
import Reachability.Proofs.Validation.Services

namespace Reachability

open Reachability.Topology (WorkloadKind nameSelector)
open Wait (Instant Limits Moment Procedure World)

variable {α β γ : Type} {settings : Settings}

/-- Elements with keys of their own may be recorded in any order. -/
theorem foldl_eq_of_perm {step : β → α → β} {key : α → γ} {l l' : List α} (h : l.Perm l')
    (hkeys : (l.map key).Nodup)
    (hstep : ∀ i a b, key a ≠ key b → step (step i a) b = step (step i b) a) (i : β) :
    l.foldl step i = l'.foldl step i := by
  refine h.foldl_eq' (fun a ha b hb i => ?_) i
  -- Keys occur once, so that two elements with one key are one element.
  by_cases hkey : key a = key b
  · rw [List.inj_on_of_nodup_map hkeys ha hb hkey]
  · exact hstep i a b hkey

namespace Survey

/-- A service by its name, unless one of that name is to stay. -/
def addService (keepFirst : Bool) (d : Dict String Manifest.Service) (s : Manifest.Service) :
    Dict String Manifest.Service :=
  if keepFirst && d.contains s.metadata.title then d else d.insert s.metadata.title s

theorem contains_addService_of_ne {keepFirst : Bool} {d : Dict String Manifest.Service}
    {s : Manifest.Service} {name : String} (h : name ≠ s.metadata.title) :
    (addService keepFirst d s).contains name = d.contains name := by
  unfold addService
  split
  · rfl
  · rw [Bool.eq_iff_iff, Dict.contains_insert]
    exact or_iff_right h

theorem addService_comm (keepFirst : Bool) (d : Dict String Manifest.Service)
    {s s' : Manifest.Service} (h : s.metadata.title ≠ s'.metadata.title) :
    addService keepFirst (addService keepFirst d s) s' =
      addService keepFirst (addService keepFirst d s') s := by
  have hafter (d : Dict String Manifest.Service) {s s' : Manifest.Service}
      (h : s.metadata.title ≠ s'.metadata.title) :
      addService keepFirst (addService keepFirst d s) s' =
        if keepFirst && d.contains s'.metadata.title then addService keepFirst d s
        else (addService keepFirst d s).insert s'.metadata.title s' := by
    rw [addService, contains_addService_of_ne h.symm]
  rw [hafter d h, hafter d h.symm]
  unfold addService
  split <;> split
  · rfl
  · rfl
  · rfl
  · exact Dict.insert_comm h ..

theorem recordPerformance_comm {pod pod' : Pod} (h : pod.name ≠ pod'.name) (i : Inventory) :
    recordPerformance (recordPerformance i pod) pod' =
      recordPerformance (recordPerformance i pod') pod := by
  unfold recordPerformance
  split <;> split
  · exact congrArg (fun d => { i with performanceServers := d }) (Dict.insert_comm h ..)
  · rfl
  · rfl
  · exact congrArg (fun d => { i with performanceClients := d }) (Dict.insert_comm h ..)

end Survey

instance : DecidablePred Request.Lists
  | .listPods .. | .listServices .. | .listNodes | .listExternalWorkloads => .isTrue trivial
  | .get .. | .create .. | .delete .. | .getEndpoint _ | .exec .. => .isFalse id

/-- The lists that the clusters have given, and the failures to give one. -/
def listsGiven (exchanges : List Exchange) : List Exchange :=
  exchanges.filter (·.call.request.Lists)

theorem mem_of_mem_listsGiven {exchanges : List Exchange} {x : Exchange}
    (h : x ∈ listsGiven exchanges) : x ∈ exchanges := List.mem_of_mem_filter h

theorem listsGiven_append (before after : List Exchange) :
    listsGiven (before ++ after) = listsGiven before ++ listsGiven after :=
  List.filter_append ..

theorem listsGiven_eq_nil {exchanges : List Exchange}
    (h : ∀ x ∈ exchanges, ¬ x.call.request.Lists) : listsGiven exchanges = [] := by
  simpa [listsGiven, List.filter_eq_nil_iff] using h

/-- Both lists have been given, with the same elements, or neither. -/
inductive Rearranged : Except Failure (List α) → Except Failure (List α) → Prop
  | lists {l l' : List α} (h : l.Perm l') : Rearranged (.ok l) (.ok l')
  | failures (f f' : Failure) : Rearranged (.error f) (.error f')

namespace Request

/-- Of a list that is asked for, the two answers have the same elements. -/
def AnsweredAlike : (r : Request) → Except Failure r.Answer → Except Failure r.Answer → Prop
  | .listPods .., a, a' => Rearranged (α := Manifest.Pod) a a'
  | .listServices .., a, a' => Rearranged (α := Manifest.Service) a a'
  | .listNodes, a, a' => Rearranged (α := Manifest.Node) a a'
  | .listExternalWorkloads, a, a' => Rearranged (α := Manifest.Metadata) a a'
  | _, _, _ => True

/-- No name is in the list twice. Of the pods that are on the networks of their nodes, no two are on
one node, and no two without a node. -/
def Distinct (settings : Settings) : (r : Request) → Except Failure r.Answer → Prop
  | .listPods ns selector, a => ∀ pods : List Manifest.Pod, a = .ok pods →
    (pods.map (·.metadata.title)).Nodup ∧
      (ns = settings.testNamespace → selector = WorkloadKind.hostNetwork.selector →
        (pods.map (·.nodeName.getD "")).Nodup)
  | .listServices .., a => ∀ services : List Manifest.Service, a = .ok services →
    (services.map (·.metadata.title)).Nodup
  | .listExternalWorkloads, a => ∀ workloads : List Manifest.Metadata, a = .ok workloads →
    (workloads.map (·.title)).Nodup
  | _, _ => True

end Request

/-- Records the elements of a list one after the other. -/
def enterAll (step : Inventory → α → Inventory) : Except Failure (List α) → Inventory → Inventory
  | .ok l, i => l.foldl step i
  | .error _, i => i

theorem enterAll_steady {step : Inventory → α → Inventory} {key : α → String}
    (hstep : ∀ i a b, key a ≠ key b → step (step i a) b = step (step i b) a)
    {a a' : Except Failure (List α)} (h : Rearranged a a')
    (hkeys : ∀ l, a = .ok l → (l.map key).Nodup) (i : Inventory) :
    enterAll step a i = enterAll step a' i := by
  cases h with
  | lists h => exact foldl_eq_of_perm h (hkeys _ rfl) hstep i
  | failures => rfl

/-- Elements that are all recorded in one map may be put there at once. -/
theorem enterAll_ok (put : β → Inventory) {g : β → α → β} {step : Inventory → α → Inventory}
    (hstep : ∀ d a, step (put d) a = put (g d a)) (l : List α) (d : β) :
    put (l.foldl g d) = enterAll step (.ok l) (put d) :=
  (List.foldl_hom put hstep).symm

/-- What a list that is asked for adds to the inventory: the same in any order. -/
structure Entry (settings : Settings) where
  call : Call
  enter : Except Failure call.request.Answer → Inventory → Inventory
  steady (a a' : Except Failure call.request.Answer) (h : call.request.AnsweredAlike a a')
    (hdistinct : call.request.Distinct settings a) (i : Inventory) : enter a i = enter a' i

namespace Entry

/-- Pods that are recorded by name. -/
def pods (cluster : Cluster) (ns selector : String) (step : Inventory → Manifest.Pod → Inventory)
    (hstep : ∀ i (a b : Manifest.Pod), a.metadata.title ≠ b.metadata.title →
      step (step i a) b = step (step i b) a) : Entry settings where
  call := ⟨cluster, .listPods ns selector⟩
  enter := enterAll step
  steady _ _ h hdistinct := enterAll_steady hstep h fun pods hpods => (hdistinct pods hpods).1

/-- Services that are recorded by name. -/
def services (cluster : Cluster) (ns selector : String)
    (step : Inventory → Manifest.Service → Inventory)
    (hstep : ∀ i (a b : Manifest.Service), a.metadata.title ≠ b.metadata.title →
      step (step i a) b = step (step i b) a) : Entry settings where
  call := ⟨cluster, .listServices ns selector⟩
  enter := enterAll step
  steady _ _ h hdistinct := enterAll_steady hstep h hdistinct

/-- A list of pods of which nothing is recorded. -/
def unrecorded (cluster : Cluster) (ns selector : String) : Entry settings :=
  pods cluster ns selector (fun i _ => i) fun _ _ _ _ => rfl

end Entry

/-- The answers to these lists, in their order, lead from one inventory to the other. -/
inductive Entered : List (Entry settings) → List Exchange → Inventory → Inventory → Prop
  | nil (i : Inventory) : Entered [] [] i i
  | cons (e : Entry settings) (a : Except Failure e.call.request.Answer)
      {entries : List (Entry settings)} {exchanges : List Exchange} {i i' : Inventory}
      (h : Entered entries exchanges (e.enter a i) i') :
      Entered (e :: entries) (⟨e.call, a⟩ :: exchanges) i i'

namespace Entered

variable {entries more : List (Entry settings)} {exchanges exchanges' : List Exchange}
  {i i' i'' : Inventory}

theorem append (h : Entered entries exchanges i i') (h' : Entered more exchanges' i' i'') :
    Entered (entries ++ more) (exchanges ++ exchanges') i i'' := by
  induction h with
  | nil => exact h'
  | cons e a _ ih => exact .cons e a (ih h')

theorem single (e : Entry settings) (a : Except Failure e.call.request.Answer) (i : Inventory) :
    Entered [e] [⟨e.call, a⟩] i (e.enter a i) := .cons e a (.nil _)

theorem map_call (h : Entered entries exchanges i i') :
    exchanges.map (·.call) = entries.map (·.call) := by
  induction h with
  | nil => rfl
  | cons e _ _ ih => exact congrArg (e.call :: ·) ih

/-- Answers that are alike lead to the same inventory. -/
theorem eq_of_alike (h : Entered entries exchanges i i') (h' : Entered entries exchanges' i i'')
    (halike : ∀ (c : Call) (a a' : Except Failure c.request.Answer),
      ((⟨c, a⟩ : Exchange), (⟨c, a'⟩ : Exchange)) ∈ exchanges.zip exchanges' →
        c.request.AnsweredAlike a a')
    (hdistinct : ∀ x ∈ exchanges, x.call.request.Distinct settings x.answer) : i' = i'' := by
  -- The entries say which lists are given, so that both runs are followed side by side.
  induction h generalizing exchanges' with
  | nil i =>
    cases h'
    rfl
  | @cons e a entries exchanges i i' _ ih =>
    cases h' with
    | cons _ a' h' =>
      obtain ⟨hfirst, hrest⟩ := List.forall_mem_cons.1 hdistinct
      have hsame : e.enter a i = e.enter a' i :=
        e.steady a a' (halike e.call a a' List.mem_cons_self) hfirst i
      exact ih (hsame ▸ h') (fun c a a' hmem => halike c a a' (List.mem_cons_of_mem _ hmem)) hrest

end Entered

namespace Survey

/-- A request that is attempted is made once, unless it is interrupted. -/
theorem Gathers.attempt (what : String) (cluster : Cluster) (r : Request) {i : Inventory} :
    (Survey.attempt (Check.request what cluster r)).Gathers i fun exchanges answer i' =>
      i' = i ∧ (exchanges = [⟨⟨cluster, r⟩, answer⟩] ∨ ∃ why, Wait.Interrupted why answer) := by
  refine ⟨fun {exchanges answer i'} h => ?_⟩
  obtain ⟨before, after, a, rfl, ha, rfl, hanswer⟩ := Procedure.Admits.of_bind
    (p := (Check.request what cluster r).attempt.run) (b := (Except.ok answer, i')) h
  cases hanswer
  obtain ⟨before', after', a', rfl, ha', rfl, hanswer'⟩ := Procedure.Admits.of_bind
    (p := (Check.request what cluster r).run) (b := Except.ok answer) ha
  cases hanswer'
  obtain ⟨tried, _, answer', rfl, htried, rfl, rfl⟩ := ha'
  rcases htried with ⟨_, _, rfl, rfl, rfl⟩ | ⟨-, hinterrupted⟩
  · exact ⟨rfl, .inl rfl⟩
  · exact ⟨rfl, .inr hinterrupted⟩

/-- If it succeeds, the survey has asked for no list, and has changed the inventory like this. -/
structure Records (f : Inventory → Inventory) (s : Survey α) : Prop where
  gathers (i : Inventory) : s.Gathers i fun exchanges _ i' =>
    (∀ x ∈ exchanges, ¬ x.call.request.Lists) ∧ i' = f i

/-- If it succeeds, the survey has asked for these lists, in this order, and for no others, and has
recorded just what is in them. -/
structure Enters (entries : List (Entry settings)) (s : Survey α) : Prop where
  gathers (i : Inventory) : s.Gathers i fun exchanges _ i' =>
    Entered entries (listsGiven exchanges) i i'

namespace Records

variable {f f' : Inventory → Inventory}

theorem of_eq {s : Survey α} (hs : s.Records f) (h : ∀ i, f i = f' i) : s.Records f' :=
  ⟨fun i => (hs.gathers i).mono fun _ _ _ hi => ⟨hi.1, hi.2.trans (h i)⟩⟩

theorem pure (a : α) : Records id (Pure.pure a : Survey α) := by
  refine ⟨fun i => (Gathers.pure a).mono ?_⟩
  rintro _ _ _ ⟨rfl, -, rfl⟩
  exact ⟨List.forall_mem_nil _, rfl⟩

theorem throw (e : Failure) : Records f (MonadExcept.throw e : Survey α) :=
  ⟨fun _ => .throw e _⟩

theorem record (f : Inventory → Inventory) : (Survey.record f).Records f := by
  refine ⟨fun i => (Gathers.record f).mono ?_⟩
  rintro _ _ _ ⟨rfl, rfl⟩
  exact ⟨List.forall_mem_nil _, rfl⟩

theorem inventory : Survey.inventory.Records id := by
  refine ⟨fun i => ⟨?_⟩⟩
  rintro _ _ _ ⟨rfl, ha⟩
  cases ha
  exact ⟨List.forall_mem_nil _, rfl⟩

/-- Checks list nothing. -/
theorem query {c : Check α} (hc : c.Asks (·.request.Queries)) : (Survey.check c).Records id := by
  refine ⟨fun i => (Gathers.check hc).mono ?_⟩
  rintro exchanges _ _ ⟨hqueries, rfl⟩
  refine ⟨fun x hx hlists => ?_, rfl⟩
  have hquery := hqueries x hx
  cases hrequest : x.call.request <;> rw [hrequest] at hlists hquery <;> contradiction

theorem bind {s : Survey α} {g : α → Survey β} (hs : s.Records id)
    (hg : ∀ a, (g a).Records f) : Records f (s >>= g) := by
  refine ⟨fun i => .bind (hs.gathers i) ?_⟩
  rintro before a _ ⟨hbefore, rfl⟩
  refine ((hg a).gathers _).mono ?_
  rintro after _ _ ⟨hafter, rfl⟩
  exact ⟨List.forall_mem_append.2 ⟨hbefore, hafter⟩, rfl⟩

/-- A part that is left out under some condition. -/
theorem ite_bind {q : Prop} [Decidable q] {s : Survey Unit} {g : Unit → Survey β}
    (hs : s.Records id) (hg : ∀ a, (g a).Records f) :
    Records f (if q then s >>= g else g ()) := by
  split
  · exact hs.bind hg
  · exact hg ()

theorem forM {step : Inventory → γ → Inventory} {g : γ → Survey Unit}
    (hg : ∀ a, (g a).Records (step · a)) (l : List γ) :
    (l.forM g).Records fun i => l.foldl step i := by
  induction l with
  | nil => exact .pure ()
  | cons a l ih =>
    refine ⟨fun i => .bind ((hg a).gathers i) ?_⟩
    rintro before _ _ ⟨hbefore, rfl⟩
    refine (ih.gathers _).mono ?_
    rintro after _ _ ⟨hafter, rfl⟩
    exact ⟨List.forall_mem_append.2 ⟨hbefore, hafter⟩, rfl⟩

theorem forM_quiet {g : γ → Survey Unit} (hg : ∀ a, (g a).Records id) (l : List γ) :
    (l.forM g).Records id := by
  have hsteps : (l.forM g).Records fun i => l.foldl (fun i _ => i) i := forM hg l
  exact hsteps.of_eq fun i => by simp

end Records

namespace Enters

variable {entries more : List (Entry settings)}

theorem of_records {s : Survey α} (hs : s.Records id) :
    s.Enters ([] : List (Entry settings)) := by
  refine ⟨fun i => (hs.gathers i).mono ?_⟩
  rintro exchanges _ _ ⟨hnone, rfl⟩
  rw [listsGiven_eq_nil hnone]
  exact .nil _

theorem bind {s : Survey α} {g : α → Survey β} (hs : s.Enters entries)
    (hg : ∀ a, (g a).Enters more) : Enters (entries ++ more) (s >>= g) := by
  refine ⟨fun i => .bind (hs.gathers i) ?_⟩
  intro before a i' hbefore
  refine ((hg a).gathers i').mono fun after _ i'' hafter => ?_
  rw [listsGiven_append]
  exact hbefore.append hafter

/-- A part that lists nothing and comes first. -/
theorem after {s : Survey α} {g : α → Survey β} (hs : s.Records id)
    (hg : ∀ a, (g a).Enters entries) : Enters entries (s >>= g) :=
  (of_records hs).bind hg

/-- A part that lists nothing and comes last. -/
theorem before {s : Survey α} {g : α → Survey β} (hs : s.Enters entries)
    (hg : ∀ a, (g a).Records id) : Enters entries (s >>= g) := by
  have hbind := hs.bind fun a => of_records (hg a)
  rwa [List.append_nil] at hbind

theorem ite_after {q : Prop} [Decidable q] {s : Survey Unit} {g : Unit → Survey β}
    (hs : s.Records id) (hg : ∀ a, (g a).Enters entries) :
    Enters entries (if q then s >>= g else g ()) := by
  split
  · exact .after hs hg
  · exact hg ()

/-- A part that comes first and is left out under some condition. -/
theorem ite_bind {q : Prop} [Decidable q] {s : Survey Unit} {g : Unit → Survey β}
    (hs : s.Enters entries) (hg : ∀ a, (g a).Enters more) :
    Enters ((if q then entries else []) ++ more) (if q then s >>= g else g ()) := by
  split
  · exact hs.bind hg
  · exact hg ()

/-- One of two surveys. -/
theorem ite {q : Prop} [Decidable q] {s s' : Survey α} (hs : s.Enters entries)
    (hs' : s'.Enters more) :
    Enters (if q then entries else more) (if q then s else s') := by
  split
  · exact hs
  · exact hs'

theorem forM {entry : γ → Entry settings} {g : γ → Survey Unit}
    (hg : ∀ a, (g a).Enters [entry a]) (l : List γ) : (l.forM g).Enters (l.map entry) := by
  induction l with
  | nil => exact of_records (.pure ())
  | cons a l ih => exact .bind (hg a) fun _ => ih

/-- An answer to a list, and what is then recorded. -/
theorem of_answer {e : Entry settings} {a : Except Failure e.call.request.Answer}
    (hlists : e.call.request.Lists) {exchanges : List Exchange} {i i' : Inventory}
    (hrest : (∀ x ∈ exchanges, ¬ x.call.request.Lists) ∧ i' = e.enter a i) :
    Entered [e] (listsGiven (⟨e.call, a⟩ :: exchanges)) i i' := by
  obtain ⟨hnone, rfl⟩ := hrest
  have hgiven : listsGiven (⟨e.call, a⟩ :: exchanges) = [⟨e.call, a⟩] := by
    rw [listsGiven, List.filter_cons_of_pos (by simpa using hlists)]
    exact congrArg _ (listsGiven_eq_nil hnone)
  rw [hgiven]
  exact .single e a i

/-- A list of pods, and what is recorded of it. -/
theorem listPods (what : String) {cluster : Cluster} {ns selector : String}
    {enter : Except Failure (Request.listPods ns selector).Answer → Inventory → Inventory}
    {steady : ∀ a a', (Request.listPods ns selector).AnsweredAlike a a' →
      (Request.listPods ns selector).Distinct settings a → ∀ i, enter a i = enter a' i}
    {g : List Pod → Survey β}
    (hg : ∀ objects : List Manifest.Pod,
      (g (objects.map fun object => { cluster, object })).Records (enter (.ok objects))) :
    (Survey.listPods what cluster ns selector >>= g).Enters
      [(⟨⟨cluster, .listPods ns selector⟩, enter, steady⟩ : Entry settings)] := by
  refine ⟨fun i => .bind (.listPods ..) ?_⟩
  rintro _ _ i ⟨objects, rfl, rfl, rfl⟩
  let e : Entry settings := ⟨⟨cluster, .listPods ns selector⟩, enter, steady⟩
  have hlists : e.call.request.Lists := trivial
  exact ((hg objects).gathers i).mono fun _ _ _ hrest => of_answer hlists hrest

/-- A list of services, and what is recorded of it. -/
theorem listServices (what : String) {cluster : Cluster} {ns selector : String}
    {enter : Except Failure (Request.listServices ns selector).Answer → Inventory → Inventory}
    {steady : ∀ a a', (Request.listServices ns selector).AnsweredAlike a a' →
      (Request.listServices ns selector).Distinct settings a → ∀ i, enter a i = enter a' i}
    {g : List Manifest.Service → Survey β}
    (hg : ∀ services : List Manifest.Service, (g services).Records (enter (.ok services))) :
    (Survey.listServices what cluster ns selector >>= g).Enters
      [(⟨⟨cluster, .listServices ns selector⟩, enter, steady⟩ : Entry settings)] := by
  refine ⟨fun i => .bind (.request what cluster (.listServices ns selector)) ?_⟩
  rintro _ services i ⟨rfl, rfl⟩
  let e : Entry settings := ⟨⟨cluster, .listServices ns selector⟩, enter, steady⟩
  have hlists : e.call.request.Lists := trivial
  exact ((hg services).gathers i).mono fun _ _ _ hrest => of_answer hlists hrest

/-- An answer that is looked at, failure included. An interruption is none. -/
theorem attempt {e : Entry settings} (hlists : e.call.request.Lists) (what : String)
    {g : Except Failure e.call.request.Answer → Survey β}
    (hg : ∀ a, (g a).Records (e.enter a))
    (hinterrupted : ∀ a, (∃ why, Wait.Interrupted why a) → ∃ f, g a = throw f) :
    (Survey.attempt (Check.request what e.call.cluster e.call.request) >>= g).Enters [e] := by
  refine ⟨fun i => .bind (Gathers.attempt what e.call.cluster e.call.request) ?_⟩
  rintro before a i' ⟨rfl, hanswer⟩
  rcases hanswer with rfl | hwhy
  · exact ((hg a).gathers _).mono fun _ _ _ hrest => of_answer hlists hrest
  · obtain ⟨f, hf⟩ := hinterrupted a hwhy
    rw [hf]
    exact .throw f _

end Enters

variable (clients : Clients) (settings : Settings) (features : FeatureSet)

theorem deployments_quiet (cluster : Cluster) (names : List String) :
    (deployments cluster settings names).Records id := by
  unfold deployments
  split
  · exact .pure ()
  · exact .query (Check.deployments_asks ..)

theorem endpoint_quiet (pod : Pod) : (endpoint settings pod).Records id :=
  .query (Check.endpoint_asks ..)

theorem podNames_quiet (target : Pod) : (podNames settings target).Records id :=
  .bind .inventory fun _ => .query (.within (.forM fun _ _ => Check.podNames_asks _ target) _)

theorem clusterNames_quiet : (clusterNames settings).Records id :=
  .bind .inventory fun _ => .query (.within (.forM fun _ _ => Check.clusterNames_asks _) _)

theorem resolvedServices_quiet : (resolvedServices settings).Records id :=
  .bind .inventory fun _ => .forM_quiet (fun _ => .query (Check.service_asks ..)) _

theorem nodePorts_quiet : (nodePorts settings).Records id := by
  refine .bind .inventory fun i => .forM_quiet (fun agent => ?_) _
  split
  · exact .pure ()
  · exact .forM_quiet (fun _ => .query (Check.nodePorts_asks ..)) _

theorem identities_quiet : (identities settings).Records id :=
  .bind .inventory fun _ => .query (.within (.forM fun _ _ => Check.identities_asks ..) _)

variable (cluster : Cluster)

def agentEntry : Entry settings :=
  .pods cluster settings.agentNamespace settings.agentSelector
    (fun i object =>
      { i with agentPods := i.agentPods.insert object.metadata.title { cluster, object } })
    fun i _ _ h => congrArg (fun d => { i with agentPods := d }) (Dict.insert_comm h ..)

theorem agentPods_enters :
    (agentPods clients settings).Enters (clients.distinct.map (agentEntry settings)) := by
  refine .forM (fun cluster => .listPods _ fun objects => ?_) _
  refine (Records.record _).of_eq fun i => ?_
  rw [addPods, List.foldl_map]
  exact enterAll_ok (fun d => { i with agentPods := d }) (fun _ _ => rfl) _ _

def performanceEntry : Entry settings :=
  .pods cluster settings.testNamespace WorkloadKind.performance.selector
    (fun i object =>
      if object.isMeasured settings then recordPerformance i { cluster, object } else i)
    fun i a b h => by
      let pod : Pod := { cluster, object := a }
      let pod' : Pod := { cluster, object := b }
      have hnames : pod.name ≠ pod'.name := h
      have hcomm := recordPerformance_comm hnames i
      split <;> split <;> first | rfl | exact hcomm

theorem performancePods_enters :
    (performancePods clients settings).Enters [performanceEntry settings clients.source] := by
  refine .listPods _ fun objects => ?_
  have hmeasured : ∀ pod : Pod, (measurePod settings pod).Records (recordPerformance · pod) :=
    fun pod => .ite_bind (endpoint_quiet settings pod) fun _ => .record _
  refine (Records.forM hmeasured _).of_eq fun i => ?_
  rw [List.filter_map, List.foldl_map, List.foldl_filter]
  rfl

def clientEntry : Entry settings :=
  .pods cluster settings.testNamespace WorkloadKind.client.selector
    (fun i object =>
      { i with clientPods := i.clientPods.insert object.metadata.title { cluster, object } })
    fun i _ _ h => congrArg (fun d => { i with clientPods := d }) (Dict.insert_comm h ..)

theorem clientPods_enters :
    (clientPods clients settings).Enters [clientEntry settings clients.source] := by
  refine .listPods _ fun objects => ?_
  refine (Records.forM (fun pod => .bind (endpoint_quiet settings pod) fun _ => .record _) _).of_eq
    fun i => ?_
  exact List.foldl_map

def echoNamesEntry (deployment : String) : Entry settings :=
  .unrecorded cluster settings.testNamespace (nameSelector deployment)

theorem echoPodNames_enters (deployment what : String) :
    (echoPodNames cluster settings deployment what).Enters
      [echoNamesEntry settings cluster deployment] := by
  have hsingle : (singleEchoPod cluster settings deployment what).Enters
      [echoNamesEntry settings cluster deployment] := by
    refine .listPods _ fun objects => ?_
    have hnothing : ∀ i, id i = enterAll (fun i _ => i) (.ok objects) i := fun i => by
      simp [enterAll]
    split
    · exact (Records.pure _).of_eq hnothing
    · exact .throw _
  exact .bind hsingle fun target => .of_records (podNames_quiet settings target)

def externalEchoEntry : Entry settings :=
  .pods cluster settings.testNamespace (nameSelector Topology.echoExternalNodeName)
    (fun i object =>
      { i with
        externalEchoPods := i.externalEchoPods.insert object.metadata.title
          (Pod.withEndpoint { cluster, object } "http" Topology.echoPort) })
    fun i _ _ h => congrArg (fun d => { i with externalEchoPods := d }) (Dict.insert_comm h ..)

theorem externalEchoPods_enters :
    (externalEchoPods clients settings).Enters
      [externalEchoEntry settings clients.destination] := by
  refine .listPods _ fun objects => (Records.record _).of_eq fun i => ?_
  rw [addPods, List.foldl_map, List.foldl_map]
  exact enterAll_ok (fun d => { i with externalEchoPods := d }) (fun _ _ => rfl) _ _

def echoEntry : Entry settings :=
  .pods cluster settings.testNamespace WorkloadKind.echo.selector
    (fun i object =>
      { i with
        echoPods := i.echoPods.insert object.metadata.title
          (Pod.withEndpoint { cluster, object } "http" Topology.echoPort) })
    fun i _ _ h => congrArg (fun d => { i with echoPods := d }) (Dict.insert_comm h ..)

theorem echoPods_enters :
    (echoPods clients settings).Enters (clients.distinct.map (echoEntry settings)) := by
  refine .forM (fun cluster => .listPods _ fun objects => ?_) _
  refine (Records.forM (fun pod => .bind (endpoint_quiet settings pod) fun _ => .record _) _).of_eq
    fun i => ?_
  exact List.foldl_map

def hostNetworkEntry : Entry settings where
  call := ⟨cluster, .listPods settings.testNamespace WorkloadKind.hostNetwork.selector⟩
  enter := enterAll fun i (object : Manifest.Pod) =>
    { i with
      hostNetworkPods := i.hostNetworkPods.insert (object.nodeName.getD "") { cluster, object } }
  steady _ _ h hdistinct := enterAll_steady
    (fun i _ _ h => congrArg (fun d => { i with hostNetworkPods := d }) (Dict.insert_comm h ..)) h
    fun pods hpods => (hdistinct pods hpods).2 rfl rfl

theorem hostNetworkPods_enters :
    (hostNetworkPods clients settings).Enters [hostNetworkEntry settings clients.destination] := by
  refine .listPods _ fun objects => (Records.record _).of_eq fun i => ?_
  rw [List.foldl_map]
  exact enterAll_ok (fun d => { i with hostNetworkPods := d }) (fun _ _ => rfl) _ _

def echoServiceEntry : Entry settings :=
  .services cluster settings.testNamespace WorkloadKind.echo.selector
    (fun i s => { i with echoServices := addService settings.isMultiCluster i.echoServices s })
    fun i _ _ h => congrArg (fun d => { i with echoServices := d }) (addService_comm _ _ h)

theorem echoServices_enters :
    (echoServices clients settings).Enters (clients.distinct.map (echoServiceEntry settings)) := by
  refine .forM (fun cluster => .listServices _ fun services => ?_) _
  refine (Records.record _).of_eq fun i => ?_
  exact enterAll_ok (fun d => { i with echoServices := d }) (fun _ _ => rfl) _ _

def ingressEntry : Entry settings :=
  .services cluster settings.testNamespace "cilium.io/ingress=true"
    (fun i s => { i with ingressServices := addService false i.ingressServices s })
    fun i _ _ h => congrArg (fun d => { i with ingressServices := d }) (addService_comm _ _ h)

theorem ingressServices_enters :
    (ingressServices clients settings).Enters [ingressEntry settings clients.source] := by
  refine .listServices _ fun services => (Records.record _).of_eq fun i => ?_
  exact enterAll_ok (fun d => { i with ingressServices := d }) (fun _ _ => rfl) _ _

def workloadEntry : Entry settings where
  call := ⟨cluster, .listExternalWorkloads⟩
  enter := enterAll fun i (m : Manifest.Metadata) =>
    { i with externalWorkloads := i.externalWorkloads.insert m.title m }
  steady _ _ h hdistinct := enterAll_steady
    (fun i _ _ h => congrArg (fun d => { i with externalWorkloads := d }) (Dict.insert_comm h ..)) h
    hdistinct

theorem externalWorkloads_enters :
    (externalWorkloads clients).Enters (clients.distinct.map (workloadEntry settings)) := by
  refine .forM (fun cluster => ?_) _
  refine Enters.attempt (e := workloadEntry settings cluster) trivial _ (fun a => ?_) ?_
  · rcases a with f | workloads
    · change Records id (if f.isNotFound then Pure.pure () else MonadExcept.throw f : Survey Unit)
      split
      · exact .pure ()
      · exact .throw f
    · refine (Records.record _).of_eq fun i => ?_
      exact enterAll_ok (fun d => { i with externalWorkloads := d }) (fun _ _ => rfl) _ _
  · rintro _ ⟨why, what, last, rfl⟩
    refine ⟨why.failure what last, ?_⟩
    simp

/-- The lists that are asked for where pods are not measured, in their order. -/
def connectivityEntries : List (Entry settings) :=
  [clientEntry settings clients.source] ++
  [echoNamesEntry settings clients.source Topology.echoSameNodeName] ++
  (if settings.spansNodes then
    [echoNamesEntry settings clients.destination Topology.echoOtherNodeName]
  else []) ++
  (if features.enabled .nodeWithoutCilium then [externalEchoEntry settings clients.destination]
  else []) ++
  clients.distinct.map (echoEntry settings) ++
  clients.distinct.map (echoServiceEntry settings) ++
  (if features.enabled .ingressController then [ingressEntry settings clients.source] else []) ++
  [hostNetworkEntry settings clients.destination] ++
  clients.distinct.map (workloadEntry settings)

theorem connectivity_enters : (connectivity clients settings features).Enters
    (connectivityEntries clients settings features) := by
  simp only [connectivityEntries, List.append_assoc]
  refine .bind (clientPods_enters clients settings) fun _ => ?_
  refine .bind (echoPodNames_enters settings ..) fun _ => ?_
  refine .ite_bind (echoPodNames_enters settings ..) fun _ => ?_
  refine .ite_bind (externalEchoPods_enters clients settings) fun _ => ?_
  refine .after (clusterNames_quiet settings) fun _ => ?_
  refine .bind (echoPods_enters clients settings) fun _ => ?_
  refine .bind (echoServices_enters clients settings) fun _ => ?_
  refine .after (resolvedServices_quiet settings) fun _ => ?_
  refine .ite_bind (ingressServices_enters clients settings) fun _ => ?_
  refine .ite_after (nodePorts_quiet settings) fun _ => ?_
  refine .bind (hostNetworkPods_enters clients settings) fun _ => ?_
  refine .before (externalWorkloads_enters clients settings) fun _ => ?_
  split
  · exact identities_quiet settings
  · exact .pure ()

/-- All lists that a validation asks for, in their order. -/
def validateEntries : List (Entry settings) :=
  clients.distinct.map (agentEntry settings) ++
    if settings.performance then [performanceEntry settings clients.source]
    else connectivityEntries clients settings features

theorem validate_enters :
    (validate clients settings features).Enters (validateEntries clients settings features) := by
  refine .bind (agentPods_enters clients settings) fun _ => ?_
  refine .after (deployments_quiet settings ..) fun _ => ?_
  refine .after (deployments_quiet settings ..) fun _ => ?_
  exact .ite (performancePods_enters clients settings)
    (connectivity_enters clients settings features)

end Survey

/-- Two validations that succeed, anywhere and at any time, have asked for the same lists in the
same order. If the answers to these are alike up to the order of elements, and no list has two
elements that are recorded under one key, they leave the same inventory. -/
theorem validate_ignores_order (clients : Clients) (settings : Settings) (features : FeatureSet)
    (w w' : World clusterApi) (patience patience' : Nat) (l l' : Limits) (t t' : Instant)
    (s : w.State) (s' : w'.State) {i i' : Inventory} {m : Moment w} {m' : Moment w'}
    (hrun : ((validate clients settings features).run.run ∅).run w patience l ⟨t, s, []⟩ =
      (.returned (.ok (), i), m))
    (hrun' : ((validate clients settings features).run.run ∅).run w' patience' l' ⟨t', s', []⟩ =
      (.returned (.ok (), i'), m')) :
    let validation := (validate clients settings features).run.run ∅
    let given := listsGiven (validation.exchanges w patience l t s)
    let given' := listsGiven (validation.exchanges w' patience' l' t' s')
    given.map (·.call) = given'.map (·.call) ∧
    ((∀ (c : Call) (a a' : Except Failure c.request.Answer),
        ((⟨c, a⟩ : Exchange), (⟨c, a'⟩ : Exchange)) ∈ given.zip given' →
          c.request.AnsweredAlike a a') →
      (∀ x ∈ given, x.call.request.Distinct settings x.answer) → i = i') := by
  intro validation given given'
  have henters := Survey.validate_enters clients settings features
  have hentered : Entered _ given ∅ i :=
    (henters.gathers ∅).holds (Procedure.admits_exchanges hrun)
  have hentered' : Entered _ given' ∅ i' :=
    (henters.gathers ∅).holds (Procedure.admits_exchanges hrun')
  exact ⟨hentered.map_call.trans hentered'.map_call.symm, hentered.eq_of_alike hentered'⟩

/-- The same answer, lists the other way round. -/
def Request.reversed : (r : Request) → Except Failure r.Answer → Except Failure r.Answer
  | .listPods .., a => Except.map (List.reverse (α := Manifest.Pod)) a
  | .listServices .., a => Except.map (List.reverse (α := Manifest.Service)) a
  | .listNodes, a => Except.map (List.reverse (α := Manifest.Node)) a
  | .listExternalWorkloads, a => Except.map (List.reverse (α := Manifest.Metadata)) a
  | _, a => a

theorem rearranged_reverse (a : Except Failure (List α)) :
    Rearranged a (a.map List.reverse) := by
  cases a with
  | error f => exact .failures f f
  | ok l => exact .lists l.reverse_perm.symm

theorem Request.answeredAlike_reversed (r : Request) (a : Except Failure r.Answer) :
    r.AnsweredAlike a (r.reversed a) := by
  cases r with
  | listPods | listServices | listNodes | listExternalWorkloads => exact rearranged_reverse _
  | _ => trivial

/-- A world that has one answer to each call gives no other. -/
theorem answer_of_mem_exchanges {w : World clusterApi}
    (answer : (c : Call) → Except Failure c.request.Answer)
    (hw : ∀ {s c s' delay finish}, w.start s c = (s', some (delay, finish)) →
      (finish s').2 = answer c)
    {p : Procedure clusterApi α} {patience : Nat} {l : Limits} {t : Instant} {s : w.State} {a : α}
    {m : Moment w} (hrun : p.run w patience l ⟨t, s, []⟩ = (.returned a, m)) :
    ∀ x ∈ p.exchanges w patience l t s, x.answer = answer x.call := by
  have hanswers : w.recorded.Keeps fun exchanges _ => ∀ x ∈ exchanges, x.answer = answer x.call :=
    { start := fun _ h => h
      choose := fun _ h => h
      finish := fun {exchanges s c s' delay finish} h hstart => by
        rcases hcourse : w.start s.1 c with ⟨s₁, _ | ⟨delay₁, finish₁⟩⟩ <;>
          simp only [World.recorded, hcourse, Option.map_none, Option.map_some] at hstart <;>
          cases hstart
        exact List.forall_mem_append.2 ⟨h, List.forall_mem_singleton.2 (hw hcourse)⟩ }
  obtain ⟨m', hrecorded, -, hexchanges⟩ := exists_recorded_run hrun
  obtain ⟨exchanges, -, hrecord, hall⟩ :=
    p.run_accounted ((Wait.recorded_keeps w []).and hanswers) hrecorded []
      ⟨rfl, List.forall_mem_nil _⟩
  obtain rfl : p.exchanges w patience l t s = exchanges := hexchanges.symm.trans hrecord
  exact hall

/-- Two worlds that have one answer to each call, the second lists the other way round. -/
theorem answeredAlike_of_reversed (answer : (c : Call) → Except Failure c.request.Answer)
    {exchanges exchanges' : List Exchange} (h : ∀ x ∈ exchanges, x.answer = answer x.call)
    (h' : ∀ x ∈ exchanges', x.answer = x.call.request.reversed (answer x.call)) (c : Call)
    (a a' : Except Failure c.request.Answer)
    (hmem : ((⟨c, a⟩ : Exchange), (⟨c, a'⟩ : Exchange)) ∈
      (listsGiven exchanges).zip (listsGiven exchanges')) : c.request.AnsweredAlike a a' := by
  obtain ⟨hgiven, hgiven'⟩ := List.of_mem_zip hmem
  obtain rfl : a = answer c := h _ (mem_of_mem_listsGiven hgiven)
  obtain rfl : a' = c.request.reversed (answer c) := h' _ (mem_of_mem_listsGiven hgiven')
  exact c.request.answeredAlike_reversed _

/-- No list of the twins has two elements under one key. -/
theorem sharedAnswer_distinct (cluster : Cluster) (r : Request) :
    r.Distinct twinSettings (sharedAnswer cluster r) := by
  cases r with
  | listPods ns selector =>
    have hatMostOne {pods : List Manifest.Pod} (h : pods.length ≤ 1) :
        (Request.listPods ns selector).Distinct twinSettings (.ok pods) := by
      rintro _ ⟨⟩
      cases pods with
      | nil => simp
      | cons pod rest =>
        obtain rfl : rest = [] := by simpa using h
        simp
    change (Request.listPods ns selector).Distinct twinSettings
      (if _ then _ else if _ then _ else
        .ok (if _ then _ else if _ then _ else if _ then _ else _ : List Manifest.Pod))
    split
    next hecho =>
      rintro _ ⟨⟩
      exact ⟨by decide, fun _ hhost => absurd (hecho.symm.trans hhost) (by decide)⟩
    · split
      · exact hatMostOne (by decide)
      · exact hatMostOne (by split_ifs <;> decide)
  | listServices ns selector =>
    rintro _ ⟨⟩
    unfold sharedServices
    split <;> decide
  | listExternalWorkloads =>
    rintro _ ⟨⟩
    exact List.nodup_nil
  | _ => trivial

/-- The twins, which list what they have the other way round. -/
def reversedNetwork : World clusterApi where
  State := Unit
  start _ c := ((), some (1, fun _ => ((), c.request.reversed (sharedAnswer c.cluster c.request))))
  choose _ _ := ((), ⟨0, Nat.succ_pos _⟩)

/-- The lists of the twins are not the same both ways round, and what is held is. -/
theorem reversedNetwork_validate :
    let validation := (validate twinClients twinSettings ∅).run.run ∅
    (∃ m, validation.run sharedNetwork 0 {} ⟨0, (), []⟩ =
      (.returned (.ok (), sharedInventory), m)) ∧
    (∃ m, validation.run reversedNetwork 0 {} ⟨0, (), []⟩ =
      (.returned (.ok (), sharedInventory), m)) ∧
    servicesListed "cilium-test" (validation.exchanges sharedNetwork 0 {} 0 ()) ≠
      servicesListed "cilium-test" (validation.exchanges reversedNetwork 0 {} 0 ()) := by
  intro validation
  have hsucceeds : (validation.run sharedNetwork 0 {} ⟨0, (), []⟩).1 =
      .returned (.ok (), sharedInventory) := by decide +kernel
  have hsucceeds' : ∃ i, (validation.run reversedNetwork 0 {} ⟨0, (), []⟩).1 =
      .returned (.ok (), i) := ⟨sharedInventory, by decide +kernel⟩
  obtain ⟨m, hrun⟩ := Wait.exists_moment hsucceeds
  obtain ⟨i, hsucceeds'⟩ := hsucceeds'
  obtain ⟨m', hrun'⟩ := Wait.exists_moment hsucceeds'
  obtain ⟨-, hsame⟩ := validate_ignores_order twinClients twinSettings ∅ sharedNetwork
    reversedNetwork 0 0 {} {} 0 0 () () hrun hrun'
  let answer (c : Call) : Except Failure c.request.Answer := sharedAnswer c.cluster c.request
  have hanswers := answer_of_mem_exchanges answer (w := sharedNetwork) (by rintro _ _ _ _ _ ⟨⟩; rfl)
    hrun
  have hanswers' := answer_of_mem_exchanges (fun c => c.request.reversed (answer c))
    (w := reversedNetwork) (by rintro _ _ _ _ _ ⟨⟩; rfl) hrun'
  have hdistinct : ∀ x ∈ listsGiven (validation.exchanges sharedNetwork 0 {} 0 ()),
      x.call.request.Distinct twinSettings x.answer := fun x hx => by
    rw [hanswers x (mem_of_mem_listsGiven hx)]
    exact sharedAnswer_distinct ..
  have hinventory := hsame (answeredAlike_of_reversed answer hanswers hanswers') hdistinct
  exact ⟨⟨m, hrun⟩, ⟨m', hinventory ▸ hrun'⟩, by decide +kernel⟩

end Reachability
