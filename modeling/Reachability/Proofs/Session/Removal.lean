import Reachability.Proofs.Cluster.Requests
import Reachability.Proofs.Simulation.Removal
import Reachability.Proofs.Simulation.Service
import Reachability.Proofs.Teardown.Coverage
import Reachability.Proofs.Validation.Requests
import Reachability.Session

namespace Reachability

open Manifest (Kind)
open Reachability.Topology (Item Side)
open Simulation
open Wait (Instant Limits Moment Outcome Procedure World)

variable {α β : Type} {ns : String}

/-- Both sides are among the clusters of a run. -/
theorem Clients.exists_mem_distinct (clients : Clients) (side : Side) :
    ∃ cluster ∈ clients.distinct, cluster.id = (clients.get side).id := by
  unfold distinct
  split
  next hsame => cases side <;> simp [get, hsame]
  next => cases side <;> simp [get]

/-- There are no other clusters in a run. -/
theorem Clients.exists_of_mem_distinct {clients : Clients} {cluster : Cluster}
    (h : cluster ∈ clients.distinct) : ∃ side, clients.get side = cluster := by
  unfold distinct at h
  split at h
  · exact ⟨.source, (List.mem_singleton.1 h).symm⟩
  · rcases List.mem_cons.1 h with rfl | h
    · exact ⟨.source, rfl⟩
    · exact ⟨.destination, (List.mem_singleton.1 h).symm⟩

/-- What every answer keeps, the exchanges keep. -/
theorem Follows.across {R : Store → Store → Prop} (hrefl : ∀ s, R s s)
    (htrans : ∀ s s' s'', R s s' → R s' s'' → R s s'') {machines machines' : List Machine}
    {exchanges : List Exchange} (h : Follows machines exchanges machines')
    (hanswer : ∀ x ∈ exchanges, ∀ s : Store,
      R s (s.answer (shownPod x.call.request) x.call.request).1) : Across R machines machines' := by
  induction exchanges generalizing machines with
  | nil =>
    obtain rfl := h
    exact .refl fun m _ => hrefl m.store
  | cons x exchanges ih =>
    obtain ⟨hx, hrest⟩ := List.forall_mem_cons.1 hanswer
    refine .comp ?_ (ih h.2 hrest) htrans
    rw [answered_fst]
    exact .updateStore hrefl hx _ _

/-- What is read stays as it is. -/
theorem answer_of_reads {r : Request} (hr : r.Reads) (s : Store) (shown : ObjectKey) :
    (s.answer shown r).1 = s := by
  cases r <;> first | rfl | exact hr.elim

/-- The requests of a teardown: the deletion of something in a namespace, or of the namespace, and
look-ups. -/
def Request.TearsDown (ns : String) : Request → Prop
  | .delete kind key => ∃ name, key = kind.keyIn ns name ∧ (kind = .space → name = ns)
  | .get .. => True
  | _ => False

theorem answer_removes {r : Request} (hr : r.TearsDown ns) (s : Store) (shown : ObjectKey) :
    s.Removes ns (s.answer shown r).1 := by
  cases r with
  | get kind key => exact .of_eq rfl rfl
  | delete kind key =>
    obtain ⟨name, rfl, hname⟩ := hr
    exact s.delete_removes hname
  | _ => exact hr.elim

theorem Request.Clears.tearsDown {r : Request} (h : r.Clears ns) : r.TearsDown ns := by
  cases r with
  | get kind key => exact trivial
  | delete kind key =>
    obtain ⟨name, hname, rfl⟩ := h
    exact ⟨name, rfl, space_of_mem_everything hname⟩
  | _ => exact h.elim

theorem teardown_asks (cluster : Cluster) (ns : String) :
    (teardown cluster ns).Asks (·.request.TearsDown ns) :=
  (teardown_confined cluster ns).asks.mono fun _ hc => hc.2.tearsDown

/-- The namespace is not there on a machine. -/
def GoneFrom (ns : String) (id : Nat) (machines : List Machine) : Prop :=
  ∀ m, machines[id]? = some m → m.store.has .space ⟨"", ns⟩ = false

theorem GoneFrom.removes {id : Nat} {machines machines' : List Machine}
    (h : GoneFrom ns id machines) (hremoves : Across (Store.Removes ns) machines machines') :
    GoneFrom ns id machines' := by
  intro m' hm'
  have hlt : id < machines.length := by
    rw [← hremoves.length_eq]
    exact (List.getElem?_eq_some_iff.1 hm').1
  have hm := List.getElem?_eq_getElem hlt
  exact (hremoves.related hm hm').gone (h _ hm)

/-- A look-up that fails in the end shows that the namespace is gone. -/
theorem Follows.gone {cluster : Cluster} {machines machines' : List Machine}
    {exchanges : List Exchange} {f : Failure} (h : Follows machines exchanges machines')
    (hlast : exchanges.getLast? = some ⟨⟨cluster, .get .space ⟨"", ns⟩⟩, .error f⟩) :
    GoneFrom ns cluster.id machines' := by
  obtain ⟨before, rfl⟩ := List.getLast?_eq_some_iff.1 hlast
  obtain ⟨machines₁, -, hanswer, hmachines⟩ := follows_append.1 h
  have hunchanged : machines' = machines₁ := by
    rw [show machines' = (answered machines₁ ⟨cluster, .get .space ⟨"", ns⟩⟩).1 from hmachines,
      answered_fst]
    exact updateStore_eq_self fun _ _ => rfl
  subst hunchanged
  intro m hm
  rw [answered_of_getElem? (c := ⟨cluster, .get .space ⟨"", ns⟩⟩) hm] at hanswer
  cases hhas : m.store.has .space ⟨"", ns⟩ with
  | false => rfl
  | true =>
    have hfound : m.store.get .space ⟨"", ns⟩ = .ok () := if_pos hhas
    cases hanswer.trans hfound

/-- An attempt at a request is answered or interrupted. -/
theorem Check.admits_attempt_bind {what : String} {cluster : Cluster} {r : Request}
    {f : Except Failure r.Answer → Check β} {exchanges : List Exchange} {b : Except Failure β}
    (h : (attempt (request what cluster r) >>= f).run.Admits exchanges b) :
    (∃ answer rest, exchanges = ⟨⟨cluster, r⟩, answer⟩ :: rest ∧ (f answer).run.Admits rest b) ∨
      ∃ begun rest i answer, exchanges = begun ++ rest ∧ Wait.Interrupted i answer ∧
        (f answer).run.Admits rest b := by
  obtain ⟨_, rest, _, rfl, ⟨_, _, answer, rfl, hanswer, rfl, rfl⟩, hrest⟩ :=
    Procedure.Admits.of_bind (p := (attempt (request what cluster r)).run) h
  rcases hanswer with ⟨_, _, rfl, rfl, rfl⟩ | ⟨_, i, hinterrupted⟩
  · exact .inl ⟨_, rest, rfl, hrest⟩
  · exact .inr ⟨_, rest, i, answer, rfl, hinterrupted, hrest⟩

/-- The wait for a namespace to go succeeds on a look-up that fails. The first one counts only if it
was not the wait that ended. -/
theorem awaitGone_last {cluster : Cluster} {exchanges : List Exchange}
    (hadmits : (awaitGone cluster ns).run.Admits exchanges (.ok ())) :
    ∃ before f, exchanges = before ++ [⟨⟨cluster, .get .space ⟨"", ns⟩⟩, .error f⟩] ∧
      (f.endsWait = true →
        ∃ found, ⟨⟨cluster, .get .space ⟨"", ns⟩⟩, .ok found⟩ ∈ before) := by
  rcases Check.admits_attempt_bind hadmits with
    ⟨answer, rest, rfl, hrest⟩ | ⟨begun, rest, i, answer, rfl, ⟨what, last, rfl⟩, hrest⟩
  · cases answer with
    | ok found =>
      obtain ⟨tried, _, r, rfl, hretries, rfl, rfl⟩ := hrest
      obtain ⟨failed, last, rfl, deleted, _, rfl, lookup, _, rfl, rfl, hresult⟩ := hretries.of_ok
      cases lookup with
      | ok found' => cases hresult
      | error f =>
        refine ⟨⟨⟨cluster, .get .space ⟨"", ns⟩⟩, .ok found⟩ :: failed ++
          [⟨⟨cluster, .delete .space ⟨"", ns⟩⟩, deleted⟩], f, by simp, fun _ => ⟨found, ?_⟩⟩
        exact List.mem_append_left _ List.mem_cons_self
    | error f =>
      dsimp only at hrest
      split at hrest
      · cases hrest.2
      next hlive =>
        obtain ⟨rfl, -⟩ := hrest
        exact ⟨[], f, rfl, fun hends => absurd hends hlive⟩
  · simp only [endsWait_interrupt, if_true] at hrest
    obtain ⟨-, hthrown⟩ := hrest
    cases hthrown

/-- Once the wait for it to go has succeeded, the namespace is gone. -/
theorem awaitGone_gone {cluster : Cluster} {machines machines' : List Machine}
    {exchanges : List Exchange} (hadmits : (awaitGone cluster ns).run.Admits exchanges (.ok ()))
    (hfollows : Follows machines exchanges machines') : GoneFrom ns cluster.id machines' := by
  obtain ⟨before, f, rfl, -⟩ := awaitGone_last hadmits
  exact hfollows.gone List.getLast?_concat

section Runs

variable {w : World clusterApi} {machines : w.State → List Machine} {patience : Nat} {l : Limits}
  {m m' : Moment w}

/-- What every call keeps, a run that returns keeps. -/
theorem Serves.run_across (h : Serves w machines) (hquiet : Quiet (machines m.state))
    {p : Procedure clusterApi α} {allowed : Call → Prop} (hasks : p.Asks allowed)
    {R : Store → Store → Prop} (hrefl : ∀ s, R s s)
    (htrans : ∀ s s' s'', R s s' → R s' s'' → R s s'')
    (hallowed : ∀ c, allowed c → ∀ (s : Store) (shown : ObjectKey),
      R s (s.answer shown c.request).1) {a : α}
    (hrun : p.run w patience l m = (.returned a, m')) :
    Quiet (machines m'.state) ∧ Across R (machines m.state) (machines m'.state) := by
  obtain ⟨exchanges, hadmits, hfollows⟩ := h.run_follows hquiet hrun
  refine ⟨hfollows.quiet hquiet, ?_⟩
  exact hfollows.across hrefl htrans
    fun x hx s => hallowed x.call (hasks exchanges a hadmits x hx) s _

/-- Where calls at most remove things from the namespace, a run that returns does too. -/
theorem Serves.run_removes (h : Serves w machines) (hquiet : Quiet (machines m.state))
    {p : Procedure clusterApi α} {allowed : Call → Prop} (hasks : p.Asks allowed)
    (hallowed : ∀ c, allowed c → ∀ (s : Store) (shown : ObjectKey),
      s.Removes ns (s.answer shown c.request).1) {a : α}
    (hrun : p.run w patience l m = (.returned a, m')) :
    Quiet (machines m'.state) ∧
      Across (Store.Removes ns) (machines m.state) (machines m'.state) :=
  h.run_across hquiet hasks (fun _ => .of_eq rfl rfl) (fun _ _ _ => .trans) hallowed hrun

/-- A teardown of these clusters has removed things from the namespace, and from these clusters the
namespace itself. -/
structure TornDown (ns : String) (clusters : List Cluster) (machines machines' : List Machine) :
    Prop where
  quiet : Quiet machines'
  removes : Across (Store.Removes ns) machines machines'
  gone {cluster : Cluster} (h : cluster ∈ clusters) : GoneFrom ns cluster.id machines'

theorem Serves.run_teardown (h : Serves w machines) (hquiet : Quiet (machines m.state))
    {cluster : Cluster}
    (hrun : (teardown cluster ns).run.run w patience l m = (.returned (.ok ()), m')) :
    TornDown ns [cluster] (machines m.state) (machines m'.state) := by
  obtain ⟨hquiet', hremoves⟩ := h.run_removes hquiet (teardown_asks cluster ns).asks
    (fun _ hc => answer_removes hc) hrun
  refine ⟨hquiet', hremoves, fun {other} hother => ?_⟩
  obtain rfl := List.mem_singleton.1 hother
  obtain ⟨exchanges, hadmits, hfollows⟩ := h.run_follows hquiet hrun
  obtain ⟨before, after, e | _, rfl, -, hafter⟩ :=
    Procedure.Admits.of_bind (b := Except.ok ()) hadmits
  · cases hafter.2
  · obtain ⟨_, -, hrest⟩ := follows_append.1 hfollows
    exact awaitGone_gone hafter hrest

theorem Serves.run_teardowns (h : Serves w machines) {clusters : List Cluster} {i i' : Inventory}
    (hquiet : Quiet (machines m.state))
    (hrun : ((clusters.forM fun cluster => Survey.check (teardown cluster ns)).run.run i).run
      w patience l m = (.returned (.ok (), i'), m')) :
    TornDown ns clusters (machines m.state) (machines m'.state) := by
  induction clusters generalizing i m with
  | nil =>
    cases hrun
    exact ⟨hquiet, .refl fun _ _ => .of_eq rfl rfl, fun h => absurd h List.not_mem_nil⟩
  | cons cluster clusters ih =>
    obtain ⟨_, i₁, m₁, hfirst, hrest⟩ := Survey.run_bind_ok hrun
    rw [Survey.run_check] at hfirst
    rcases hteardown : (teardown cluster ns).run.run w patience l m with ⟨r | _ | _, m₀⟩ <;>
      rw [hteardown] at hfirst <;> cases hfirst
    have hdone := h.run_teardown hquiet hteardown
    have hothers := ih hdone.quiet hrest
    refine ⟨hothers.quiet, hdone.removes.comp hothers.removes fun _ _ _ => .trans, ?_⟩
    intro other hother
    rcases List.mem_cons.1 hother with rfl | hother
    · exact (hdone.gone List.mem_cons_self).removes hothers.removes
    · exact hothers.gone hother

/-- Since a moment when nothing stood in the namespace, things have been made there only together
with the namespace, and only on the clusters of the run. -/
structure Tidy (clients : Clients) (ns : String) (initial machines : List Machine) : Prop where
  quiet : Quiet machines
  orderly : Across (Store.Orderly ns) initial machines
  elsewhere {id : Nat} (h : ∀ side, (clients.get side).id ≠ id) : GoneFrom ns id machines

variable {clients : Clients} {initial machines₁ machines₂ : List Machine}

theorem Tidy.refl (hquiet : Quiet initial) (hlacks : ∀ m ∈ initial, m.store.Lacks ns) :
    Tidy clients ns initial initial where
  quiet := hquiet
  orderly := .refl fun m hm => (hlacks m hm).orderly
  elsewhere {id} _ := by
    intro m hm
    have hspace := (hlacks m (List.mem_of_getElem? hm)).objects ⟨.space, ⟨"", ns⟩⟩ rfl
    simp [Store.has, Dict.contains, hspace]

theorem Tidy.removes (h : Tidy clients ns initial machines₁) (hquiet : Quiet machines₂)
    (hremoves : Across (Store.Removes ns) machines₁ machines₂) :
    Tidy clients ns initial machines₂ where
  quiet := hquiet
  orderly := h.orderly.comp hremoves fun _ _ _ => .removes
  elsewhere hid := (h.elsewhere hid).removes hremoves

theorem Tidy.ensureAll (h : Tidy clients ns initial machines₁) {steps : List (Side × Item)}
    (hready : Ready clients machines₁) (hinside : Inside ns steps)
    (hopens : Opens clients ns steps) :
    Tidy clients ns initial (ensureAll clients ns steps machines₁) where
  quiet := (Partway.complete.ready hready).quiet
  orderly := ensureAll_orderly hinside hopens h.orderly
  elsewhere {id} hid := by
    intro m hm
    rw [getElem?_ensureAll_of_ne fun step _ => hid step.1] at hm
    exact h.elsewhere hid m hm

theorem Serves.run_provision (h : Serves w machines) {settings : Settings} {features : FeatureSet}
    {i i' : Inventory} {plan : Topology.Plan}
    (hclients : settings.isMultiCluster = false → clients.source = clients.destination)
    (htidy : Tidy clients settings.testNamespace initial (machines m.state))
    (hthere : ∀ side, (clients.get side).id < (machines m.state).length)
    (hrun : ((provision clients settings features).run.run i).run w patience l m =
      (.returned (.ok plan, i'), m')) :
    Tidy clients settings.testNamespace initial (machines m'.state) := by
  have hready : Ready clients (machines m.state) := ⟨hthere, htidy.quiet⟩
  obtain ⟨_, _, hrun', hleads⟩ :=
    provision_leads h.disturbs.stage hready settings features patience l i m trivial rfl
  obtain ⟨rfl, rfl⟩ := Prod.mk.inj (hrun.symm.trans hrun')
  obtain ⟨rfl, hmachines⟩ := hleads
  rw [show machines m'.state = _ from hmachines]
  exact htidy.ensureAll hready (plan_inside settings features _)
    (plan_opens_everywhere clients settings features _ hclients)

theorem Serves.run_deploy (h : Serves w machines) {settings : Settings} {features : FeatureSet}
    {i i' : Inventory} {plan : Topology.Plan}
    (hclients : settings.isMultiCluster = false → clients.source = clients.destination)
    (htidy : Tidy clients settings.testNamespace initial (machines m.state))
    (hthere : ∀ side, (clients.get side).id < (machines m.state).length)
    (hrun : ((deploy clients settings features).run.run i).run w patience l m =
      (.returned (.ok plan, i'), m')) :
    Tidy clients settings.testNamespace initial (machines m'.state) := by
  rw [deploy_eq] at hrun
  split at hrun
  · obtain ⟨_, i₁, m₁, hteardown, hprovision⟩ := Survey.run_bind_ok hrun
    have hdown := h.run_teardowns htidy.quiet hteardown
    refine h.run_provision hclients (htidy.removes hdown.quiet hdown.removes) ?_ hprovision
    exact hdown.removes.length_eq.symm ▸ hthere
  · exact h.run_provision hclients htidy hthere hrun

end Runs

theorem run_ok {w : World clusterApi} {clients : Clients} {settings : Settings}
    {features : FeatureSet} {patience : Nat} {l : Limits} {m m' : Moment w} {i : Inventory}
    (hrun : (run clients settings features).run.run w patience l m = (.returned (.ok i), m')) :
    ((runAll clients settings features).run.run ∅).run w patience l m =
      (.returned (.ok (), i), m') := by
  have hbind := (Procedure.run_bind ((runAll clients settings features).run.run ∅) _).symm.trans
    hrun
  rcases hall : ((runAll clients settings features).run.run ∅).run w patience l m with
    ⟨⟨e | _, i'⟩ | _ | _, m₁⟩ <;> rw [hall] at hbind <;> cases hbind
  rfl

/-- A run with a teardown that succeeds leaves no trace. On clusters in memory that answer in their
own time, where neither the namespace of the run nor anything in it is there beforehand, every
object and every pod is afterwards as it was, and there is no other. -/
theorem run_leaves_no_trace {w : World clusterApi} {machines : w.State → List Machine}
    (hserves : Serves w machines) (clients : Clients) (settings : Settings)
    (features : FeatureSet) (hteardown : settings.teardown = true)
    (hclients : settings.isMultiCluster = false → clients.source = clients.destination)
    {patience : Nat} {l : Limits} {m m' : Moment w} {i : Inventory}
    (hthere : ∀ side, (clients.get side).id < (machines m.state).length)
    (hquiet : Quiet (machines m.state))
    (hlacks : ∀ machine ∈ machines m.state, machine.store.Lacks settings.testNamespace)
    (hrun : (run clients settings features).run.run w patience l m = (.returned (.ok i), m')) :
    (machines m'.state).length = (machines m.state).length ∧
      ∀ (id : Nat) (before after : Machine), (machines m.state)[id]? = some before →
        (machines m'.state)[id]? = some after →
        after.store.objects = before.store.objects ∧ after.store.pods = before.store.pods := by
  obtain ⟨_, i₁, m₁, hdeploy, hrest⟩ := Survey.run_bind_ok (run_ok hrun)
  obtain ⟨_, i₂, m₂, hvalidate, hdown⟩ := Survey.run_bind_ok hrest
  rw [if_pos hteardown] at hdown
  have htidy₁ := hserves.run_deploy hclients (.refl hquiet hlacks) hthere hdeploy
  have hreads : ∀ c : Call, c.request.Reads → ∀ (s : Store) (shown : ObjectKey),
      s.Removes settings.testNamespace (s.answer shown c.request).1 := by
    intro c hc s shown
    rw [answer_of_reads hc]
    exact .of_eq rfl rfl
  obtain ⟨hquiet₂, hread⟩ := hserves.run_removes htidy₁.quiet
    ((validate_reads clients settings features).asks i₁) hreads hvalidate
  have htidy₂ := htidy₁.removes hquiet₂ hread
  have hgone := hserves.run_teardowns hquiet₂ hdown
  have htidy := htidy₂.removes hgone.quiet hgone.removes
  refine ⟨htidy.orderly.length_eq, fun id before after hbefore hafter => ?_⟩
  have horderly := htidy.orderly.related hbefore hafter
  refine horderly.outside.eq_of_lacks (hlacks _ (List.mem_of_getElem? hbefore)) ?_
  refine horderly.inside ?_
  by_cases hside : ∃ side, (clients.get side).id = id
  · obtain ⟨side, rfl⟩ := hside
    obtain ⟨cluster, hcluster, hid⟩ := clients.exists_mem_distinct side
    exact hgone.gone hcluster after (hid ▸ hafter)
  · exact htidy.elsewhere (fun side hid => hside ⟨side, hid⟩) after hafter

/-- A cluster with a namespace of someone else, which rejects a deletion at first. -/
def sharedCluster : Store :=
  { Store.fresh "kind" with
    rejections := 1
    objects := .ofList [(⟨.space, ⟨"", "other"⟩⟩, .space (.named "other"))] }

/-- Five objects were made, and the namespace was deleted at the second attempt. -/
theorem sharedCluster_untouched :
    let settings : Settings := { performance := true, singleNode := true, teardown := true }
    ∃ (i : Inventory) (m : Moment (world false)),
      (run (.single ⟨0, "kind"⟩) settings ∅).run.run (world false) 2 {}
          ⟨0, [{ store := sharedCluster }], []⟩ = (.returned (.ok i), m) ∧
        (machinesAt m.state).map (fun machine =>
          (machine.store.creates, machine.store.spaceDeletes)) = [(5, 2)] ∧
        ∀ after, (machinesAt m.state)[0]? = some after →
          after.store.objects = sharedCluster.objects ∧ after.store.pods = sharedCluster.pods := by
  intro settings
  have hends :
      (match (run (.single ⟨0, "kind"⟩) settings ∅).run.run (world false) 2 {}
          ⟨0, [{ store := sharedCluster }], []⟩ with
        | (.returned (.ok _), m) => (machinesAt m.state).map fun machine =>
          (machine.store.creates, machine.store.spaceDeletes)
        | (.returned (.error _), _) | (.stalled, _) | (.crashed, _) => []) = [(5, 2)] := by
    decide +kernel
  rcases hrun : (run (.single ⟨0, "kind"⟩) settings ∅).run.run (world false) 2 {}
      ⟨0, [{ store := sharedCluster }], []⟩ with ⟨⟨_ | i⟩ | _ | _, m⟩ <;> rw [hrun] at hends
  · cases hends
  · have hlacks : sharedCluster.Lacks settings.testNamespace := by decide +kernel
    obtain ⟨-, hsame⟩ := run_leaves_no_trace serves_world (.single ⟨0, "kind"⟩) settings ∅ rfl
      (fun _ => rfl) (by rintro (_ | _) <;> exact Nat.one_pos)
      (fun machine hmachine => by rw [List.mem_singleton.1 hmachine])
      (fun machine hmachine => by rwa [List.mem_singleton.1 hmachine]) hrun
    exact ⟨i, m, rfl, hends, fun after => hsame 0 { store := sharedCluster } after rfl⟩
  · cases hends
  · cases hends

end Reachability
