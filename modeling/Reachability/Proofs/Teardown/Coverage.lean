import Reachability.Proofs.Cluster.Conduct
import Reachability.Proofs.Provision.Resumption
import Reachability.Proofs.Simulation.Removal

namespace Reachability

open Manifest (Kind Object)
open Reachability.Topology (Item PerformanceNames Plan Side)
open Simulation
open Wait (Instant Limits Moment Procedure World)

/-- All that a teardown deletes, the namespace included. -/
def everything (ns : String) : List (Kind × String) := everyObject ++ [(.space, ns)]

theorem mem_everything_deployment {ns name : String} :
    (Kind.deployment, name) ∈ everything ns ↔ name ∈ everyDeployment := by
  simp [everything, everyObject]

theorem mem_everything_serviceAccount {ns name : String} :
    (Kind.serviceAccount, name) ∈ everything ns ↔ name ∈ everyDeployment := by
  simp [everything, everyObject]

theorem mem_everything_space {ns name : String} :
    (Kind.space, name) ∈ everything ns ↔ name = ns := by
  simp [everything, everyObject]

theorem space_of_mem_everything {ns : String} {kind : Kind} {name : String}
    (h : (kind, name) ∈ everything ns) (hkind : kind = .space) : name = ns := by
  subst hkind
  exact mem_everything_space.1 h

theorem performanceNames_subset (hostNetwork : Bool) :
    [(PerformanceNames.ofHostNetwork hostNetwork).client,
      (PerformanceNames.ofHostNetwork hostNetwork).server,
      (PerformanceNames.ofHostNetwork hostNetwork).clientAcross] ⊆ everyDeployment := by
  cases hostNetwork <;> decide

theorem connectivityObjects_subset :
    [(Kind.configMap, Topology.dnsConfigMapName), (.service, Topology.echoSameNodeName),
      (.service, Topology.echoOtherNodeName), (.deployment, Topology.echoSameNodeName),
      (.deployment, Topology.clientName), (.deployment, Topology.secondClientName),
      (.deployment, Topology.echoOtherNodeName), (.deployment, Topology.echoExternalNodeName),
      (.daemonSet, Topology.hostNetworkName), (.ingress, Topology.ingressName)] ⊆ everyObject := by
  decide

theorem planPerformance_subset (settings : Settings) (zone : String) :
    ∀ step ∈ (Topology.planPerformance settings zone).steps,
      (step.2.kind, step.2.name) ∈ everything settings.testNamespace := by
  have hnames := performanceNames_subset settings.performanceHostNetwork
  simp only [List.cons_subset, List.nil_subset, and_true] at hnames
  cases hsingle : settings.singleNode <;>
    simp [Topology.planPerformance, hsingle, Item.kind, Item.name, mem_everything_deployment,
      mem_everything_space, hnames]

theorem planConnectivity_subset (settings : Settings) (features : FeatureSet) :
    ∀ step ∈ (Topology.planConnectivity settings features).steps,
      (step.2.kind, step.2.name) ∈ everything settings.testNamespace := by
  have hobjects := connectivityObjects_subset
  simp only [List.cons_subset, List.nil_subset, and_true] at hobjects
  simp [Topology.planConnectivity, or_imp, forall_and, Item.kind, Item.name, everything, hobjects]

/-- A teardown deletes what any step of any plan is about. -/
theorem mem_everything_of_step {settings : Settings} {features : FeatureSet} {zone : String}
    {side : Side} {item : Item}
    (h : (side, item) ∈ (Topology.plan settings features zone).steps) :
    (item.kind, item.name) ∈ everything settings.testNamespace := by
  unfold Topology.plan at h
  split at h
  · exact planPerformance_subset settings zone _ h
  · exact planConnectivity_subset settings features _ h

/-- A teardown deletes all that may have been made for any plan. -/
theorem mem_everything_of_planned {settings : Settings} {features : FeatureSet} {zone : String}
    {side : Side} {item : Item} (h : (side, item) ∈ (Topology.plan settings features zone).steps)
    {o : Object} (ho : o ∈ item.objects) :
    (o.kind, o.name) ∈ everything settings.testNamespace := by
  have hitem := mem_everything_of_step h
  obtain ⟨hname, hkind | ⟨hkind, hdeployment⟩⟩ := Item.of_mem_objects ho
  · rwa [hname, hkind]
  · rw [hdeployment, mem_everything_deployment] at hitem
    rwa [hname, hkind, mem_everything_serviceAccount]

/-- The request is about the namespace, or about something in it. -/
def Request.StaysIn (ns : String) : Request → Prop
  | .get kind key | .delete kind key => Place.Within ns ⟨kind, key⟩
  | .create space o => Place.Within ns ⟨o.kind, ⟨space, o.name⟩⟩
  | .listPods space _ | .listServices space _ => space = ns
  | .getEndpoint pod | .exec pod _ _ => pod.space = ns
  | .listNodes | .listExternalWorkloads => False

/-- The requests of a teardown: deletions of what any plan may have made, and whether the namespace
is still there. -/
def Request.Clears (ns : String) : Request → Prop
  | .get kind key => kind = .space ∧ key = ⟨"", ns⟩
  | .delete kind key => ∃ name, (kind, name) ∈ everything ns ∧ key = kind.keyIn ns name
  | _ => False

theorem Request.Clears.staysIn {ns : String} {r : Request} (h : r.Clears ns) : r.StaysIn ns := by
  cases r with
  | get kind key =>
    obtain ⟨rfl, rfl⟩ := h
    rfl
  | delete kind key =>
    obtain ⟨name, hname, rfl⟩ := h
    exact Place.within_keyIn (space_of_mem_everything hname)
  | _ => exact h.elim

/-- The calls of a teardown of this cluster. -/
def Call.Clears (cluster : Cluster) (ns : String) (c : Call) : Prop :=
  c.cluster = cluster ∧ c.request.Clears ns

/-- The call for one deletion. -/
def deletionOf (cluster : Cluster) (ns : String) (subject : Kind × String) : Call :=
  ⟨cluster, .delete subject.1 (subject.1.keyIn ns subject.2)⟩

/-- One deletion of a teardown. Its failure is passed over. -/
def passDeletion (cluster : Cluster) (ns : String) (subject : Kind × String) : Check Unit := do
  let _ ← Check.attempt <| Check.request (subject.1.phrase ++ " deletion") cluster
    (deletionOf cluster ns subject).request

/-- The deletions of a teardown, one after the other. -/
def deletions (cluster : Cluster) (ns : String) (subjects : List (Kind × String)) : Check Unit :=
  subjects.forM (passDeletion cluster ns)

theorem deletions_cons (cluster : Cluster) (ns : String) (subject : Kind × String)
    (subjects : List (Kind × String)) : deletions cluster ns (subject :: subjects) =
      (do passDeletion cluster ns subject; deletions cluster ns subjects) :=
  rfl

theorem teardown_eq (cluster : Cluster) (ns : String) :
    teardown cluster ns = (do deletions cluster ns (everything ns); awaitGone cluster ns) :=
  rfl

theorem deletions_confined {cluster : Cluster} {ns : String} {subjects : List (Kind × String)}
    (h : subjects ⊆ everything ns) :
    (deletions cluster ns subjects).Confined (Call.Clears cluster ns) :=
  .forM fun x hx => .bind (.attempt (.request ⟨rfl, x.2, h hx, rfl⟩ _)) fun _ => .pure ()

/-- The calls of the wait for a namespace to go. -/
def Call.AwaitsGone (cluster : Cluster) (ns : String) (c : Call) : Prop :=
  c = ⟨cluster, .get .space ⟨"", ns⟩⟩ ∨ c = deletionOf cluster ns (.space, ns)

theorem Call.AwaitsGone.clears {cluster : Cluster} {ns : String} {c : Call}
    (h : c.AwaitsGone cluster ns) : c.Clears cluster ns := by
  rcases h with rfl | rfl
  · exact ⟨rfl, rfl, rfl⟩
  · exact ⟨rfl, ns, mem_everything_space.2 rfl, rfl⟩

theorem awaitGone_awaitsGone (cluster : Cluster) (ns : String) :
    (awaitGone cluster ns).Confined (Call.AwaitsGone cluster ns) := by
  have hgone : (namespaceGone cluster ns).Asks (Call.AwaitsGone cluster ns) :=
    ⟨.inr rfl, fun _ => ⟨.inl rfl, fun _ => trivial⟩⟩
  refine .bind (.attempt (.request (.inl rfl) _)) fun r => ?_
  split
  · exact .poll hgone _ _
  · split
    · exact .throw _
    · exact .pure ()

theorem awaitGone_confined (cluster : Cluster) (ns : String) :
    (awaitGone cluster ns).Confined (Call.Clears cluster ns) :=
  (awaitGone_awaitsGone cluster ns).mono fun _ => Call.AwaitsGone.clears

theorem teardown_confined (cluster : Cluster) (ns : String) :
    (teardown cluster ns).Confined (Call.Clears cluster ns) :=
  .bind (deletions_confined fun _ h => h) fun _ => awaitGone_confined cluster ns

/-- What is created is planned. -/
def Call.PlannedBy (clients : Clients) (ns : String) (steps : List (Side × Item)) (c : Call) :
    Prop :=
  ∀ space o, c.request = .create space o → ∃ side item,
    (side, item) ∈ steps ∧ o ∈ item.objects ∧ c = ⟨clients.get side, o.creation ns⟩

/-- A deployment only looks, and creates what is planned. -/
structure Call.Provisions (clients : Clients) (ns : String) (steps : List (Side × Item))
    (c : Call) : Prop where
  request : c.request.Provisions
  planned : c.PlannedBy clients ns steps

section Deployments

variable {clients : Clients} {ns : String} {steps : List (Side × Item)}

theorem Call.plannedBy_of_ne {c : Call} (h : ∀ space o, c.request ≠ .create space o) :
    c.PlannedBy clients ns steps :=
  fun space o hcreate => absurd hcreate (h space o)

theorem Call.provisions_get (cluster : Cluster) (kind : Kind) (key : ObjectKey) :
    Call.Provisions clients ns steps ⟨cluster, .get kind key⟩ :=
  ⟨trivial, plannedBy_of_ne fun _ _ h => by cases h⟩

theorem Call.provisions_listNodes (cluster : Cluster) :
    Call.Provisions clients ns steps ⟨cluster, .listNodes⟩ :=
  ⟨trivial, plannedBy_of_ne fun _ _ h => by cases h⟩

theorem Call.provisions_creation {side : Side} {item : Item} (h : (side, item) ∈ steps)
    {o : Object} (ho : o ∈ item.objects) :
    Call.Provisions clients ns steps ⟨clients.get side, o.creation ns⟩ := by
  refine ⟨trivial, ?_⟩
  rintro space _ ⟨⟩
  exact ⟨side, item, h, ho, rfl⟩

theorem takeSteps_confined (clients : Clients) (ns : String) (steps : List (Side × Item)) :
    (takeSteps clients ns steps).Confined (Call.Provisions clients ns steps) := by
  refine .forM fun step hstep => .bind (.attempt (.request (Call.provisions_get _ _ _) _))
    fun lookup => .bind (.ofExcept _) fun missing => ?_
  split
  · refine .bind (.forM fun o ho => ?_) fun _ => ?_
    · exact .bind (.attempt (.request (Call.provisions_creation hstep ho) _))
        fun answer => .ofExcept _
    · split
      · exact .record _
      · exact .pure ()
  · exact .pure ()

theorem chooseZone_confined (clients : Clients) (settings : Settings) :
    (chooseZone clients settings).Confined (Call.Provisions clients ns steps) := by
  unfold chooseZone
  split
  · exact .bind (.check (.request (Call.provisions_listNodes _) _)) fun _ => .pure _
  · exact .pure _

/-- What a deployment creates is planned, in some zone. -/
theorem deploy_confined (clients : Clients) (settings : Settings) (features : FeatureSet) :
    (deploy clients settings features).Confined fun c => ∃ zone,
      c.PlannedBy clients settings.testNamespace
        (Topology.plan settings features zone).steps := by
  have hprovision : (provision clients settings features).Confined fun c => ∃ zone,
      c.PlannedBy clients settings.testNamespace
        (Topology.plan settings features zone).steps := by
    refine .bind ((chooseZone_confined clients settings).mono fun c hc => ⟨"", hc.planned⟩)
      fun zone => .bind ?_ fun _ => .pure _
    exact (takeSteps_confined clients _ _).mono fun c hc => ⟨zone, hc.planned⟩
  rw [deploy_eq]
  split
  · refine .bind (.forM fun cluster _ => .check ?_) fun _ => hprovision
    refine (teardown_confined cluster _).mono fun c hc =>
      ⟨"", Call.plannedBy_of_ne fun space o h => ?_⟩
    rw [Call.Clears, h] at hc
    exact hc.2
  · exact hprovision

end Deployments

section Runs

variable {w : World clusterApi} {cluster : Cluster}

/-- A call to delete something is answered at some point. -/
def AnswersDeletions (w : World clusterApi) : Prop :=
  ∀ (s : w.State) (cluster : Cluster) (kind : Kind) (key : ObjectKey),
    ∃ s' delay finish, w.start s ⟨cluster, .delete kind key⟩ = (s', some (delay, finish))

/-- Where they are answered, all deletions are asked for, whatever the answers. -/
theorem run_deletions (hanswers : AnswersDeletions w) (ns : String)
    (subjects : List (Kind × String)) (patience : Nat) (m : Moment w) :
    ∃ m', (deletions cluster ns subjects).run.run w patience {} m = (.returned (.ok ()), m') ∧
      m'.asked = m.asked ++ subjects.map (deletionOf cluster ns) := by
  induction subjects generalizing m with
  | nil => exact ⟨m, rfl, (List.append_nil _).symm⟩
  | cons subject subjects ih =>
    obtain ⟨s, delay, finish, hstart⟩ :=
      hanswers m.state cluster subject.1 (subject.1.keyIn ns subject.2)
    obtain ⟨m', hrun, hasked⟩ := ih (m.answered (deletionOf cluster ns subject) delay (finish s).1)
    refine ⟨m', ?_, ?_⟩
    · rw [deletions_cons, Check.run_bind, passDeletion, Check.run_attempt_bind]
      have hfirst := Wait.raceOnce_call_of_answered (A := clusterApi)
        (subject.1.phrase ++ " deletion") hstart
      refine (congrArg (Wait.andThen · _) (congrArg (Wait.andThen · _) hfirst)).trans ?_
      exact hrun
    · rw [hasked, Moment.asked_answered, List.append_assoc]
      rfl

/-- A teardown that nothing ends asks for all deletions, and then whether the namespace is there. -/
theorem run_teardown_asked (hanswers : AnswersDeletions w) (cluster : Cluster) (ns : String)
    (patience : Nat) (m : Moment w) :
    ∃ rest, ((teardown cluster ns).run.run w patience {} m).2.asked =
      m.asked ++ (everything ns).map (deletionOf cluster ns) ++
        ⟨cluster, .get .space ⟨"", ns⟩⟩ :: rest := by
  obtain ⟨m', hrun, hasked⟩ := run_deletions hanswers ns (everything ns) patience m
  rw [teardown_eq, Check.run_bind, hrun, ← hasked]
  exact Check.run_attempt_bind_asked patience {} m' _ cluster _ _ rfl

end Runs

/-- A teardown covers all that deployments make. Let something be deployed, in any circumstances and
with any outcome, and later the same namespace be torn down on one of the clusters, where every
deletion is answered in some way and nothing ends the teardown. Before it asks for the first time
whether the namespace is there, the teardown has asked for the deletion of every object whose
creation was asked for on that cluster. Nothing that it asks for lies outside the namespace. -/
theorem teardown_covers_deployment (clients : Clients) (settings : Settings)
    (features : FeatureSet) (inventory : Inventory) (v : World clusterApi) (patience : Nat)
    (l : Limits) (t : Instant) (s : v.State) (cluster : Cluster) {w : World clusterApi}
    (hanswers : AnswersDeletions w) (patience' : Nat) (t' : Instant) (s' : w.State) :
    let ns := settings.testNamespace
    let deployed :=
      (((deploy clients settings features).run.run inventory).run v patience l ⟨t, s, []⟩).2
    let torn := ((teardown cluster ns).run.run w patience' {} ⟨t', s', []⟩).2
    ∃ deletions rest,
      torn.asked = deletions ++ ⟨cluster, .get .space ⟨"", ns⟩⟩ :: rest ∧
      (∀ c ∈ deletions, ∃ kind key, c.request = .delete kind key) ∧
      (∀ space o, ⟨cluster, .create space o⟩ ∈ deployed.asked →
        ⟨cluster, .delete o.kind ⟨space, o.name⟩⟩ ∈ deletions) ∧
      ∀ c ∈ torn.asked, c.cluster = cluster ∧ c.request.StaysIn ns := by
  intro ns deployed torn
  obtain ⟨rest, hasked⟩ := run_teardown_asked hanswers cluster ns patience' ⟨t', s', []⟩
  refine ⟨(everything ns).map (deletionOf cluster ns), rest, hasked, ?_, ?_, ?_⟩
  · intro c hc
    obtain ⟨subject, -, rfl⟩ := List.mem_map.1 hc
    exact ⟨_, _, rfl⟩
  · intro space o hcreated
    obtain ⟨zone, hplanned⟩ :=
      ((deploy_confined clients settings features).confined inventory).calls patience l
        (List.forall_mem_nil _) _ hcreated
    obtain ⟨side, item, hstep, ho, heq⟩ := hplanned space o rfl
    obtain ⟨-, hspace⟩ : _ ∧ Request.create space o = o.creation ns := Call.mk.inj heq
    obtain ⟨rfl, -⟩ := Request.create.inj hspace
    exact List.mem_map.2 ⟨(o.kind, o.name), mem_everything_of_planned hstep ho, rfl⟩
  · intro c hc
    obtain ⟨hcluster, hrequest⟩ := (teardown_confined cluster ns).confined.calls patience' {}
      (List.forall_mem_nil _) c hc
    exact ⟨hcluster, hrequest.staysIn⟩

/-- Clusters that refuse everything. -/
def lockedClusters : Respondent where
  delay _ _ := 1
  answer _ _ := .error (.api (.transport "connection refused"))

/-- Twelve objects were made, and the deletion of each is asked for in vain. -/
theorem lockedClusters_asked_to_delete :
    let deployed : Moment (world false) :=
      (((deploy (.single ⟨0, "kind"⟩) {} ∅).run.run ∅).run (world false) 0 {}
        ⟨0, [{ store := .fresh "kind" }], []⟩).2
    let torn := ((teardown ⟨0, "kind"⟩ "cilium-test").run.run lockedClusters.world 0 {}
      ⟨0, [], []⟩).2
    (machinesAt deployed.state).map (·.store.creates) = [12] ∧ torn.asked.length = 29 ∧
      ∀ space o, ⟨⟨0, "kind"⟩, .create space o⟩ ∈ deployed.asked →
        ⟨⟨0, "kind"⟩, .delete o.kind ⟨space, o.name⟩⟩ ∈ torn.asked := by
  intro deployed torn
  obtain ⟨deletions, rest, hasked, -, hcovers, -⟩ :=
    teardown_covers_deployment (.single ⟨0, "kind"⟩) {} ∅ ∅ (world false) 0 {} 0
      [{ store := .fresh "kind" }] ⟨0, "kind"⟩ (w := lockedClusters.world)
      (fun s _ _ _ => ⟨s, _, _, rfl⟩) 0 0 []
  refine ⟨by decide +kernel, by decide +kernel, fun space o hcreated => ?_⟩
  have hmem := hcovers space o hcreated
  have hsubset : deletions ⊆ torn.asked := by
    rw [show torn.asked = _ from hasked]
    exact List.subset_append_left _ _
  exact hsubset hmem

end Reachability
