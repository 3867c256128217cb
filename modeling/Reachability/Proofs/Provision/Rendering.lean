import Mathlib.Data.List.Nodup
import Mathlib.Data.List.Perm.Subperm
import Reachability.CommandLine
import Reachability.Proofs.Provision.Transcript

namespace Reachability

open Manifest (Kind Object)
open Reachability.Topology (Item Plan Side)
open Wait (Instant Moment)

/-- The same object under other metadata. -/
def Manifest.Object.withMetadata (m : Manifest.Metadata) : Object → Object
  | .space _ => .space m
  | .configMap c => .configMap { c with metadata := m }
  | .service s => .service { s with metadata := m }
  | .serviceAccount _ => .serviceAccount m
  | .deployment d => .deployment { d with metadata := m }
  | .daemonSet d => .daemonSet { d with metadata := m }
  | .ingress i => .ingress { i with metadata := m }

/-- An object is put in a namespace by its metadata, unless it is a namespace itself. -/
theorem Manifest.Object.inSpace_eq (ns : String) (o : Object) :
    o.inSpace ns =
      if o.kind = .space then o else o.withMetadata { o.metadata with space := some ns } := by
  cases o <;> rfl

namespace Topology

/-- The objects of some steps as they are created, in order. -/
def creations (steps : List (Side × Item)) : List (Side × Object) :=
  steps.flatMap fun (side, item) => item.objects.map fun o => (side, o)

theorem Plan.objects_eq (plan : Plan) (ns : String) :
    plan.objects ns = (creations plan.steps).map fun (side, o) => (side, o.inSpace ns) := by
  simp [objects, creations, List.map_flatMap, Function.comp_def]

theorem Plan.render_eq (plan : Plan) (ns : String) :
    plan.render ns = String.intercalate "---\n"
      ((creations plan.steps).map fun (side, o) => renderObject side (o.inSpace ns)) := by
  rw [render, objects_eq, List.map_map]
  rfl

end Topology

def Request.isCreation : Request → Bool
  | .create .. => true
  | _ => false

/-- The creation of an object on the cluster of a side. -/
def Clients.creation (clients : Clients) (ns : String) (x : Side × Object) : Call :=
  ⟨clients.get x.1, x.2.creation ns⟩

/-- The calls so far that create something, in order. -/
def Wait.Moment.creations {w : Wait.World clusterApi} (m : Moment w) : List Call :=
  m.asked.filter (·.request.isCreation)

/-- An object has been created during these exchanges. -/
def Stands (exchanges : List Exchange) (cluster : Cluster) (kind : Kind) (key : ObjectKey) : Prop :=
  ∃ o : Object, (⟨⟨cluster, .create key.space o⟩, .ok ()⟩ : Exchange) ∈ exchanges ∧
    o.kind = kind ∧ o.name = key.name

/-- Clusters with these nodes that never fail and on which at first nothing of a plan stands: what
has not been created is not found and can be created, what has been created is found. -/
structure Respondent.Blank (p : Respondent) (clients : Clients) (ns : String)
    (nodes : List Manifest.Node) (plan : Plan) : Prop where
  nodes : ∀ before, p.answer before ⟨clients.source, .listNodes⟩ = .ok nodes
  missing : ∀ before side item, (side, item) ∈ plan.steps →
    ¬ Stands before (clients.get side) item.kind (item.kind.keyIn ns item.name) →
    ∃ f, p.answer before ⟨clients.get side, item.lookup ns⟩ = .error f ∧ f.isNotFound = true
  present : ∀ before side item, (side, item) ∈ plan.steps →
    Stands before (clients.get side) item.kind (item.kind.keyIn ns item.name) →
    ∃ found, p.answer before ⟨clients.get side, item.lookup ns⟩ = .ok found
  vacant : ∀ before side item o, (side, item) ∈ plan.steps → o ∈ item.objects →
    ¬ Stands before (clients.get side) o.kind (o.kind.keyIn ns o.name) →
    p.answer before ⟨clients.get side, o.creation ns⟩ = .ok ()

theorem stands_append {before after : List Exchange} {cluster : Cluster} {kind : Kind}
    {key : ObjectKey} : Stands (before ++ after) cluster kind key ↔
      Stands before cluster kind key ∨ Stands after cluster kind key := by
  constructor
  · rintro ⟨o, hmem, ho⟩
    exact (List.mem_append.1 hmem).imp (fun hmem => ⟨o, hmem, ho⟩) fun hmem => ⟨o, hmem, ho⟩
  · rintro (⟨o, hmem, ho⟩ | ⟨o, hmem, ho⟩)
    · exact ⟨o, List.mem_append_left _ hmem, ho⟩
    · exact ⟨o, List.mem_append_right _ hmem, ho⟩

/-- The creation of an object, which succeeds. -/
def makes (cluster : Cluster) (ns : String) (o : Object) : Exchange :=
  ⟨⟨cluster, .create (o.kind.keyIn ns o.name).space o⟩, .ok ()⟩

/-- The creations of the objects of these steps. -/
def makesAll (clients : Clients) (ns : String) (steps : List (Side × Item)) : List Exchange :=
  steps.flatMap fun (side, item) => item.objects.map (makes (clients.get side) ns)

/-- What steps are about: an item on a cluster. -/
def onClusters (clients : Clients) (steps : List (Side × Item)) : List (Cluster × Item) :=
  steps.map fun step => (clients.get step.1, step.2)

variable {p : Respondent} {clients : Clients} {ns : String} {nodes : List Manifest.Node}
  {settings : Settings} {features : FeatureSet} {zone : String}

theorem onClusters_append (steps steps' : List (Side × Item)) :
    onClusters clients (steps ++ steps') = onClusters clients steps ++ onClusters clients steps' :=
  List.map_append

theorem makesAll_append (steps steps' : List (Side × Item)) :
    makesAll clients ns (steps ++ steps') =
      makesAll clients ns steps ++ makesAll clients ns steps' :=
  List.flatMap_append

/-- What has been created for some steps of a plan is what these steps are about. -/
theorem stands_makesAll_iff {made : List (Side × Item)} {side : Side} {item : Item}
    {o : Object} (hmade : made ⊆ (Topology.plan settings features zone).steps)
    (hstep : (side, item) ∈ (Topology.plan settings features zone).steps)
    (ho : o ∈ item.objects) :
    Stands (makesAll clients ns made) (clients.get side) o.kind (o.kind.keyIn ns o.name) ↔
      (clients.get side, item) ∈ onClusters clients made := by
  constructor
  · rintro ⟨o', hmem, hkind, hname⟩
    obtain ⟨⟨side', item'⟩, hstep', hmem⟩ := List.mem_flatMap.1 hmem
    obtain ⟨o'', ho', heq⟩ := List.mem_map.1 hmem
    obtain ⟨hcluster, hcreate⟩ := Call.mk.inj (congrArg Exchange.call heq)
    obtain rfl : o'' = o' := (Request.create.inj hcreate).2
    obtain rfl := Topology.plan_item_eq_of_objects (hmade hstep') hstep ho' ho hkind hname
    exact List.mem_map.2 ⟨_, hstep', Prod.ext hcluster rfl⟩
  · intro hmem
    obtain ⟨⟨side', item'⟩, hstep', heq⟩ := List.mem_map.1 hmem
    obtain ⟨hcluster, rfl⟩ := Prod.mk.inj heq
    refine ⟨o, List.mem_flatMap.2 ⟨_, hstep', List.mem_map.2 ⟨o, ho, ?_⟩⟩, rfl, rfl⟩
    rw [← hcluster]
    rfl

theorem stands_filter_iff {exchanges : List Exchange} {cluster : Cluster} {kind : Kind}
    {key : ObjectKey} : Stands (exchanges.filter (·.call.request.isCreation)) cluster kind key ↔
      Stands exchanges cluster kind key := by
  simp [Stands, Request.isCreation]

theorem filter_makesAll (made : List (Side × Item)) :
    (makesAll clients ns made).filter (·.call.request.isCreation) = makesAll clients ns made := by
  refine List.filter_eq_self.2 fun x hx => ?_
  obtain ⟨_, -, hx⟩ := List.mem_flatMap.1 hx
  obtain ⟨o, -, rfl⟩ := List.mem_map.1 hx
  rfl

/-- What is vacant at first can be created, one object after the other. -/
theorem Creates.of_vacant {cluster : Cluster} {objects : List Object} {exchanges : List Exchange}
    {r : Except Failure Unit} (h : Creates cluster ns objects exchanges r)
    (hkinds : objects.Pairwise fun a b => a.kind ≠ b.kind)
    (hvacant : ∀ before, ∀ o ∈ objects, ¬ Stands before cluster o.kind (o.kind.keyIn ns o.name) →
      p.answer before ⟨cluster, o.creation ns⟩ = .ok ()) :
    ∀ before, p.Gives before exchanges →
      (∀ o ∈ objects, ¬ Stands before cluster o.kind (o.kind.keyIn ns o.name)) →
      r = .ok () ∧ exchanges = objects.map (makes cluster ns) := by
  induction h with
  | none => exact fun before _ _ => ⟨rfl, rfl⟩
  | @next o objects exchanges r answer hmade _ ih =>
    intro before hgives hstands
    obtain ⟨hkind, hkinds⟩ := List.pairwise_cons.1 hkinds
    obtain ⟨hanswer, hgives⟩ := hgives
    have hok := hvacant before o List.mem_cons_self (hstands o List.mem_cons_self)
    have hanswer : answer = .ok () := hanswer.trans hok
    subst hanswer
    -- The object just created is of another kind than those that follow.
    have hrest : ∀ o' ∈ objects, ¬ Stands (before ++ [makes cluster ns o]) cluster o'.kind
        (o'.kind.keyIn ns o'.name) := by
      intro o' ho' hstands'
      rcases stands_append.1 hstands' with hstands' | ⟨o'', hmem, hkind', -⟩
      · exact hstands o' (List.mem_cons_of_mem _ ho') hstands'
      · obtain hcall := congrArg Exchange.call (List.mem_singleton.1 hmem)
        obtain ⟨-, rfl⟩ := Request.create.inj (Call.mk.inj hcall).2
        exact hkind o' ho' hkind'
    obtain ⟨hr, hexchanges⟩ := ih hkinds
      (fun before o' ho' => hvacant before o' (List.mem_cons_of_mem _ ho')) _ hgives hrest
    exact ⟨hr, congrArg _ hexchanges⟩
  | @failed o objects f hf =>
    intro before hgives hstands
    obtain ⟨hanswer, -⟩ := hgives
    have hok := hvacant before o List.mem_cons_self (hstands o List.mem_cons_self)
    cases hanswer.trans hok

/-- Every item has an object that it is looked up by. -/
theorem Topology.Item.exists_mem_objects (item : Item) :
    ∃ o ∈ item.objects, o.kind = item.kind ∧ o.name = item.name := by
  cases item with
  | deployment w => exact ⟨_, List.mem_cons_of_mem _ List.mem_cons_self, rfl, rfl⟩
  | _ => exact ⟨_, List.mem_cons_self, rfl, rfl⟩

section Blank

variable (hblank : p.Blank clients ns nodes (Topology.plan settings features zone))
include hblank

theorem Ensures.of_blank {side : Side} {item : Item} {exchanges before : List Exchange}
    {r : Except Failure Unit} {made : List (Side × Item)}
    (h : Ensures (clients.get side) ns item exchanges r)
    (hstep : (side, item) ∈ (Topology.plan settings features zone).steps)
    (hmade : made ⊆ (Topology.plan settings features zone).steps)
    (hgives : p.Gives before exchanges)
    (hbefore : before.filter (·.call.request.isCreation) = makesAll clients ns made) :
    r = .ok () ∧
      exchanges.filter (·.call.request.isCreation) =
        if (clients.get side, item) ∈ onClusters clients made then []
        else makesAll clients ns [(side, item)] := by
  have hstands (o : Object) (ho : o ∈ item.objects) :
      Stands before (clients.get side) o.kind (o.kind.keyIn ns o.name) ↔
        (clients.get side, item) ∈ onClusters clients made := by
    rw [← stands_filter_iff, hbefore]
    exact stands_makesAll_iff hmade hstep ho
  have hitem : Stands before (clients.get side) item.kind (item.kind.keyIn ns item.name) ↔
      (clients.get side, item) ∈ onClusters clients made := by
    obtain ⟨o, ho, hkind, hname⟩ := item.exists_mem_objects
    rw [← hkind, ← hname]
    exact hstands o ho
  cases h with
  | present found =>
    have hin : (clients.get side, item) ∈ onClusters clients made := by
      by_contra hout
      obtain ⟨f, hanswer, -⟩ := hblank.missing before side item hstep (mt hitem.1 hout)
      cases hgives.1.trans hanswer
    rw [if_pos hin]
    exact ⟨rfl, rfl⟩
  | @unknown f hf =>
    by_cases hin : (clients.get side, item) ∈ onClusters clients made
    · obtain ⟨found, hanswer⟩ := hblank.present before side item hstep (hitem.2 hin)
      cases hgives.1.trans hanswer
    · obtain ⟨f', hanswer, hnotFound⟩ := hblank.missing before side item hstep (mt hitem.1 hin)
      obtain rfl : f = f' := Except.error.inj (hgives.1.trans hanswer)
      rw [hf] at hnotFound
      cases hnotFound
  | @missing f exchanges r hf hcreates =>
    obtain ⟨hanswer, hgives⟩ := hgives
    have hout : (clients.get side, item) ∉ onClusters clients made := by
      intro hin
      obtain ⟨found, hfound⟩ := hblank.present before side item hstep (hitem.2 hin)
      cases hanswer.trans hfound
    have hvacant : ∀ o ∈ item.objects, ¬ Stands (before ++ [⟨⟨clients.get side, item.lookup ns⟩,
        .error f⟩]) (clients.get side) o.kind (o.kind.keyIn ns o.name) := by
      intro o ho hstands'
      have hbefore' : Stands before (clients.get side) o.kind (o.kind.keyIn ns o.name) := by
        rw [← stands_filter_iff, List.filter_append] at hstands'
        rwa [← stands_filter_iff, ← List.append_nil (before.filter _)]
      exact hout ((hstands o ho).1 hbefore')
    obtain ⟨rfl, rfl⟩ := hcreates.of_vacant item.objects_pairwise
      (fun before o ho => hblank.vacant before side item o hstep ho) _ hgives hvacant
    have hmakes : item.objects.map (makes (clients.get side) ns) =
        makesAll clients ns [(side, item)] := by
      simp [makesAll]
    rw [if_neg hout, hmakes]
    exact ⟨rfl, filter_makesAll _⟩

/-- Each step makes what it is about, unless an earlier step has made the same on the same cluster.
-/
theorem Takes.of_blank {steps : List (Side × Item)} {exchanges : List Exchange}
    {r : Except Failure Unit} (h : Takes clients ns steps exchanges r) :
    ∀ {before : List Exchange} {made : List (Side × Item)},
      steps ⊆ (Topology.plan settings features zone).steps →
      made ⊆ (Topology.plan settings features zone).steps → p.Gives before exchanges →
      before.filter (·.call.request.isCreation) = makesAll clients ns made →
      (onClusters clients made).Nodup →
      r = .ok () ∧ ∃ made', made'.Sublist steps ∧
        exchanges.filter (·.call.request.isCreation) = makesAll clients ns made' ∧
        (onClusters clients (made ++ made')).Nodup ∧
        onClusters clients steps ⊆ onClusters clients (made ++ made') := by
  induction h with
  | none =>
    intro before made _ _ _ _ hnodup
    exact ⟨rfl, [], .refl _, rfl, by simpa using hnodup, List.nil_subset _⟩
  | @next side item steps exchanges after r hensures _ ih =>
    intro before made hsteps hmade hgives hbefore hnodup
    obtain ⟨hstep, hsteps⟩ := List.cons_subset.1 hsteps
    obtain ⟨hgives, hgives'⟩ := hgives.of_append
    obtain ⟨-, hexchanges⟩ := hensures.of_blank hblank hstep hmade hgives hbefore
    by_cases hin : (clients.get side, item) ∈ onClusters clients made
    · rw [if_pos hin] at hexchanges
      obtain ⟨hr, made', hsublist, hafter, hnodup', hsubset⟩ := ih hsteps hmade hgives'
        (by rw [List.filter_append, hexchanges, List.append_nil, hbefore]) hnodup
      refine ⟨hr, made', hsublist.cons _, ?_, hnodup', ?_⟩
      · rw [List.filter_append, hexchanges, hafter, List.nil_append]
      · rw [onClusters_append] at hsubset ⊢
        exact List.cons_subset.2 ⟨List.mem_append_left _ hin, hsubset⟩
    · rw [if_neg hin] at hexchanges
      have hmade' : made ++ [(side, item)] ⊆ (Topology.plan settings features zone).steps :=
        List.append_subset.2 ⟨hmade, List.cons_subset.2 ⟨hstep, List.nil_subset _⟩⟩
      have hbefore' : (before ++ exchanges).filter (·.call.request.isCreation) =
          makesAll clients ns (made ++ [(side, item)]) := by
        rw [List.filter_append, hbefore, hexchanges, makesAll_append]
      have hnodup' : (onClusters clients (made ++ [(side, item)])).Nodup := by
        rw [onClusters_append]
        exact List.Nodup.append hnodup (List.nodup_singleton _) (List.disjoint_singleton.2 hin)
      obtain ⟨hr, made', hsublist, hafter, hnodup', hsubset⟩ :=
        ih hsteps hmade' hgives' hbefore' hnodup'
      rw [List.append_assoc, List.singleton_append] at hnodup' hsubset
      refine ⟨hr, (side, item) :: made', hsublist.cons_cons _, ?_, hnodup', ?_⟩
      · rw [List.filter_append, hexchanges, hafter, ← makesAll_append, List.singleton_append]
      · refine List.cons_subset.2 ⟨?_, hsubset⟩
        rw [onClusters_append]
        exact List.mem_append_right _ List.mem_cons_self
  | @failed side item steps exchanges f hensures =>
    intro before made hsteps hmade hgives hbefore _
    obtain ⟨hstep, -⟩ := List.cons_subset.1 hsteps
    obtain ⟨hr, -⟩ := hensures.of_blank hblank hstep hmade hgives hbefore
    cases hr

end Blank

/-- The zone of a deployment's plan, if the clusters have these nodes. -/
def provisioningZone (settings : Settings) (nodes : List Manifest.Node) : String :=
  if settings.performance then Topology.selectZone nodes else ""

theorem map_call_makesAll (steps : List (Side × Item)) :
    (makesAll clients ns steps).map (·.call) =
      (Topology.creations steps).map (clients.creation ns) := by
  simp only [makesAll, Topology.creations, List.map_flatMap, List.map_map]
  rfl

/-- Where nothing of it stands, a deployment takes each step of its plan once. -/
theorem Deploys.of_blank {exchanges : List Exchange} {r : Except Failure Plan}
    (h : Deploys clients settings features exchanges r)
    (hblank : p.Blank clients settings.testNamespace nodes
      (Topology.plan settings features (provisioningZone settings nodes)))
    (hgives : p.Gives [] exchanges) :
    let plan := Topology.plan settings features (provisioningZone settings nodes)
    r = .ok plan ∧ ∃ made, made.Sublist plan.steps ∧
      exchanges.filter (·.call.request.isCreation) =
        makesAll clients settings.testNamespace made ∧
      (onClusters clients made).Nodup ∧
      onClusters clients plan.steps ⊆ onClusters clients made := by
  cases h with
  | @unlisted f hperformance =>
    cases hgives.1.trans (hblank.nodes [])
  | @listed nodes' exchanges r hperformance hsteps =>
    obtain ⟨hnodes, hgives⟩ := hgives
    obtain rfl : nodes' = nodes := Except.ok.inj (hnodes.trans (hblank.nodes []))
    have hzone : provisioningZone settings nodes' = Topology.selectZone nodes' :=
      if_pos hperformance
    rw [hzone] at hblank ⊢
    obtain ⟨rfl, hmade⟩ := hsteps.of_blank hblank (List.Subset.refl _) (List.nil_subset _) hgives
      rfl List.nodup_nil
    exact ⟨rfl, hmade⟩
  | @unmeasured exchanges r hperformance hsteps =>
    have hzone : provisioningZone settings nodes = "" := if_neg (by simp [hperformance])
    rw [hzone] at hblank ⊢
    obtain ⟨rfl, hmade⟩ := hsteps.of_blank hblank (List.Subset.refl _) (List.nil_subset _) hgives
      rfl List.nodup_nil
    exact ⟨rfl, hmade⟩

/-- On two clusters, and in a run on one, no two steps of a plan are about one thing. -/
theorem onClusters_plan_nodup
    (hclients : settings.isMultiCluster = true → clients.source ≠ clients.destination) :
    (onClusters clients (Topology.plan settings features zone).steps).Nodup := by
  have hsubjects := Topology.plan_subjects_nodup clients.get settings features zone hclients
  rw [Topology.subjects, List.Nodup, List.pairwise_map] at hsubjects
  rw [onClusters, List.Nodup, List.pairwise_map]
  refine hsubjects.imp ?_
  rintro ⟨side, item⟩ ⟨side', item'⟩ hne heq
  obtain ⟨hcluster, rfl⟩ := Prod.mk.inj heq
  exact hne (Prod.ext hcluster rfl)

/-- Steps that are all there, among steps that are about different things. -/
theorem eq_of_onClusters_subset {steps made : List (Side × Item)} (hsublist : made.Sublist steps)
    (hnodup : (onClusters clients steps).Nodup)
    (hsubset : onClusters clients steps ⊆ onClusters clients made) : made = steps := by
  have hlength : (onClusters clients steps).length ≤ (onClusters clients made).length :=
    (List.Nodup.subperm hnodup hsubset).length_le
  exact hsublist.eq_of_length_le (by simpa [onClusters] using hlength)

/-- The exchange creates an object of this kind under this key. -/
def Exchange.creates (cluster : Cluster) (kind : Kind) (key : ObjectKey) : Exchange → Bool
  | ⟨⟨cluster', .create space o⟩, answer⟩ =>
    match (answer : Except Failure Unit) with
    | .ok _ => cluster' = cluster ∧ space = key.space ∧ o.kind = kind ∧ o.name = key.name
    | .error _ => false
  | _ => false

theorem Exchange.creates_iff {cluster : Cluster} {kind : Kind} {key : ObjectKey} {x : Exchange} :
    x.creates cluster kind key = true ↔
      ∃ o : Object, x = ⟨⟨cluster, .create key.space o⟩, .ok ()⟩ ∧ o.kind = kind ∧
        o.name = key.name := by
  constructor
  · intro h
    unfold Exchange.creates at h
    split at h
    · split at h
      · obtain ⟨rfl, rfl, hkind, hname⟩ := of_decide_eq_true h
        exact ⟨_, rfl, hkind, hname⟩
      · cases h
    · cases h
  · rintro ⟨o, rfl, hkind, hname⟩
    exact decide_eq_true ⟨rfl, rfl, hkind, hname⟩

instance (exchanges : List Exchange) (cluster : Cluster) (kind : Kind) (key : ObjectKey) :
    Decidable (Stands exchanges cluster kind key) :=
  decidable_of_iff (∃ x ∈ exchanges, x.creates cluster kind key = true) <| by
    simp only [Exchange.creates_iff, Stands]
    constructor
    · rintro ⟨_, hmem, o, rfl, ho⟩
      exact ⟨o, hmem, ho⟩
    · rintro ⟨o, hmem, ho⟩
      exact ⟨_, hmem, o, rfl, ho⟩

/-- Something of the kind that was looked up. -/
def Manifest.Kind.sample : (k : Kind) → k.Found
  | .deployment => {}
  | .space | .configMap | .service | .serviceAccount | .daemonSet | .ingress => ()

/-- What clusters answer that keep what is created on them. -/
def keptAnswer (nodes : List Manifest.Node) (before : List Exchange) (cluster : Cluster) :
    (r : Request) → Except Failure r.Answer
  | .get kind key =>
    if Stands before cluster kind key then .ok kind.sample
    else .error (.notFound kind.label key.name)
  | .create space o =>
    if Stands before cluster o.kind ⟨space, o.name⟩ then
      .error (.alreadyExists o.kind.label o.name)
    else .ok ()
  | .listNodes => .ok nodes
  | .delete .. | .getEndpoint _ => .ok ()
  | .listPods .. => .ok []
  | .listServices .. => .ok []
  | .listExternalWorkloads => .ok []
  | .exec .. => .ok ""

/-- Clusters that keep what is created on them, where nothing stood before. -/
def keepingClusters (nodes : List Manifest.Node) : Respondent where
  delay _ _ := 1
  answer before c := keptAnswer nodes before c.cluster c.request

theorem keepingClusters_blank (nodes : List Manifest.Node) (clients : Clients) (ns : String)
    (plan : Plan) : (keepingClusters nodes).Blank clients ns nodes plan where
  nodes := fun _ => rfl
  missing := fun _ _ _ _ hmissing => ⟨_, if_neg hmissing, rfl⟩
  present := fun _ _ _ _ hpresent => ⟨_, if_pos hpresent⟩
  vacant := fun _ _ _ _ _ _ hvacant => if_neg hvacant

end Reachability
