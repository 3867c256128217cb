import Mathlib.Data.List.Pairwise
import Reachability.Topology.Plan

namespace Reachability.Topology

/-- The namespace on the source cluster comes first in every plan. -/
theorem plan_steps_eq_cons (settings : Settings) (features : FeatureSet) (zone : String) :
    ∃ rest, (plan settings features zone).steps =
      (.source, .space settings.testNamespace) :: rest := by
  unfold plan
  split
  · exact ⟨_, rfl⟩
  · simp only [planConnectivity, List.cons_append]
    exact ⟨_, rfl⟩

/-- Before anything stands on the destination, the namespace does, unless there is one cluster. -/
theorem plan_opens (settings : Settings) (features : FeatureSet) (zone : String)
    (hmulti : settings.isMultiCluster = true) {side : Side} {item : Item}
    (h : (side, item) ∈ (plan settings features zone).steps) :
    (side, .space settings.testNamespace) ∈ (plan settings features zone).steps := by
  obtain ⟨rest, hsteps⟩ := plan_steps_eq_cons settings features zone
  cases side with
  | source =>
    rw [hsteps]
    exact .head _
  | destination =>
    unfold plan at h ⊢
    split at h
    · simp [planPerformance] at h
    next hperformance =>
      simp [planConnectivity, hmulti, hperformance]

/-- The only namespace of a plan is that of the run. -/
theorem plan_space_name (settings : Settings) (features : FeatureSet) (zone : String)
    {side : Side} {item : Item} (h : (side, item) ∈ (plan settings features zone).steps)
    (hkind : item.kind = .space) : item.name = settings.testNamespace := by
  cases item with
  | space name =>
    unfold plan at h
    split at h
    · have hname : side = .source ∧ name = settings.testNamespace := by
        simpa [planPerformance] using h
      exact hname.2
    · have hname : side = .source ∧ name = settings.testNamespace ∨
          settings.isMultiCluster = true ∧ side = .destination ∧ name = settings.testNamespace := by
        simpa [planConnectivity] using h
      exact hname.elim And.right fun h => h.2.2
  | _ => cases hkind

/-- The objects of an item have its name. All are of its kind but the service account of a
deployment. -/
theorem Item.of_mem_objects {item : Item} {o : Manifest.Object} (h : o ∈ item.objects) :
    o.name = item.name ∧
      (o.kind = item.kind ∨ o.kind = .serviceAccount ∧ item.kind = .deployment) := by
  cases item with
  | deployment w =>
    simp only [objects, List.mem_cons, List.not_mem_nil, or_false] at h
    rcases h with rfl | rfl
    · exact ⟨rfl, .inr ⟨rfl, rfl⟩⟩
    · exact ⟨rfl, .inl rfl⟩
  | _ =>
    simp only [objects, List.mem_singleton] at h
    subst h
    exact ⟨rfl, .inl rfl⟩

/-- The objects of an item are of different kinds. -/
theorem Item.objects_pairwise (item : Item) :
    item.objects.Pairwise fun a b => a.kind ≠ b.kind := by
  cases item with
  | deployment w => simp [objects, Manifest.serviceAccount, Manifest.Object.kind]
  | _ => exact List.pairwise_singleton _ _

theorem Item.kind_ne_serviceAccount (item : Item) : item.kind ≠ .serviceAccount := by
  cases item <;> simp [kind]

section Names

variable (settings : Settings) (features : FeatureSet)

@[simp] theorem echoWorkload_name (name label : String) (placement : Placement) :
    (echoWorkload settings features name label placement).name = name := rfl

@[simp] theorem clientWorkload_name (name : String) : (clientWorkload settings name).name = name :=
  rfl

@[simp] theorem hostNetworkWorkload_name :
    (hostNetworkWorkload settings).name = hostNetworkName := rfl

@[simp] theorem externalEchoWorkload_name :
    (externalEchoWorkload settings).name = echoExternalNodeName := rfl

@[simp] theorem echoService_name (name : String) (isGlobal : Bool) :
    (echoService name isGlobal).name = name := rfl

@[simp] theorem performanceWorkload_name (name : String) (port : Int) (script role : String)
    (placement : Placement) :
    (performanceWorkload settings name port script role placement).name = name := rfl

end Names

theorem workloadNames_nodup :
    [echoSameNodeName, clientName, secondClientName, echoOtherNodeName,
      echoExternalNodeName].Nodup := by
  decide

/-- What a step is about, where sides are told apart as far as `place` does. -/
def subjects {γ : Type} (place : Side → γ) (p : Plan) : List (γ × Manifest.Kind × String) :=
  p.steps.map fun (side, item) => (place side, item.kind, item.name)

theorem planPerformance_subjects_nodup {γ : Type} (place : Side → γ) (settings : Settings)
    (zone : String) : (subjects place (planPerformance settings zone)).Nodup := by
  unfold planPerformance subjects
  cases settings.performanceHostNetwork <;> cases settings.singleNode <;>
    simp [PerformanceNames.ofHostNetwork, Item.kind, Item.name]

theorem planConnectivity_subjects_nodup {γ : Type} (place : Side → γ) (settings : Settings)
    (features : FeatureSet)
    (hplace : settings.isMultiCluster = true → place .source ≠ place .destination) :
    (subjects place (planConnectivity settings features)).Nodup := by
  have hnames := workloadNames_nodup
  simp only [List.nodup_cons, List.mem_cons, List.not_mem_nil, or_false, not_or] at hnames
  unfold planConnectivity subjects
  cases hmulti : settings.isMultiCluster with
  | false =>
    cases settings.spansNodes <;> cases features.enabled .nodeWithoutCilium <;>
      cases features.enabled .ingressController <;> simp [Item.kind, Item.name, hnames]
  | true =>
    cases settings.spansNodes <;> cases features.enabled .nodeWithoutCilium <;>
      cases features.enabled .ingressController <;>
      simp [Item.kind, Item.name, hnames, hplace hmulti]

/-- No two steps of a plan are about one thing, unless a run between clusters meets one cluster on
both sides. -/
theorem plan_subjects_nodup {γ : Type} (place : Side → γ) (settings : Settings)
    (features : FeatureSet) (zone : String)
    (hplace : settings.isMultiCluster = true → place .source ≠ place .destination) :
    (subjects place (plan settings features zone)).Nodup := by
  unfold plan
  split
  · exact planPerformance_subjects_nodup place settings zone
  · exact planConnectivity_subjects_nodup place settings features hplace

/-- Two steps agree if they are not about one thing, or else are about it in the same way. -/
def Agree (a b : Side × Item) : Prop :=
  a.2.kind = b.2.kind → a.2.name = b.2.name → a.2 = b.2

theorem planPerformance_agrees (settings : Settings) (zone : String) :
    (planPerformance settings zone).steps.Pairwise Agree := by
  unfold planPerformance Agree
  cases settings.performanceHostNetwork <;> cases settings.singleNode <;>
    simp [PerformanceNames.ofHostNetwork, Item.kind, Item.name]

theorem ite_sublist {α : Type} (c : Bool) (l : List α) : (if c then l else []).Sublist l := by
  cases c
  · exact List.nil_sublist l
  · exact List.Sublist.refl l

theorem planConnectivity_agrees (settings : Settings) (features : FeatureSet) :
    (planConnectivity settings features).steps.Pairwise Agree := by
  have hnames := workloadNames_nodup
  simp only [List.nodup_cons, List.mem_cons, List.not_mem_nil, or_false, not_or] at hnames
  unfold planConnectivity Agree
  -- It is enough to look at the plan in which everything is enabled.
  cases settings.isMultiCluster <;>
    refine List.Pairwise.sublist
      (.append (.append (.append (.refl _) (ite_sublist _ _)) (ite_sublist _ _))
        (ite_sublist _ _)) ?_ <;>
    simp [Item.kind, Item.name, hnames]

/-- What a plan has under some kind and name is the same on both sides. -/
theorem plan_item_eq {settings : Settings} {features : FeatureSet} {zone : String}
    {side side' : Side} {item item' : Item}
    (h : (side, item) ∈ (plan settings features zone).steps)
    (h' : (side', item') ∈ (plan settings features zone).steps)
    (hkind : item.kind = item'.kind) (hname : item.name = item'.name) : item = item' := by
  have hagrees : (plan settings features zone).steps.Pairwise Agree := by
    unfold plan
    split
    · exact planPerformance_agrees settings zone
    · exact planConnectivity_agrees settings features
  have hsymm : Std.Symm Agree := ⟨fun _ _ h hkind hname => (h hkind.symm hname.symm).symm⟩
  exact hagrees.forall_of_forall (fun _ _ _ _ => rfl) h h' hkind hname

/-- Items of which one object each is of the same kind are of the same kind themselves. -/
theorem Item.kind_eq_of_mem_objects {item item' : Item} {o o' : Manifest.Object}
    (ho : o ∈ item.objects) (ho' : o' ∈ item'.objects) (hkind : o.kind = o'.kind) :
    item.kind = item'.kind := by
  obtain ⟨-, hcases⟩ := of_mem_objects ho
  obtain ⟨-, hcases'⟩ := of_mem_objects ho'
  rcases hcases with hown | ⟨haccount, hdeployment⟩ <;>
    rcases hcases' with hown' | ⟨haccount', hdeployment'⟩
  · rw [← hown, hkind, hown']
  · exact absurd (hown.symm.trans (hkind.trans haccount')) item.kind_ne_serviceAccount
  · exact absurd (hown'.symm.trans (hkind.symm.trans haccount)) item'.kind_ne_serviceAccount
  · rw [hdeployment, hdeployment']

/-- An object tells which item of a plan it is for. -/
theorem plan_item_eq_of_objects {settings : Settings} {features : FeatureSet} {zone : String}
    {side side' : Side} {item item' : Item}
    (h : (side, item) ∈ (plan settings features zone).steps)
    (h' : (side', item') ∈ (plan settings features zone).steps)
    {o o' : Manifest.Object} (ho : o ∈ item.objects) (ho' : o' ∈ item'.objects)
    (hkind : o.kind = o'.kind) (hname : o.name = o'.name) : item = item' := by
  have hitem := (Item.of_mem_objects ho).1
  have hitem' := (Item.of_mem_objects ho').1
  exact plan_item_eq h h' (Item.kind_eq_of_mem_objects ho ho' hkind)
    (hitem.symm.trans (hname.trans hitem'))

theorem plan_object_eq {settings : Settings} {features : FeatureSet} {zone : String}
    {side side' : Side} {item item' : Item}
    (h : (side, item) ∈ (plan settings features zone).steps)
    (h' : (side', item') ∈ (plan settings features zone).steps)
    {o o' : Manifest.Object} (ho : o ∈ item.objects) (ho' : o' ∈ item'.objects)
    (hkind : o.kind = o'.kind) (hname : o.name = o'.name) : o = o' := by
  obtain rfl := plan_item_eq_of_objects h h' ho ho' hkind hname
  have hsymm : Std.Symm fun a b : Manifest.Object => a.kind ≠ b.kind := ⟨fun _ _ => Ne.symm⟩
  by_contra hne
  exact item.objects_pairwise.forall ho ho' hne hkind

end Reachability.Topology
