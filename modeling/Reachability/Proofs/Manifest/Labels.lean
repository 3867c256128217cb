import Reachability.Manifest.Build
import Reachability.Proofs.Simulation.Answers
import Reachability.Proofs.Topology.Workloads

namespace Reachability.Topology.Workload

variable {w : Workload} {key value : String}

/-- The labels that the workload adds do not contradict one of its own two. -/
def KeepsLabel (w : Workload) (key : String) : Prop :=
  ∀ value, w.labels.get? key = some value → w.selectorLabels.get? key = some value

theorem Plain.keepsLabel_name (h : w.Plain) : w.KeepsLabel "name" := by
  rintro value hvalue
  rw [h.name] at hvalue
  cases hvalue

theorem Plain.keepsLabel_kind (h : w.Plain) : w.KeepsLabel "kind" := by
  rintro value hvalue
  rw [h.kind] at hvalue
  cases hvalue

@[simp] theorem selectorLabels_name (w : Workload) :
    w.selectorLabels.get? "name" = some w.name := by
  simp [get?_selectorLabels]

@[simp] theorem selectorLabels_kind (w : Workload) :
    w.selectorLabels.get? "kind" = some w.kindLabel := by
  simp [get?_selectorLabels]

theorem selectorLabels_eq_some_iff : w.selectorLabels.get? key = some value ↔
    key = "name" ∧ value = w.name ∨ key = "kind" ∧ value = w.kindLabel := by
  rw [get?_selectorLabels]
  split_ifs with hkind hname
  · simp [hkind, eq_comm]
  · simp [hname, eq_comm]
  · simp [hkind, hname]

/-- The pods have one of the workload's two labels if and only if no added label contradicts it. -/
theorem podLabels_eq_some_iff (h : w.selectorLabels.get? key = some value) :
    w.podLabels.get? key = some value ↔ w.KeepsLabel key := by
  rw [get?_podLabels, KeepsLabel, h]
  cases w.labels.get? key with
  | none => simp
  | some added => simp [eq_comm]

theorem selectorLabels_subset_podLabels_iff :
    w.selectorLabels.entries ⊆ w.podLabels.entries ↔ w.KeepsLabel "name" ∧ w.KeepsLabel "kind" := by
  rw [Dict.entries_subset_iff, ← podLabels_eq_some_iff w.selectorLabels_name,
    ← podLabels_eq_some_iff w.selectorLabels_kind]
  constructor
  · intro h
    exact ⟨h _ _ w.selectorLabels_name, h _ _ w.selectorLabels_kind⟩
  · rintro ⟨hname, hkind⟩ key value hvalue
    rcases selectorLabels_eq_some_iff.1 hvalue with ⟨rfl, rfl⟩ | ⟨rfl, rfl⟩
    · exact hname
    · exact hkind

end Reachability.Topology.Workload

namespace Reachability.Topology

/-- Every daemon set of a plan has only plain labels of its own. -/
theorem plain_of_daemonSet {settings : Settings} {features : FeatureSet} {zone : String}
    {side : Side} {w : Workload}
    (h : (side, .daemonSet w) ∈ (plan settings features zone).steps) : w.Plain := by
  have hw : w = hostNetworkWorkload settings := by
    unfold plan at h
    split at h
    · simp [planPerformance_steps] at h
    · rw [planConnectivity_steps, List.mem_append] at h
      rcases h with h | h
      · exact absurd h not_mem_groundwork_daemonSet
      · exact (mem_connections_daemonSet.1 h).2.2
  rw [hw]
  exact .of_labels "other" _ rfl (by decide) (by decide)

end Reachability.Topology

namespace Reachability.Simulation

/-- Both parts of a selector with a comma must match. -/
theorem Store.matchesSelector_append (labels : Labels) (front back : String) :
    Store.matchesSelector labels (front ++ "," ++ back) =
      (Store.matchesSelector labels front && Store.matchesSelector labels back) := by
  have hlist : (front ++ "," ++ back).toList = front.toList ++ ',' :: back.toList := by simp
  rw [matchesSelector, hlist, List.splitOn_append_cons_self, List.all_append]
  rfl

/-- A name with a comma is not the name that its own selector asks for. -/
theorem Store.matchesSelector_comma {labels : Labels} {name : String} (hcomma : ',' ∈ name.toList)
    (hlabels : labels.get? "name" = some name) :
    Store.matchesSelector labels (Topology.nameSelector name) = false := by
  obtain ⟨front, back, hlist, hfront⟩ := List.eq_append_cons_of_mem hcomma
  have hname : name = String.ofList front ++ "," ++ String.ofList back :=
    String.toList_inj.1 (by simp [hlist])
  have hother : name ≠ String.ofList front := by
    intro h
    have hlength := congrArg (·.toList.length) h
    simp [hlist] at hlength
  have hselector : Topology.nameSelector name =
      Topology.nameSelector (String.ofList front) ++ "," ++ String.ofList back := by
    simp only [Topology.nameSelector, String.append_assoc] at hname ⊢
    rw [← hname]
  rw [hselector, matchesSelector_append, matchesSelector_name _ (by simpa using hfront), hlabels]
  simp [hother]

end Reachability.Simulation

namespace Reachability.Manifest

open Simulation (Store)
open Reachability.Topology (Workload nameSelector)

variable {w : Workload}

/-- A pod made from a template carries the labels of the template, and perhaps more. -/
def MadeFrom (template : PodTemplate) (pod : Pod) : Prop :=
  template.metadata.labels.entries ⊆ pod.metadata.labels.entries

/-- What the labels of a workload's object, its selector and its pods are, and what they lead to. -/
structure Labelled (w : Workload) (object selector : Labels) (template : PodTemplate) : Prop where
  object_iff : ∀ key value, object.get? key = some value ↔
    key = "name" ∧ value = w.name ∨ key = "kind" ∧ value = w.kindLabel
  selector_eq : selector = object
  /-- The pods carry what the workload adds, and the two labels where it adds nothing else. -/
  template_get : ∀ key,
    template.metadata.labels.get? key = (w.labels.get? key).or (object.get? key)
  carries_iff : (template.metadata.labels.get? "name" = some w.name ∧
    template.metadata.labels.get? "kind" = some w.kindLabel) ↔
      w.KeepsLabel "name" ∧ w.KeepsLabel "kind"
  selects_iff : (∀ pod, MadeFrom template pod → selector.entries ⊆ pod.metadata.labels.entries) ↔
    w.KeepsLabel "name" ∧ w.KeepsLabel "kind"
  /-- The selector of a name has no way to spell a comma. -/
  discovered_by_name_iff : ',' ∉ w.name.toList →
    ((∀ pod, MadeFrom template pod →
      Store.matchesSelector pod.metadata.labels (nameSelector w.name) = true) ↔
        w.KeepsLabel "name")
  undiscovered : ',' ∈ w.name.toList → w.KeepsLabel "name" → ∀ pod, MadeFrom template pod →
    Store.matchesSelector pod.metadata.labels (nameSelector w.name) = false
  discovered_by_kind_iff : ∀ kind, w.kind = some kind →
    ((∀ pod, MadeFrom template pod →
      Store.matchesSelector pod.metadata.labels kind.selector = true) ↔ w.KeepsLabel "kind")

/-- What holds of the labels of every pod made from a template. -/
theorem forall_madeFrom_iff {template : PodTemplate} {p : Labels → Prop}
    (hp : ∀ l l' : Labels, l.entries ⊆ l'.entries → p l → p l') :
    (∀ pod, MadeFrom template pod → p pod.metadata.labels) ↔ p template.metadata.labels := by
  constructor
  · intro h
    exact h { metadata := template.metadata } (List.Subset.refl _)
  · intro h pod hpod
    exact hp _ _ hpod h

/-- A label that every pod made from a template carries. -/
theorem forall_madeFrom_label_iff {template : PodTemplate} {key value : String} :
    (∀ pod, MadeFrom template pod → pod.metadata.labels.get? key = some value) ↔
      template.metadata.labels.get? key = some value :=
  forall_madeFrom_iff fun _ _ hsub => Dict.entries_subset_iff.1 hsub key value

theorem labelled_podTemplate (w : Workload) (spec : PodSpec) :
    Labelled w w.selectorLabels w.selectorLabels (podTemplate w spec) := by
  have hlabels : (podTemplate w spec).metadata.labels = w.podLabels := rfl
  have hname := Workload.podLabels_eq_some_iff w.selectorLabels_name
  have hkind := Workload.podLabels_eq_some_iff w.selectorLabels_kind
  exact {
    object_iff key value := Workload.selectorLabels_eq_some_iff
    selector_eq := rfl
    template_get := w.get?_podLabels
    carries_iff := by rw [hlabels, hname, hkind]
    selects_iff := by
      rw [← Workload.selectorLabels_subset_podLabels_iff]
      exact forall_madeFrom_iff (p := fun labels => w.selectorLabels.entries ⊆ labels.entries)
        fun _ _ hsub hselector => List.Subset.trans hselector hsub
    discovered_by_name_iff := fun hcomma => by
      simp only [Store.matchesSelector_name _ hcomma, beq_iff_eq, forall_madeFrom_label_iff]
      exact hname
    undiscovered := fun hcomma hkeeps pod hpod =>
      Store.matchesSelector_comma hcomma (forall_madeFrom_label_iff.2 (hname.2 hkeeps) pod hpod)
    discovered_by_kind_iff := fun kind hw => by
      have hlabel : kind.label = w.kindLabel := by rw [Workload.kindLabel, hw]; rfl
      simp only [Store.matchesSelector_kind, beq_iff_eq, hlabel, forall_madeFrom_label_iff]
      exact hkind }

/-- The object of a workload and its selector have the labels `name` and `kind` and no others. The
pods made from its template have these two, and so are selected, and discovered by the one and by
the other, if and only if the labels that the workload adds do not contradict them. They contradict
them in no workload of a plan. -/
theorem workload_labelled (w : Workload) :
    Labelled w (deployment w).metadata.labels (deployment w).selector (deployment w).template ∧
    Labelled w (daemonSet w).metadata.labels (daemonSet w).selector (daemonSet w).template ∧
    ∀ settings features zone side,
      (side, .deployment w) ∈ (Topology.plan settings features zone).steps ∨
      (side, .daemonSet w) ∈ (Topology.plan settings features zone).steps →
        w.KeepsLabel "name" ∧ w.KeepsLabel "kind" := by
  refine ⟨labelled_podTemplate w _, labelled_podTemplate w _, ?_⟩
  intro settings features zone side hplanned
  have hplain : w.Plain := by
    rcases hplanned with hdeployment | hdaemonSet
    · exact Topology.plain_of_deployment hdeployment
    · exact Topology.plain_of_daemonSet hdaemonSet
  exact ⟨hplain.keepsLabel_name, hplain.keepsLabel_kind⟩

/-- A workload that calls its pods by another name than its own. -/
def renamedWorkload : Workload :=
  { name := "client", kind := some .client, image := "curl", port := 8080
    labels := .ofList [("name", "other")] }

/-- Neither its deployment nor its daemon set selects the pods made from its template, and they are
not discovered by its name. -/
theorem renamedWorkload_lost :
    ¬ (deployment renamedWorkload).selector.entries ⊆
      (deployment renamedWorkload).template.metadata.labels.entries ∧
    ¬ (daemonSet renamedWorkload).selector.entries ⊆
      (daemonSet renamedWorkload).template.metadata.labels.entries ∧
    Store.matchesSelector (deployment renamedWorkload).template.metadata.labels
      (nameSelector renamedWorkload.name) = false := by
  refine ⟨?_, ?_, ?_⟩ <;> decide +kernel

end Reachability.Manifest
