import Reachability.Proofs.Document.Yaml
import Reachability.Topology.Render

namespace Reachability

open Document (Closes EndsInSeparator isBreak)
open Text (EndsLine Undashed chunks isMarker linesBy marker)

namespace Manifest

/-- Fields that may stand without indentation: no key starts with a dash and no value is a list. -/
def Unindented (fields : List (String × Option Document)) : Prop :=
  ∀ field ∈ fields, field.1.toList.head? ≠ some '-' ∧ ∀ items, field.2 ≠ some (.sequence items)

theorem undashed_topLevel {version kind : String} {m : Metadata}
    {before after : List (String × Option Document)} (hbefore : Unindented before)
    (hafter : Unindented after) :
    Undashed isBreak true (Document.block 0 (topLevel version kind m before after)) := by
  have hversion :
      Unindented [("apiVersion", some (.text version)), ("kind", some (.text kind))] := by
    simp [Unindented]
  have hmetadata : Unindented [("metadata", some m.document)] := by
    simp [Unindented, Metadata.document, Document.present]
  have hall := List.forall_mem_append.2
    ⟨List.forall_mem_append.2 ⟨List.forall_mem_append.2 ⟨hversion, hbefore⟩, hmetadata⟩, hafter⟩
  apply Document.undashed_mapping
  all_goals
    intro field hfield
    obtain ⟨⟨k, v?⟩, hmem, hvalue⟩ := List.mem_filterMap.1 hfield
    obtain ⟨v, rfl, rfl⟩ := Option.map_eq_some_iff.1 hvalue
    obtain ⟨hkey, hlist⟩ := hall (k, some v) hmem
  · exact hkey
  · exact fun items h => hlist items (congrArg some h)

/-- No line of the document of an object starts with a dash, as at its top no value is a list. -/
theorem Object.undashed_document (o : Object) :
    Undashed isBreak true (Document.block 0 o.document) := by
  have hnone : Unindented [] := by simp [Unindented]
  cases o with
  | space m => exact undashed_topLevel hnone hnone
  | serviceAccount m => exact undashed_topLevel hnone hnone
  | configMap c =>
    apply undashed_topLevel _ hnone
    simp [Unindented, Document.ofLabels?]
  | service s =>
    apply undashed_topLevel hnone
    simp [Unindented, Document.present]
  | deployment d =>
    apply undashed_topLevel hnone
    simp [Unindented, Document.present, DeploymentStatus.document]
  | daemonSet d =>
    apply undashed_topLevel hnone
    simp [Unindented]
  | ingress i =>
    apply undashed_topLevel hnone
    simp [Unindented]

end Manifest

namespace Topology

theorem toList_renderObject (side : Side) (o : Manifest.Object) : (renderObject side o).toList =
    ("# cluster: " ++ side.label ++ "\n").toList ++ Document.block 0 o.document := by
  rw [renderObject, Document.toYaml, String.toList_append, String.toList_ofList]

/-- No line of an object under its comment is a marker line, whichever breaks end it. -/
theorem not_isMarker_renderObject {ends : Char → Bool}
    (hends : ∀ c, ends c = true → isBreak c = true) (side : Side) (o : Manifest.Object) :
    ∀ line ∈ linesBy ends (renderObject side o).toList, isMarker ends line = false := by
  have hcomment : Undashed isBreak true ("# cluster: " ++ side.label ++ "\n").toList := by
    cases side <;> simp [Side.label, isBreak]
  have htext := hcomment.append o.undashed_document
  rw [← toList_renderObject] at htext
  exact htext.not_isMarker hends

theorem closes_renderObject (side : Side) (o : Manifest.Object) :
    Closes o.document (renderObject side o).toList := by
  have hsuffix : Document.block 0 o.document <:+ (renderObject side o).toList := by
    rw [toList_renderObject]
    exact List.suffix_append _ _
  exact (Document.closes_block o.document 0).of_suffix hsuffix

/-- A deployment comes with its service account, every other item is one object. -/
theorem Plan.length_objects (p : Plan) (ns : String) : (p.objects ns).length =
    p.steps.length + p.steps.countP fun (_, item) => item.kind = .deployment := by
  rw [Plan.objects]
  induction p.steps with
  | nil => rfl
  | cons step rest ih =>
    obtain ⟨side, item⟩ := step
    rw [List.flatMap_cons, List.length_append, ih, List.countP_cons, List.length_cons]
    cases item <;> simp [Item.objects, Item.kind] <;> omega

/-- The texts of the objects of a plan, each under a comment that names its cluster. -/
def Plan.texts (p : Plan) (ns : String) : List (List Char) :=
  (p.objects ns).map fun (side, o) => (renderObject side o).toList

theorem Plan.toList_render (p : Plan) (ns : String) :
    (p.render ns).toList = marker.intercalate (p.texts ns) := by
  rw [Plan.render, String.toList_intercalate, List.map_map]
  rfl

/-- Under a choice of breaks, the stream falls apart into its documents just if each of them but
the last ends in one of these. -/
theorem Plan.chunks_render_iff {ends : Char → Bool} (hlf : ends '\n' = true)
    (hends : ∀ c, ends c = true → isBreak c = true) (p : Plan) (ns : String) :
    chunks ends (p.render ns).toList = p.texts ns ↔
      ∀ x ∈ (p.objects ns).dropLast, EndsLine ends (renderObject x.1 x.2).toList := by
  have hdash : ends '-' = false := by
    rw [← Bool.not_eq_true]
    exact fun h => absurd (hends '-' h) (by decide)
  have htexts : ∀ text ∈ p.texts ns,
      text ≠ [] ∧ ∀ line ∈ linesBy ends text, isMarker ends line = false := by
    intro text htext
    obtain ⟨⟨side, o⟩, -, rfl⟩ := List.mem_map.1 htext
    exact ⟨(closes_renderObject side o).1.ne_nil, not_isMarker_renderObject hends side o⟩
  rw [p.toList_render, Text.chunks_intercalate_iff hlf hdash (fun text h => (htexts text h).1)
    (fun text h => (htexts text h).2), Plan.texts, ← List.map_dropLast, List.forall_mem_map]

theorem Plan.chunks_render_lineFeeds_iff (p : Plan) (ns : String) :
    chunks (· == '\n') (p.render ns).toList = p.texts ns ↔
      ∀ x ∈ (p.objects ns).dropLast, ¬ EndsInSeparator x.2.document := by
  have hfeed : ∀ c, (c == '\n') = true → isBreak c = true := by
    intro c hc
    rw [beq_iff_eq] at hc
    exact hc ▸ rfl
  have hends (x : Side × Manifest.Object) : EndsLine (· == '\n') (renderObject x.1 x.2).toList ↔
      ¬ EndsInSeparator x.2.document := by
    rw [← (closes_renderObject x.1 x.2).2]
    simp [EndsLine]
  rw [p.chunks_render_iff rfl hfeed ns]
  exact forall₂_congr fun x _ => hends x

/-- Between the marker lines of the stream stand the texts of the objects, in the order of the steps
and whatever these texts contain, if every break of YAML ends a line. If line feeds alone do, they
stand there just if no object but the last has a document that ends in a line or paragraph
separator. -/
theorem Plan.render_chunks (p : Plan) (ns : String) :
    let texts := (p.objects ns).map fun (side, o) =>
      ("# cluster: " ++ side.label ++ "\n" ++ o.document.toYaml).toList
    texts.length = p.steps.length + (p.steps.countP fun (_, item) => item.kind = .deployment) ∧
      chunks isBreak (p.render ns).toList = texts ∧
      (chunks (· == '\n') (p.render ns).toList = texts ↔
        ∀ x ∈ (p.objects ns).dropLast, ¬ EndsInSeparator x.2.document) := by
  intro texts
  refine ⟨?_, ?_, p.chunks_render_lineFeeds_iff ns⟩
  · rw [List.length_map]
    exact p.length_objects ns
  · apply (p.chunks_render_iff rfl (fun _ h => h) ns).2
    intro x _
    exact (closes_renderObject x.1 x.2).1

/-- Two namespaces, of which the name of the first ends in a line separator. -/
def separatedPlan : Plan :=
  { steps := [(.source, .space "a\nb\u2028"), (.source, .space "c")] }

/-- The line separator takes the place of the line feed before the marker, which is no line of its
own where line feeds alone end lines. -/
theorem separatedPlan_not_chunks :
    chunks (· == '\n') (separatedPlan.render "ns").toList ≠
      (separatedPlan.objects "ns").map fun (side, o) =>
        ("# cluster: " ++ side.label ++ "\n" ++ o.document.toYaml).toList := by
  intro hchunks
  have hname : EndsInSeparator (.text "a\nb\u2028") := .text (by decide) (.inl (by decide))
  have hdocument : EndsInSeparator (Manifest.testNamespace "a\nb\u2028").document :=
    .mapping rfl (.mapping rfl hname)
  have hall := (separatedPlan.chunks_render_lineFeeds_iff "ns").1 hchunks
  exact hall (.source, Manifest.testNamespace "a\nb\u2028") List.mem_cons_self hdocument

end Topology

end Reachability
