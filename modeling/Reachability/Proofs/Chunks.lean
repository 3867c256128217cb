import Mathlib.Data.List.Basic

namespace Reachability.Text

variable {ends : Char → Bool} {s t : List Char}

/-- The lines of a text, each with the character that ends it. Which characters do is left open, as
long as a line feed does and a dash does not. -/
def linesBy (ends : Char → Bool) : List Char → List (List Char)
  | [] => []
  | c :: rest =>
    if ends c then [c] :: linesBy ends rest
    else
      match linesBy ends rest with
      | [] => [[c]]
      | line :: more => (c :: line) :: more

/-- The line is `---`, whatever ends it. -/
def isMarker (ends : Char → Bool) (line : List Char) : Bool :=
  line.takeWhile (!ends ·) == ['-', '-', '-']

/-- What stands between the marker lines of a text. The empty text has no chunks. -/
def chunks (ends : Char → Bool) (s : List Char) : List (List Char) :=
  if s.isEmpty then [] else ((linesBy ends s).splitOnP (isMarker ends)).map List.flatten

/-- The text ends with the end of a line. -/
def EndsLine (ends : Char → Bool) (s : List Char) : Prop :=
  ∃ c, s.getLast? = some c ∧ ends c = true

theorem EndsLine.ne_nil (h : EndsLine ends s) : s ≠ [] := by
  rintro rfl
  obtain ⟨c, hc, -⟩ := h
  simp at hc

theorem endsLine_cons_iff {c : Char} :
    EndsLine ends (c :: s) ↔ (s = [] ∧ ends c = true) ∨ EndsLine ends s := by
  cases s with
  | nil => simp [EndsLine]
  | cons d s => simp [EndsLine, List.getLast?_cons]

/-- The end of a text is the end of what stands last in it. -/
theorem endsLine_append_iff (ht : t ≠ []) : EndsLine ends (s ++ t) ↔ EndsLine ends t := by
  rw [EndsLine, EndsLine, List.getLast?_append_of_ne_nil s ht]

/-- The first line starts as the text does. -/
theorem exists_linesBy_cons (ends : Char → Bool) (c : Char) (rest : List Char) :
    ∃ line, linesBy ends (c :: rest) =
      (c :: line) :: if ends c then linesBy ends rest else (linesBy ends rest).tail := by
  rw [linesBy]
  split
  · exact ⟨[], rfl⟩
  · cases linesBy ends rest with
    | nil => exact ⟨[], rfl⟩
    | cons line more => exact ⟨line, rfl⟩

theorem linesBy_eq_nil_iff : linesBy ends s = [] ↔ s = [] := by
  cases s with
  | nil => simp [linesBy]
  | cons c rest =>
    obtain ⟨line, hlines⟩ := exists_linesBy_cons ends c rest
    simp [hlines]

theorem flatten_linesBy (ends : Char → Bool) (s : List Char) : (linesBy ends s).flatten = s := by
  induction s with
  | nil => rfl
  | cons c rest ih =>
    rw [linesBy]
    split
    · simp [ih]
    · split
      · next h => simp [linesBy_eq_nil_iff.1 h]
      · next line more h =>
        rw [h] at ih
        simp [← ih]

/-- Behind the end of a line, the lines of a text are those of what follows. -/
theorem linesBy_append (h : s = [] ∨ EndsLine ends s) (t : List Char) :
    linesBy ends (s ++ t) = linesBy ends s ++ linesBy ends t := by
  induction s with
  | nil => rfl
  | cons c rest ih =>
    have hcons : EndsLine ends (c :: rest) := h.resolve_left (by simp)
    rw [List.cons_append, linesBy, linesBy]
    by_cases hc : ends c = true
    · rw [if_pos hc, if_pos hc, ih ((endsLine_cons_iff.1 hcons).imp_left And.left),
        List.cons_append]
    · have hrest : EndsLine ends rest :=
        (endsLine_cons_iff.1 hcons).resolve_left fun hlast => hc hlast.2
      have hne : linesBy ends rest ≠ [] := mt linesBy_eq_nil_iff.1 hrest.ne_nil
      obtain ⟨line, more, hlines⟩ := List.exists_cons_of_ne_nil hne
      rw [if_neg hc, if_neg hc, ih (.inr hrest), hlines]
      rfl

/-- All lines of a text but the last have an end. -/
theorem endsLine_of_mem_dropLast :
    ∀ line ∈ (linesBy ends s).dropLast, EndsLine ends line := by
  induction s with
  | nil => simp [linesBy]
  | cons c rest ih =>
    rw [linesBy]
    rcases hlines : linesBy ends rest with _ | ⟨first, _ | ⟨next, more⟩⟩
    · split <;> simp
    · split
      · next hc => simpa [EndsLine] using hc
      · simp
    · rw [hlines, List.dropLast_cons_cons, List.forall_mem_cons] at ih
      split
      · next hc =>
        rw [List.dropLast_cons_cons, List.dropLast_cons_cons, List.forall_mem_cons,
          List.forall_mem_cons]
        exact ⟨⟨c, rfl, hc⟩, ih⟩
      · rw [List.dropLast_cons_cons, List.forall_mem_cons]
        exact ⟨endsLine_cons_iff.2 (.inr ih.1), ih.2⟩

/-- No line of the text starts with a dash, where the first line starts with the text only if
`fresh` is set. -/
def Undashed (ends : Char → Bool) : Bool → List Char → Prop
  | _, [] => True
  | fresh, c :: rest => (fresh = true → c ≠ '-') ∧ Undashed ends (ends c) rest

@[simp] theorem undashed_nil {fresh : Bool} : Undashed ends fresh [] := trivial

@[simp] theorem undashed_cons_iff {fresh : Bool} {c : Char} :
    Undashed ends fresh (c :: s) ↔ (fresh = true → c ≠ '-') ∧ Undashed ends (ends c) s := Iff.rfl

theorem Undashed.head?_ne (h : Undashed ends true s) : s.head? ≠ some '-' := by
  cases s with
  | nil => simp
  | cons c rest => simpa using h.1 rfl

/-- Lines that start with no dash anyway may go on where another line has begun. -/
theorem Undashed.of_true (h : Undashed ends true s) (fresh : Bool) : Undashed ends fresh s := by
  cases s with
  | nil => trivial
  | cons c rest => exact ⟨fun _ => h.1 rfl, h.2⟩

theorem undashed_true_iff : Undashed ends true s ↔ s.head? ≠ some '-' ∧ Undashed ends false s := by
  cases s <;> simp

theorem Undashed.append {fresh : Bool} (hs : Undashed ends fresh s) (ht : Undashed ends true t) :
    Undashed ends fresh (s ++ t) := by
  induction s generalizing fresh with
  | nil => exact ht.of_true fresh
  | cons c rest ih => exact ⟨hs.1, ih hs.2⟩

/-- What stands on one line leaves open what goes on there. -/
theorem undashed_append_iff_of_unbroken (hs : ∀ c ∈ s, ends c = false) :
    Undashed ends false (s ++ t) ↔ Undashed ends false t := by
  induction s with
  | nil => rfl
  | cons c rest ih =>
    obtain ⟨hc, hrest⟩ := List.forall_mem_cons.1 hs
    simp [hc, ih hrest]

theorem undashed_of_unbroken (hs : ∀ c ∈ s, ends c = false) : Undashed ends false s := by
  have h := undashed_append_iff_of_unbroken (t := []) hs
  simpa using h

/-- If no line starts with a dash, this holds also of those that fewer characters end. The line on
which the text begins is left out here, as others may have begun it. -/
theorem Undashed.head?_ne_of_mem_tail {wide : Char → Bool}
    (hwide : ∀ c, ends c = true → wide c = true) {fresh : Bool} (h : Undashed wide fresh s) :
    ∀ line ∈ (linesBy ends s).tail, line.head? ≠ some '-' := by
  induction s generalizing fresh with
  | nil => simp [linesBy]
  | cons c rest ih =>
    obtain ⟨line, hlines⟩ := exists_linesBy_cons ends c rest
    have htail := ih h.2
    rw [hlines, List.tail_cons]
    split
    · next hc =>
      cases rest with
      | nil => simp [linesBy]
      | cons d more =>
        obtain ⟨next, hnext⟩ := exists_linesBy_cons ends d more
        rw [hnext, List.tail_cons] at htail
        rw [hnext, List.forall_mem_cons]
        exact ⟨by simpa using h.2.1 (hwide c hc), htail⟩
    · exact htail

theorem head?_of_isMarker {line : List Char} (h : isMarker ends line = true) :
    line.head? = some '-' := by
  cases line with
  | nil => simp [isMarker] at h
  | cons c rest =>
    rw [isMarker, List.takeWhile_cons] at h
    split at h <;> simp_all

theorem Undashed.not_isMarker {wide : Char → Bool}
    (hwide : ∀ c, ends c = true → wide c = true) (h : Undashed wide true s) :
    ∀ line ∈ linesBy ends s, isMarker ends line = false := by
  intro line hline
  rw [← Bool.not_eq_true]
  intro hmarker
  have hdash := head?_of_isMarker hmarker
  cases s with
  | nil => simp [linesBy] at hline
  | cons c rest =>
    obtain ⟨first, hlines⟩ := exists_linesBy_cons ends c rest
    have htail := h.head?_ne_of_mem_tail hwide
    rw [hlines, List.tail_cons] at htail
    rw [hlines, List.mem_cons] at hline
    rcases hline with rfl | hline
    · exact h.head?_ne (by simpa using hdash)
    · exact htail line hline hdash

/-- A marker line, written as between the documents of a stream. -/
def marker : List Char := "---\n".toList

theorem linesBy_marker_append (hlf : ends '\n' = true) (hdash : ends '-' = false)
    (t : List Char) : linesBy ends (marker ++ t) = marker :: linesBy ends t := by
  have hends : EndsLine ends marker := ⟨'\n', rfl, hlf⟩
  rw [linesBy_append (.inr hends)]
  simp [marker, linesBy, hlf, hdash]

theorem isMarker_marker (hlf : ends '\n' = true) (hdash : ends '-' = false) :
    isMarker ends marker = true := by
  simp [isMarker, marker, hlf, hdash]

/-- The lines of every chunk but the last have an end, as a marker line follows them. -/
theorem endsLine_of_mem_splitOnP (p : List Char → Bool) {lines : List (List Char)}
    (h : ∀ line ∈ lines.dropLast, EndsLine ends line) :
    ∀ chunk ∈ (lines.splitOnP p).dropLast, ∀ line ∈ chunk, EndsLine ends line := by
  induction lines with
  | nil => simp
  | cons line rest ih =>
    rw [List.splitOnP_cons_eq_if_modifyHead]
    cases rest with
    | nil => split <;> simp
    | cons next more =>
      rw [List.dropLast_cons_cons, List.forall_mem_cons] at h
      have hrest := ih h.2
      rcases hsplit : (next :: more).splitOnP p with _ | ⟨chunk, _ | ⟨chunk', chunks⟩⟩
      · exact absurd hsplit (List.splitOnP_ne_nil p _)
      · split <;> simp
      · rw [hsplit, List.dropLast_cons_cons, List.forall_mem_cons] at hrest
        split
        · simpa using hrest
        · simpa [h.1] using hrest

/-- Every chunk but the last ends its last line, if it has one. -/
theorem endsLine_of_mem_chunks {chunk : List Char} (h : chunk ∈ (chunks ends s).dropLast)
    (hne : chunk ≠ []) : EndsLine ends chunk := by
  rw [chunks] at h
  split at h
  · simp at h
  · rw [← List.map_dropLast] at h
    obtain ⟨lines, hmem, rfl⟩ := List.mem_map.1 h
    have hlines := endsLine_of_mem_splitOnP _ endsLine_of_mem_dropLast lines hmem
    have hlast : lines ≠ [] := by
      rintro rfl
      exact hne rfl
    have hend := hlines _ (List.getLast_mem hlast)
    rw [← List.dropLast_concat_getLast hlast, List.flatten_append, List.flatten_singleton]
    exact (endsLine_append_iff hend.ne_nil).2 hend

/-- Behind a text that ends its line and has no marker line, a marker line ends the first chunk. -/
theorem chunks_append_marker (hlf : ends '\n' = true) (hdash : ends '-' = false)
    (hs : EndsLine ends s) (hlines : ∀ line ∈ linesBy ends s, isMarker ends line = false)
    (ht : t ≠ []) : chunks ends (s ++ marker ++ t) = s :: chunks ends t := by
  have hlinesBy : linesBy ends (s ++ marker ++ t) =
      linesBy ends s ++ marker :: linesBy ends t := by
    rw [List.append_assoc, linesBy_append (.inr hs), linesBy_marker_append hlf hdash]
  rw [chunks, chunks, hlinesBy,
    List.splitOnP_append_cons_of_forall_mem hlines _ (isMarker_marker hlf hdash)]
  simp [hs.ne_nil, ht, flatten_linesBy]

theorem chunks_of_forall_not_marker (hs : s ≠ [])
    (hlines : ∀ line ∈ linesBy ends s, isMarker ends line = false) : chunks ends s = [s] := by
  rw [chunks, List.splitOnP_eq_singleton hlines]
  simp [hs, flatten_linesBy]

/-- Texts without marker lines, joined by such lines, are the chunks of the whole if and only if
each of them but the last ends its line. -/
theorem chunks_intercalate_iff (hlf : ends '\n' = true) (hdash : ends '-' = false)
    {docs : List (List Char)} (hne : ∀ d ∈ docs, d ≠ [])
    (hlines : ∀ d ∈ docs, ∀ line ∈ linesBy ends d, isMarker ends line = false) :
    chunks ends (marker.intercalate docs) = docs ↔ ∀ d ∈ docs.dropLast, EndsLine ends d := by
  constructor
  · intro h d hd
    have hdocs : d ≠ [] := hne d (List.dropLast_subset docs hd)
    rw [← h] at hd
    exact endsLine_of_mem_chunks hd hdocs
  · intro h
    induction docs with
    | nil => rfl
    | cons d rest ih =>
      rw [List.forall_mem_cons] at hne hlines
      cases rest with
      | nil => simpa using chunks_of_forall_not_marker hne.1 hlines.1
      | cons next more =>
        rw [List.dropLast_cons_cons, List.forall_mem_cons] at h
        have hmore : marker.intercalate (next :: more) ≠ [] := by
          cases more <;> simp [List.intercalate_cons_cons, hne.2 next]
        rw [List.intercalate_cons_cons, chunks_append_marker hlf hdash h.1 hlines.1 hmore,
          ih hne.2 hlines.2 h.2]

end Reachability.Text
