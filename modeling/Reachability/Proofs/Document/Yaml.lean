import Reachability.Document.Yaml
import Reachability.Proofs.Chunks
import Reachability.Proofs.Decimal

namespace Reachability.Document

open Text (EndsLine Undashed)

/-- What holds of a collection if it holds of its members holds of all documents. -/
@[elab_as_elim]
theorem inductionOn {P : Document → Prop} (d : Document) (null : P null)
    (boolean : ∀ b, P (boolean b)) (integer : ∀ n, P (integer n)) (text : ∀ s, P (text s))
    (sequence : ∀ items, (∀ item ∈ items, P item) → P (sequence items))
    (mapping : ∀ fields, (∀ field ∈ fields, P field.2) → P (mapping fields)) : P d := by
  match d with
  | .null => exact null
  | .boolean b => exact boolean b
  | .integer n => exact integer n
  | .text s => exact text s
  | .sequence items =>
    apply sequence
    intro item hitem
    have hsize := List.sizeOf_lt_of_mem hitem
    exact inductionOn item null boolean integer text sequence mapping
  | .mapping fields =>
    apply mapping
    intro (k, v) hfield
    have hsize := List.sizeOf_lt_of_mem hfield
    exact inductionOn v null boolean integer text sequence mapping
termination_by sizeOf d
decreasing_by
  · rw [Document.sequence.sizeOf_spec]
    omega
  · rw [Document.mapping.sizeOf_spec]
    rw [Prod.mk.sizeOf_spec] at hsize
    omega

theorem plainAllowed_of_styleOf {s : List Char} (h : styleOf s = .plain) :
    plainAllowed s = true := by
  grind [styleOf]

theorem writable_of_styleOf {s : List Char} (h : styleOf s = .literal) :
    s ≠ [] ∧ ∀ c ∈ s, isWritable c = true := by
  have hallowed : literalAllowed s = true := by grind [styleOf]
  simp only [literalAllowed, hasUnwritable, Bool.or_eq_false_iff, List.isEmpty_eq_false_iff,
    List.any_eq_false, Bool.not_eq_eq_eq_not, Bool.not_true, Bool.not_eq_false] at hallowed
  exact ⟨hallowed.1.1.1, hallowed.2⟩

theorem isBreak_of_plainAllowed {s : List Char} (h : plainAllowed s = true) :
    ∀ c ∈ s, isBreak c = false := by
  simp only [plainAllowed, Bool.not_eq_true', Bool.or_eq_false_iff, List.any_eq_false,
    Bool.not_eq_true] at h
  exact h.1.1.2

theorem exists_of_mem_toDigits {b n : Nat} {c : Char} (hb : 1 < b) (h : c ∈ Nat.toDigits b n) :
    ∃ d < b, c = Nat.digitChar d := by
  induction n using Nat.strongRecOn with
  | ind n ih =>
    by_cases hn : n < b
    · rw [Nat.toDigits_of_lt_base hn, List.mem_singleton] at h
      exact ⟨n, hn, h⟩
    · rw [Nat.toDigits_of_base_le hb (by omega), List.mem_append, List.mem_singleton] at h
      rcases h with h | h
      · exact ih (n / b) (Nat.div_lt_self (by omega) hb) h
      · exact ⟨n % b, Nat.mod_lt n (by omega), h⟩

theorem isBreak_fixedHex (width n : Nat) : ∀ c ∈ fixedHex width n, isBreak c = false := by
  have hdigit : ∀ d < 16, isBreak (Nat.digitChar d).toUpper = false := by decide
  intro c hc
  rw [fixedHex, List.mem_append] at hc
  rcases hc with hc | hc
  · rw [List.eq_of_mem_replicate hc]
    rfl
  · obtain ⟨x, hx, rfl⟩ := List.mem_map.1 hc
    obtain ⟨d, hd, rfl⟩ := exists_of_mem_toDigits (by decide) hx
    exact hdigit d hd

theorem isBreak_escape (c : Char) : ∀ x ∈ escape c, isBreak x = false := by
  have hhex (width : Nat) (kind : Char) (hkind : isBreak kind = false) :
      ∀ x ∈ '\\' :: kind :: fixedHex width c.toNat, isBreak x = false :=
    List.forall_mem_cons.2 ⟨rfl, List.forall_mem_cons.2 ⟨hkind, isBreak_fixedHex width _⟩⟩
  unfold escape
  split
  case h_15 =>
    split
    · exact hhex 2 'x' rfl
    · split
      · exact hhex 4 'u' rfl
      · exact hhex 8 'U' rfl
  all_goals simp [isBreak]

theorem isBreak_doubleQuotedChar (c : Char) : ∀ x ∈ doubleQuotedChar c, isBreak x = false := by
  unfold doubleQuotedChar
  split
  · exact isBreak_escape c
  · next h => simp_all

theorem isBreak_pad (n : Nat) : ∀ c ∈ pad n, isBreak c = false := by
  intro c hc
  rw [List.eq_of_mem_replicate hc]
  rfl

/-- Behind indentation a line does not start with what stands there. -/
theorem undashed_pad_append {n : Nat} (hn : 0 < n) {s : List Char}
    (hs : Undashed isBreak false s) : Undashed isBreak true (pad n ++ s) := by
  obtain ⟨n, rfl⟩ := Nat.exists_eq_succ_of_ne_zero (Nat.pos_iff_ne_zero.1 hn)
  have hrest := (Text.undashed_append_iff_of_unbroken (isBreak_pad n)).2 hs
  exact ⟨by decide, hrest⟩

theorem undashed_indented {n : Nat} (hn : 0 < n) {write : Char → List Char}
    (hwrite : ∀ c, isBreak c = false → ∀ x ∈ write c, isBreak x = false) (fresh : Bool)
    (s : List Char) : Undashed isBreak fresh (indented n write fresh s) := by
  induction s generalizing fresh with
  | nil => trivial
  | cons c rest ih =>
    rw [indented]
    split
    · next hc =>
      refine ⟨?_, hc ▸ ih true⟩
      rintro - rfl
      simp [isBreak] at hc
    · next hc =>
      have hrest := (Text.undashed_append_iff_of_unbroken
        (hwrite c (by simpa using hc))).2 (ih false)
      rw [List.append_assoc]
      cases fresh with
      | true => exact undashed_pad_append hn hrest
      | false => exact hrest

theorem undashed_singleQuoted {n : Nat} (hn : 0 < n) (s : List Char) :
    Undashed isBreak false (singleQuoted n s) := by
  have hwrite : ∀ c, isBreak c = false →
      ∀ x ∈ if c == '\'' then ['\'', '\''] else [c], isBreak x = false := by
    intro c hc
    split
    · simp [isBreak]
    · simpa using hc
  have hindented := undashed_indented hn hwrite false s
  have hend : Undashed isBreak true
      ((if (s.getLast?.map isBreak).getD false then pad n else []) ++ ['\'']) := by
    have hquote : Undashed isBreak true ['\''] := by simp
    split
    · exact undashed_pad_append hn (hquote.of_true false)
    · exact hquote
  rw [singleQuoted, List.append_assoc]
  exact ⟨by simp, hindented.append hend⟩

theorem isBreak_literalHints (s : List Char) : ∀ c ∈ literalHints s, isBreak c = false := by
  have hhints : literalHints s ⊆ ['2', '-', '+'] := by
    unfold literalHints
    apply List.append_subset.2
    constructor
    · split
      · split <;> simp
      · simp
    · split
      · simp
      · split <;> simp
      · split
        · simp
        · split <;> simp
  intro c hc
  have hmem : ∀ c ∈ ['2', '-', '+'], isBreak c = false := by simp [isBreak]
  exact hmem c (hhints hc)

/-- Breaks in a text are followed by other breaks or by indentation. -/
theorem undashed_scalar {n : Nat} (hn : 0 < n) (s : List Char) :
    Undashed isBreak false (scalar n s) := by
  unfold scalar
  split
  · next h =>
    exact Text.undashed_of_unbroken (isBreak_of_plainAllowed (plainAllowed_of_styleOf h))
  · exact undashed_singleQuoted hn s
  · have hchars : ∀ x ∈ s.flatMap doubleQuotedChar, isBreak x = false := by
      intro x hx
      obtain ⟨c, -, hc⟩ := List.mem_flatMap.1 hx
      exact isBreak_doubleQuotedChar c x hc
    apply Text.undashed_of_unbroken
    exact List.forall_mem_append.2 ⟨List.forall_mem_cons.2 ⟨rfl, hchars⟩, by simp [isBreak]⟩
  · have hwrite : ∀ c, isBreak c = false → ∀ x ∈ [c], isBreak x = false := by simp
    have hlines := undashed_indented hn hwrite true s
    have hheader : ∀ x ∈ '|' :: literalHints s, isBreak x = false :=
      List.forall_mem_cons.2 ⟨rfl, isBreak_literalHints s⟩
    apply (Text.undashed_append_iff_of_unbroken hheader).2
    exact ⟨by simp, hlines⟩

theorem endsLine_endLine (s : List Char) : EndsLine isBreak (endLine s) := by
  unfold endLine
  split
  · next h =>
    obtain ⟨c, hc, hbreak⟩ : ∃ c, s.getLast? = some c ∧ isBreak c = true := by
      cases hlast : s.getLast? with
      | none => simp [hlast] at h
      | some c => exact ⟨c, rfl, by simpa [hlast] using h⟩
    exact ⟨c, hc, hbreak⟩
  · exact ⟨'\n', by simp, rfl⟩

theorem undashed_endLine {fresh : Bool} {s : List Char} (h : Undashed isBreak fresh s) :
    Undashed isBreak fresh (endLine s) := by
  unfold endLine
  split
  · exact h
  · exact h.append (by simp)

/-- Texts below one another, the first of them without its indentation unless `first` is unset. -/
def stacked (indent : Nat) (first : Bool) : List (List Char) → List Char
  | [] => []
  | piece :: rest =>
    (if first then [] else pad indent) ++ piece ++ stacked indent false rest

/-- One item of a list. -/
def itemPiece (indent : Nat) (item : Document) : List Char := '-' :: ' ' :: block (indent + 2) item

/-- One entry of a mapping. -/
def entryPiece (indent : Nat) (field : String × Document) : List Char :=
  if isSimpleKey field.1 then scalar (indent + 2) field.1.toList ++ ':' :: value indent field.2
  else
    '?' :: ' ' :: endLine (scalar (indent + 2) field.1.toList) ++ pad indent ++ ':' :: ' ' ::
      block (indent + 2) field.2

theorem itemLines_eq_stacked (n : Nat) (first : Bool) (items : List Document) :
    itemLines n first items = stacked n first (items.map (itemPiece n)) := by
  induction items generalizing first with
  | nil => simp [itemLines, stacked]
  | cons item rest ih => rw [itemLines, List.map_cons, stacked, ih, itemPiece]

theorem fieldLines_eq_stacked (n : Nat) (first : Bool) (fields : List (String × Document)) :
    fieldLines n first fields = stacked n first (fields.map (entryPiece n)) := by
  induction fields generalizing first with
  | nil => simp [fieldLines, stacked]
  | cons field rest ih => rw [fieldLines, List.map_cons, stacked, ih, entryPiece]

/-- A value stands on the line of its key, or below it, where only a list is not indented any
further. -/
theorem value_eq_or (n : Nat) (d : Document) :
    value n d = ' ' :: block (n + 2) d ∨
      value n d = '\n' :: (pad (n + 2) ++ block (n + 2) d) ∨
      (value n d = '\n' :: (pad n ++ block n d) ∧ ∃ items, d = sequence items) := by
  cases d with
  | null => exact .inl rfl
  | boolean b => cases b <;> exact .inl rfl
  | integer i => exact .inl (by simp [value, block])
  | text s => exact .inl (by simp [value, block])
  | sequence items =>
    cases items with
    | nil => exact .inl (by simp [value, block])
    | cons item rest => exact .inr (.inr ⟨by simp [value, block], _, rfl⟩)
  | mapping fields =>
    cases fields with
    | nil => exact .inl (by simp [value, block])
    | cons field rest => exact .inr (.inl (by simp [value, block]))

theorem undashed_pad (n : Nat) : Undashed isBreak true (pad n) := by
  apply Text.undashed_true_iff.2
  constructor
  · cases n <;> simp [pad, List.replicate_succ]
  · exact Text.undashed_of_unbroken (isBreak_pad n)

theorem undashed_stacked {n : Nat} {pieces : List (List Char)}
    (h : ∀ piece ∈ pieces, Undashed isBreak true (pad n ++ piece)) :
    Undashed isBreak true (stacked n false pieces) := by
  induction pieces with
  | nil => trivial
  | cons piece rest ih =>
    obtain ⟨hpiece, hrest⟩ := List.forall_mem_cons.1 h
    exact hpiece.append (ih hrest)

theorem undashed_stacked_first {n : Nat} {fresh : Bool} {pieces : List (List Char)}
    (hfirst : ∀ piece ∈ pieces, Undashed isBreak fresh piece)
    (h : ∀ piece ∈ pieces, Undashed isBreak true (pad n ++ piece)) :
    Undashed isBreak fresh (stacked n true pieces) := by
  cases pieces with
  | nil => trivial
  | cons piece rest =>
    have hrest := undashed_stacked (List.forall_mem_cons.1 h).2
    exact (hfirst piece (by simp)).append hrest

/-- Members that go on behind something else may follow one another if they are indented. -/
theorem undashed_stacked_of_pos {n : Nat} (hn : 0 < n) {pieces : List (List Char)}
    (h : ∀ piece ∈ pieces, Undashed isBreak false piece) :
    Undashed isBreak false (stacked n true pieces) := by
  apply undashed_stacked_first h
  intro piece hpiece
  exact undashed_pad_append hn (h piece hpiece)

theorem undashed_value {n : Nat} {d : Document}
    (hblock : ∀ m, 0 < m → Undashed isBreak false (block m d))
    (hn : 0 < n ∨ ∀ items, d ≠ sequence items) : Undashed isBreak false (value n d) := by
  obtain h | h | ⟨h, items, hd⟩ := value_eq_or n d
  · rw [h]
    exact ⟨by simp, hblock (n + 2) (by omega)⟩
  · rw [h]
    exact ⟨by simp, undashed_pad_append (by omega) (hblock (n + 2) (by omega))⟩
  · have hpos : 0 < n := hn.resolve_right fun hnot => hnot items hd
    rw [h]
    exact ⟨by simp, undashed_pad_append hpos (hblock n hpos)⟩

theorem undashed_entryPiece {n : Nat} {field : String × Document}
    (hblock : ∀ m, 0 < m → Undashed isBreak false (block m field.2))
    (hn : 0 < n ∨ ∀ items, field.2 ≠ sequence items) :
    Undashed isBreak false (entryPiece n field) := by
  have hkey := undashed_scalar (n := n + 2) (by omega) field.1.toList
  unfold entryPiece
  split
  · have hvalue : Undashed isBreak true (':' :: value n field.2) :=
      ⟨by decide, undashed_value hblock hn⟩
    exact hkey.append hvalue
  · have hvalue : Undashed isBreak true (':' :: ' ' :: block (n + 2) field.2) :=
      ⟨by decide, by simp, hblock (n + 2) (by omega)⟩
    have hline : Undashed isBreak false ('?' :: ' ' :: endLine (scalar (n + 2) field.1.toList)) :=
      ⟨by simp, by simp, undashed_endLine hkey⟩
    exact (hline.append (undashed_pad n)).append hvalue

theorem isBreak_toString (i : Int) : ∀ c ∈ (toString i).toList, isBreak c = false := by
  have hdigits : ∀ c ∈ Nat.toDigits 10 i.natAbs, isBreak c = false := by
    have hdigit : ∀ d < 10, isBreak (Nat.digitChar d) = false := by decide
    intro c hc
    obtain ⟨d, hd, rfl⟩ := exists_of_mem_toDigits (by decide) hc
    exact hdigit d hd
  rw [Decimal.toList_toString]
  split
  · exact List.forall_mem_cons.2 ⟨rfl, hdigits⟩
  · exact hdigits

/-- Lines behind the first start with indentation, so none of them starts with a dash. -/
theorem undashed_block (d : Document) :
    ∀ n, 0 < n → Undashed isBreak false (block n d) := by
  -- The first line of a block goes on behind a dash, a colon or indentation, so a dash may open it.
  induction d using Document.inductionOn with
  | null => simp [block, isBreak]
  | boolean b => cases b <;> simp [block, isBreak]
  | integer i =>
    intro n _
    exact (Text.undashed_of_unbroken (isBreak_toString i)).append (t := ['\n']) (by simp)
  | text s =>
    intro n hn
    exact undashed_endLine (undashed_scalar hn s.toList)
  | sequence items ih =>
    intro n hn
    rw [block, itemLines_eq_stacked]
    split
    · simp [isBreak]
    · apply undashed_stacked_of_pos hn
      intro piece hpiece
      obtain ⟨item, hitem, rfl⟩ := List.mem_map.1 hpiece
      exact ⟨by simp, by simp, ih item hitem (n + 2) (by omega)⟩
  | mapping fields ih =>
    intro n hn
    rw [block, fieldLines_eq_stacked]
    split
    · simp [isBreak]
    · apply undashed_stacked_of_pos hn
      intro piece hpiece
      obtain ⟨field, hfield, rfl⟩ := List.mem_map.1 hpiece
      exact undashed_entryPiece (ih field hfield) (.inl hn)

theorem head?_scalar {n : Nat} {s : List Char} (h : (scalar n s).head? = some '-') :
    s.head? = some '-' := by
  unfold scalar at h
  split at h
  · exact h
  all_goals simp [singleQuoted] at h

/-- A mapping keeps this also without indentation, if no key starts with a dash and no value is a
list. -/
theorem undashed_mapping {fields : List (String × Document)}
    (hkeys : ∀ field ∈ fields, field.1.toList.head? ≠ some '-')
    (hvalues : ∀ field ∈ fields, ∀ items, field.2 ≠ sequence items) :
    Undashed isBreak true (block 0 (mapping fields)) := by
  have hpiece : ∀ piece ∈ fields.map (entryPiece 0), Undashed isBreak true piece := by
    intro piece hmem
    obtain ⟨field, hfield, rfl⟩ := List.mem_map.1 hmem
    apply Text.undashed_true_iff.2
    constructor
    · unfold entryPiece
      split
      · intro hhead
        rw [List.head?_append, Option.or_eq_some_iff] at hhead
        rcases hhead with hkey | ⟨-, hcolon⟩
        · exact hkeys field hfield (head?_scalar hkey)
        · simp at hcolon
      · simp
    · exact undashed_entryPiece (undashed_block field.2) (.inr (hvalues field hfield))
  rw [block, fieldLines_eq_stacked]
  split
  · simp [isBreak]
  · exact undashed_stacked_first hpiece hpiece

/-- The last text in the document is written as a block and ends in a line or paragraph
separator. -/
inductive EndsInSeparator : Document → Prop
  | text {s : String} (hstyle : styleOf s.toList = .literal)
      (hlast : s.toList.getLast? = some '\u2028' ∨ s.toList.getLast? = some '\u2029') :
      EndsInSeparator (text s)
  | sequence {items : List Document} {item : Document} (hlast : items.getLast? = some item)
      (h : EndsInSeparator item) : EndsInSeparator (sequence items)
  | mapping {fields : List (String × Document)} {k : String} {v : Document}
      (hlast : fields.getLast? = some (k, v)) (h : EndsInSeparator v) :
      EndsInSeparator (mapping fields)

theorem getLast?_indented (n : Nat) (fresh : Bool) (s : List Char) :
    (indented n (fun c => [c]) fresh s).getLast? = s.getLast? := by
  induction s generalizing fresh with
  | nil => rfl
  | cons c rest ih =>
    rw [indented]
    split
    · simp [List.getLast?_cons, ih]
    · simp [List.getLast?_append, List.getLast?_cons, ih]

theorem isBreak_iff_of_isWritable {c : Char} (h : isWritable c = true) :
    isBreak c = true ↔ c = '\n' ∨ c = '\u2028' ∨ c = '\u2029' := by
  have heq (d : Char) : c = d ↔ c.toNat = d.toNat := Char.toNat_inj.symm
  simp only [isWritable, Bool.or_eq_true, Bool.and_eq_true, beq_iff_eq, decide_eq_true_eq] at h
  simp only [isBreak, Bool.or_eq_true, beq_iff_eq, heq]
  have hreturn : '\r'.toNat = 13 := rfl
  have hline : '\u2028'.toNat = 0x2028 := rfl
  have hparagraph : '\u2029'.toNat = 0x2029 := rfl
  omega

theorem getLast?_endLine (s : List Char) : (endLine s).getLast? = some '\n' ↔
    ∀ c, s.getLast? = some c → isBreak c = true → c = '\n' := by
  unfold endLine
  cases hlast : s.getLast? with
  | none => simp
  | some c => by_cases hc : isBreak c = true <;> simp [hc, hlast]

/-- A block keeps the last character of its text, since indentation stands before lines only. -/
theorem getLast?_scalar_of_literal {s : List Char} (h : styleOf s = .literal) (n : Nat) :
    (scalar n s).getLast? = s.getLast? := by
  have hne := (writable_of_styleOf h).1
  have hlines := getLast?_indented n true s
  rw [List.getLast?_eq_some_getLast hne] at hlines
  simp only [scalar, h, List.getLast?_append, List.getLast?_cons, hlines, Option.getD_some,
    Option.some_or, List.getLast?_eq_some_getLast hne]

/-- The other styles end in a character of their own, or in one that is no break. -/
theorem styleOf_of_isBreak {n : Nat} {s : List Char} {c : Char}
    (h : (scalar n s).getLast? = some c) (hc : isBreak c = true) : styleOf s = .literal := by
  unfold scalar at h
  split at h
  · next hstyle =>
    have hunbroken := isBreak_of_plainAllowed (plainAllowed_of_styleOf hstyle)
    have hnot := hunbroken c (List.mem_of_getLast? h)
    rw [hc] at hnot
    contradiction
  · rw [singleQuoted, List.getLast?_concat, Option.some.injEq] at h
    subst h
    contradiction
  · rw [List.getLast?_concat, Option.some.injEq] at h
    subst h
    contradiction
  · assumption

/-- The break at the end of a text on several lines takes the place of a line feed. -/
theorem getLast?_endLine_scalar (n : Nat) (s : List Char) :
    (endLine (scalar n s)).getLast? = some '\n' ↔
      ¬ (styleOf s = .literal ∧
        (s.getLast? = some '\u2028' ∨ s.getLast? = some '\u2029')) := by
  rw [getLast?_endLine]
  constructor
  · rintro h ⟨hstyle, hlast⟩
    rw [getLast?_scalar_of_literal hstyle] at h
    rcases hlast with hlast | hlast
    · exact absurd (h _ hlast rfl) (by decide)
    · exact absurd (h _ hlast rfl) (by decide)
  · intro h c hc hbreak
    have hstyle := styleOf_of_isBreak hc hbreak
    rw [getLast?_scalar_of_literal hstyle] at hc
    have hwritable := (writable_of_styleOf hstyle).2 c (List.mem_of_getLast? hc)
    rcases (isBreak_iff_of_isWritable hwritable).1 hbreak with rfl | rfl | rfl
    · rfl
    · exact absurd ⟨hstyle, .inl hc⟩ h
    · exact absurd ⟨hstyle, .inr hc⟩ h

/-- Texts below one another end as the last of them does. -/
theorem getLast?_stacked {n : Nat} {first : Bool} {pieces : List (List Char)} {piece : List Char}
    (hlast : pieces.getLast? = some piece) (hne : piece ≠ []) :
    (stacked n first pieces).getLast? = piece.getLast? := by
  induction pieces generalizing first with
  | nil => simp at hlast
  | cons head rest ih =>
    rw [stacked, List.getLast?_append]
    cases rest with
    | nil =>
      rw [List.getLast?_singleton, Option.some.injEq] at hlast
      subst hlast
      rw [stacked, List.getLast?_nil, Option.none_or, List.getLast?_append_of_ne_nil _ hne]
    | cons next more =>
      rw [ih (by simpa using hlast), List.getLast?_eq_some_getLast hne, Option.some_or]

/-- The text of a value ends with the lines of the value, wherever these stand. -/
theorem exists_block_suffix_value (n : Nat) (d : Document) : ∃ m, block m d <:+ value n d := by
  obtain h | h | ⟨h, -⟩ := value_eq_or n d
  · exact ⟨n + 2, [' '], h.symm⟩
  · exact ⟨n + 2, '\n' :: pad (n + 2), h.symm⟩
  · exact ⟨n, '\n' :: pad n, h.symm⟩

theorem exists_block_suffix_entryPiece (n : Nat) (field : String × Document) :
    ∃ m, block m field.2 <:+ entryPiece n field := by
  unfold entryPiece
  split
  · obtain ⟨m, hsuffix⟩ := exists_block_suffix_value n field.2
    exact ⟨m, (hsuffix.trans (List.suffix_cons _ _)).trans (List.suffix_append _ _)⟩
  · exact ⟨n + 2, ((List.suffix_append [':', ' '] _)).trans (List.suffix_append _ _)⟩

theorem endsInSeparator_sequence_iff {items : List Document} {item : Document}
    (hlast : items.getLast? = some item) :
    EndsInSeparator (sequence items) ↔ EndsInSeparator item := by
  refine ⟨fun h => ?_, EndsInSeparator.sequence hlast⟩
  cases h with
  | sequence hlast' h =>
    rw [hlast, Option.some.injEq] at hlast'
    exact hlast' ▸ h

theorem endsInSeparator_mapping_iff {fields : List (String × Document)} {field : String × Document}
    (hlast : fields.getLast? = some field) :
    EndsInSeparator (mapping fields) ↔ EndsInSeparator field.2 := by
  refine ⟨fun h => ?_, EndsInSeparator.mapping hlast⟩
  cases h with
  | mapping hlast' h =>
    rw [hlast, Option.some.injEq] at hlast'
    exact hlast' ▸ h

/-- A text ends the last line, with a line feed unless the document ends in a separator. -/
def Closes (d : Document) (s : List Char) : Prop :=
  EndsLine isBreak s ∧ (s.getLast? = some '\n' ↔ ¬ EndsInSeparator d)

theorem Closes.of_suffix {d : Document} {s t : List Char} (h : Closes d s) (hsuffix : s <:+ t) :
    Closes d t := by
  obtain ⟨u, rfl⟩ := hsuffix
  rw [Closes, Text.endsLine_append_iff h.1.ne_nil, List.getLast?_append_of_ne_nil u h.1.ne_nil]
  exact h

/-- A collection closes its text as its last member does. -/
theorem Closes.stacked {α : Type} {xs : List α} {write : α → List Char} {d d' : Document}
    (hne : xs ≠ []) (h : Closes d' (write (xs.getLast hne)))
    (hd : EndsInSeparator d ↔ EndsInSeparator d') (n : Nat) :
    Closes d (stacked n true (xs.map write)) := by
  have hlast : (xs.map write).getLast? = some (write (xs.getLast hne)) := by
    rw [List.getLast?_map, List.getLast?_eq_some_getLast hne, Option.map_some]
  rw [Closes, EndsLine, getLast?_stacked hlast h.1.ne_nil, hd]
  exact h

theorem closes_of_line {d : Document} (hd : ¬ EndsInSeparator d) (s : List Char) :
    Closes d (s ++ ['\n']) :=
  ⟨⟨'\n', by simp, rfl⟩, by simpa using hd⟩

/-- The text of a document ends its last line at any indentation. -/
theorem closes_block (d : Document) : ∀ n, Closes d (block n d) := by
  induction d using Document.inductionOn with
  | null => exact fun n => closes_of_line (by rintro ⟨⟩) "null".toList
  | boolean b =>
    intro n
    cases b with
    | true => exact closes_of_line (by rintro ⟨⟩) "true".toList
    | false => exact closes_of_line (by rintro ⟨⟩) "false".toList
  | integer i => exact fun n => closes_of_line (by rintro ⟨⟩) (toString i).toList
  | text s =>
    intro n
    refine ⟨endsLine_endLine _, (getLast?_endLine_scalar n s.toList).trans (not_congr ?_)⟩
    constructor
    · rintro ⟨hstyle, hlast⟩
      exact .text hstyle hlast
    · intro hends
      cases hends with
      | text hstyle hlast => exact ⟨hstyle, hlast⟩
  | sequence items ih =>
    intro n
    rw [block, itemLines_eq_stacked]
    split
    · next hempty =>
      obtain rfl := List.isEmpty_iff.1 hempty
      refine closes_of_line ?_ "[]".toList
      rintro ⟨⟩
      contradiction
    · next hempty =>
      have hne : items ≠ [] := mt List.isEmpty_iff.2 hempty
      have hitem : Closes (items.getLast hne) (itemPiece n (items.getLast hne)) :=
        (ih _ (List.getLast_mem hne) (n + 2)).of_suffix (List.suffix_append ['-', ' '] _)
      have hlast := List.getLast?_eq_some_getLast hne
      exact hitem.stacked hne (endsInSeparator_sequence_iff hlast) n
  | mapping fields ih =>
    intro n
    rw [block, fieldLines_eq_stacked]
    split
    · next hempty =>
      obtain rfl := List.isEmpty_iff.1 hempty
      refine closes_of_line ?_ "\x7b\x7d".toList
      rintro ⟨⟩
      contradiction
    · next hempty =>
      have hne : fields ≠ [] := mt List.isEmpty_iff.2 hempty
      obtain ⟨m, hsuffix⟩ := exists_block_suffix_entryPiece n (fields.getLast hne)
      have hentry := (ih _ (List.getLast_mem hne) m).of_suffix hsuffix
      have hlast := List.getLast?_eq_some_getLast hne
      exact hentry.stacked hne (endsInSeparator_mapping_iff hlast) n

end Reachability.Document
