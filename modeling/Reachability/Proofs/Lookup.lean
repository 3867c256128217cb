import Reachability.Lookup
import Reachability.Simulation.Store

namespace Reachability

open Simulation

theorem occursIn_iff_isInfix {pattern text : List Char} :
    occursIn pattern text = true ↔ pattern <:+: text := by
  induction text with
  | nil => simp [occursIn]
  | cons c rest ih =>
    rw [occursIn, Bool.or_eq_true, List.isPrefixOf_iff_prefix, ih, List.infix_cons_iff]

theorem occursIn_append (pattern before after : List Char) :
    occursIn pattern (before ++ (pattern ++ after)) = true :=
  occursIn_iff_isInfix.2 ⟨before, after, List.append_assoc ..⟩

theorem unifyBreaks_cons {c : Char} {rest : List Char} (h : c = '\r' → rest.head? ≠ some '\n') :
    unifyBreaks (c :: rest) = c :: unifyBreaks rest := by
  rw [unifyBreaks]
  rintro rest' rfl rfl
  exact h rfl rfl

/-- Nothing is unified across a place that no line feed follows. -/
theorem unifyBreaks_append (before after : List Char) (h : after.head? ≠ some '\n') :
    unifyBreaks (before ++ after) = unifyBreaks before ++ unifyBreaks after := by
  fun_induction unifyBreaks before with
  | case1 rest ih => simp [unifyBreaks, ih]
  | case2 c rest hbreak ih =>
    rw [List.cons_append, unifyBreaks_cons, ih, List.cons_append]
    intro hc
    cases rest with
    | nil => exact h
    | cons d rest =>
      intro hd
      exact hbreak rest hc (congrArg (· :: rest) (Option.some.inj hd))
  | case3 => rfl

theorem unifyBreaks_of_not_mem {before : List Char} (h : '\r' ∉ before) (after : List Char) :
    unifyBreaks (before ++ after) = before ++ unifyBreaks after := by
  induction before with
  | nil => rfl
  | cons c before ih =>
    rw [List.mem_cons, not_or] at h
    rw [List.cons_append, unifyBreaks_cons fun hc => absurd hc.symm h.1, ih h.2, List.cons_append]

theorem unifyBreaks_eq_self {text : List Char} (h : '\n' ∉ text) : unifyBreaks text = text := by
  induction text with
  | nil => rfl
  | cons c rest ih =>
    rw [List.mem_cons, not_or] at h
    rw [unifyBreaks_cons fun _ hd => h.2 (List.mem_of_mem_head? hd), ih h.2]

/-- The line without the carriage return at its end, if there is one. -/
def withoutReturn (line : List Char) : List Char :=
  if line.getLast? = some '\r' then line.dropLast else line

theorem withoutReturn_cons {c : Char} {line : List Char} (h : line ≠ []) :
    withoutReturn (c :: line) = c :: withoutReturn line := by
  obtain ⟨d, line, rfl⟩ := List.exists_cons_of_ne_nil h
  unfold withoutReturn
  rw [List.getLast?_cons_cons, List.dropLast_cons_cons]
  split <;> rfl

/-- Of a carriage return and a line feed, the latter is left. -/
theorem unifyBreaks_line {line : List Char} (h : '\n' ∉ line) (rest : List Char) :
    unifyBreaks (line ++ '\n' :: rest) = withoutReturn line ++ '\n' :: unifyBreaks rest := by
  induction line with
  | nil => exact unifyBreaks_cons (by simp)
  | cons c line ih =>
    rw [List.mem_cons, not_or] at h
    by_cases hline : line = []
    · subst hline
      by_cases hc : c = '\r'
      · subst hc
        rfl
      · have hkept : withoutReturn [c] = [c] := if_neg (by simpa using hc)
        rw [List.cons_append, unifyBreaks_cons fun hc' => absurd hc' hc, ih h.2, hkept]
        rfl
    · have hhead : (line ++ '\n' :: rest).head? ≠ some '\n' := by
        obtain ⟨d, line, rfl⟩ := List.exists_cons_of_ne_nil hline
        exact fun hd => h.2 (List.mem_of_mem_head? hd)
      rw [List.cons_append, unifyBreaks_cons fun _ => hhead, ih h.2, withoutReturn_cons hline]
      rfl

/-- Some of the line feeds have got a carriage return in front of them. -/
inductive Rebroken : List Char → List Char → Prop
  | nil : Rebroken [] []
  | same (c : Char) {s t : List Char} (h : Rebroken s t) : Rebroken (c :: s) (c :: t)
  | widened {s t : List Char} (h : Rebroken s t) : Rebroken ('\n' :: s) ('\r' :: '\n' :: t)

theorem Rebroken.refl : (s : List Char) → Rebroken s s
  | [] => .nil
  | c :: s => .same c (refl s)

theorem Rebroken.append {s t s' t' : List Char} (h : Rebroken s t) (h' : Rebroken s' t') :
    Rebroken (s ++ s') (t ++ t') := by
  induction h with
  | nil => exact h'
  | same c _ ih => exact .same c ih
  | widened _ ih => exact .widened ih

theorem Rebroken.unifyBreaks_eq {s t : List Char} (h : Rebroken s t) (hs : '\r' ∉ s) :
    unifyBreaks t = s := by
  induction h with
  | nil => rfl
  | same c h ih =>
    rw [List.mem_cons, not_or] at hs
    rw [unifyBreaks_cons fun hc => absurd hc.symm hs.1, ih hs.2]
  | widened h ih => rw [unifyBreaks, ih fun hr => hs (List.mem_cons_of_mem _ hr)]

/-- The lines of a text that end in a line feed, without it. -/
def terminatedLines (text : List Char) : List (List Char) := (text.splitOn '\n').dropLast

theorem terminatedLines_of_not_mem {text : List Char} (h : '\n' ∉ text) :
    terminatedLines text = [] := by
  rw [terminatedLines, List.splitOn_eq_singleton h]
  rfl

theorem terminatedLines_line {line : List Char} (h : '\n' ∉ line) (rest : List Char) :
    terminatedLines (line ++ '\n' :: rest) = line :: terminatedLines rest := by
  rw [terminatedLines, List.splitOn_append_cons_self_of_not_mem h,
    List.dropLast_cons_of_ne_nil (List.splitOn_ne_nil _ _)]
  rfl

example : terminatedLines "a\r\n\nb".toList = ["a\r".toList, []] := by decide

/-- What occurs in a text up to a line feed stands at the end of its first line, or occurs later. -/
theorem infix_line_iff {pattern line rest : List Char} (hpattern : '\n' ∉ pattern)
    (hline : '\n' ∉ line) : pattern ++ ['\n'] <:+: line ++ '\n' :: rest ↔
      pattern <:+ line ∨ pattern ++ ['\n'] <:+: rest := by
  constructor
  · rintro ⟨before, after, h⟩
    have hsplit : before ++ pattern ++ '\n' :: after = line ++ '\n' :: rest := by
      simpa [List.append_assoc] using h
    -- the line feed behind the pattern is the one that ends the line, or a later one
    rcases List.append_eq_append_iff.1 hsplit with ⟨more, hmore, hafter⟩ | ⟨more, hmore, hrest⟩
    · cases more with
      | nil => exact .inl ⟨before, by simpa using hmore.symm⟩
      | cons c more =>
        obtain ⟨rfl, -⟩ := List.cons.inj hafter
        exact absurd (hmore ▸ by simp) hline
    · cases more with
      | nil => exact .inl ⟨before, by simpa using hmore⟩
      | cons c more =>
        obtain ⟨rfl, rfl⟩ := List.cons.inj hrest
        -- no line feed stands in the pattern, so that it begins behind the end of the line
        rcases List.append_eq_append_iff.1 hmore with ⟨part, -, hpart⟩ | ⟨part, -, hpart⟩
        · exact absurd (by simp [hpart]) hpattern
        · cases part with
          | nil =>
            rw [List.nil_append] at hpart
            exact absurd (hpart ▸ List.mem_cons_self) hpattern
          | cons d part =>
            obtain ⟨-, rfl⟩ := List.cons.inj hpart
            exact .inr ⟨part, after, by simp⟩
  · rintro (⟨before, rfl⟩ | ⟨before, after, rfl⟩)
    · exact ⟨before, rest, by simp⟩
    · exact ⟨line ++ '\n' :: before, after, by simp⟩

/-- A pattern occurs up to a break in the text if and only if a line ends in it. -/
theorem infix_unifyBreaks_iff {pattern : List Char} (hpattern : '\n' ∉ pattern)
    (text : List Char) : pattern ++ ['\n'] <:+: unifyBreaks text ↔
      ∃ line ∈ terminatedLines text, pattern <:+ withoutReturn line := by
  induction hlength : text.length using Nat.strongRecOn generalizing text with
  | ind n ih =>
    by_cases hbreak : '\n' ∈ text
    · obtain ⟨line, rest, rfl, hline⟩ := List.eq_append_cons_of_mem hbreak
      have hunified : '\n' ∉ withoutReturn line := by
        unfold withoutReturn
        split
        · exact fun h => hline (List.dropLast_subset line h)
        · exact hline
      rw [unifyBreaks_line hline, infix_line_iff hpattern hunified, terminatedLines_line hline,
        ih rest.length (by simp [← hlength]; omega) rest rfl]
      simp only [List.mem_cons, exists_eq_or_imp]
    · rw [unifyBreaks_eq_self hbreak, terminatedLines_of_not_mem hbreak]
      refine iff_of_false (fun h => hbreak ?_) (by simp)
      exact h.subset (by simp)

/-- The answer of a name server satisfies a check for the address in it. -/
theorem verifyLookup_serverAnswer {s : Manifest.Service} {server name address : String}
    (hs : s.expectedAddress = address) (haddress : '\r' ∉ address.toList) :
    verifyLookup s (Store.serverAnswer "\r\n" server name address) = .ok () := by
  have hline : '\r' ∉ ("Address: " ++ address).toList := by
    simp [haddress]
  have hoccurs (start : String) : occursIn ("Address: " ++ address ++ "\n").toList
      (unifyBreaks (start ++ "Address: " ++ address ++ "\r\n").toList) = true := by
    have hlist : (start ++ "Address: " ++ address ++ "\r\n").toList =
        start.toList ++ (("Address: " ++ address).toList ++ ['\r', '\n']) := by
      simp [String.append_assoc]
    have hunified : unifyBreaks ['\r', '\n'] = ['\n'] := rfl
    rw [hlist, unifyBreaks_append _ _ (by simp), unifyBreaks_of_not_mem hline, hunified]
    simpa using occursIn_append ("Address: " ++ address ++ "\n").toList _ []
  unfold verifyLookup
  simp only [hs, String.toList_ofList]
  split
  next => rfl
  next => exact if_pos (hoccurs _)

/-- Some line of the output says that this is the address. -/
def NamesAddress (output address : String) : Prop :=
  ∃ line ∈ terminatedLines output.toList, ("Address: " ++ address).toList <:+ withoutReturn line

theorem verifyLookup_of_ne {s : Manifest.Service} (hs : s.expectedAddress ≠ "") (output : String) :
    verifyLookup s output =
      if occursIn ("Address: " ++ s.expectedAddress ++ "\n").toList (unifyBreaks output.toList) then
        .ok ()
      else
        .error (.addressNotResolved s.expectedAddress (.ofList (unifyBreaks output.toList))) := by
  unfold verifyLookup
  simp only [if_neg hs, String.toList_ofList]

theorem verifyLookup_eq_ok_iff {s : Manifest.Service} (hs : '\n' ∉ s.expectedAddress.toList)
    (output : String) : verifyLookup s output = .ok () ↔
      s.expectedAddress = "" ∨ NamesAddress output s.expectedAddress := by
  by_cases hempty : s.expectedAddress = ""
  · exact iff_of_true (if_pos hempty) (.inl hempty)
  have hpattern : '\n' ∉ ("Address: " ++ s.expectedAddress).toList := by simp [hs]
  have hlist : ("Address: " ++ s.expectedAddress ++ "\n").toList =
      ("Address: " ++ s.expectedAddress).toList ++ ['\n'] := String.toList_append ..
  have hoccurs : occursIn ("Address: " ++ s.expectedAddress ++ "\n").toList
      (unifyBreaks output.toList) = true ↔ NamesAddress output s.expectedAddress := by
    rw [occursIn_iff_isInfix, hlist, infix_unifyBreaks_iff hpattern, NamesAddress]
  rw [verifyLookup_of_ne hempty, or_iff_right hempty, ← hoccurs]
  split
  next h => exact iff_of_true rfl h
  next h => exact iff_of_false nofun h

/-- An output is judged line by line: one that does not name the address is worth another attempt.
How the lines of an output end makes no difference, also in what is said about it. -/
theorem verifyLookup_reads_lines (s : Manifest.Service) (output : String) :
    ('\n' ∉ s.expectedAddress.toList → (verifyLookup s output = .ok () ↔
      s.expectedAddress = "" ∨ NamesAddress output s.expectedAddress)) ∧
    (verifyLookup s output ≠ .ok () → ∃ text, verifyLookup s output =
        .error (.addressNotResolved s.expectedAddress text) ∧
      (Failure.invalid (.addressNotResolved s.expectedAddress text)).retryable = true) ∧
    ∀ output' : String, '\r' ∉ output.toList → Rebroken output.toList output'.toList →
      verifyLookup s output' = verifyLookup s output := by
  by_cases hempty : s.expectedAddress = ""
  · have hpasses (text : String) : verifyLookup s text = .ok () := if_pos hempty
    exact ⟨fun hs => verifyLookup_eq_ok_iff hs output, fun h => absurd (hpasses output) h,
      fun output' _ _ => (hpasses output').trans (hpasses output).symm⟩
  refine ⟨fun hs => verifyLookup_eq_ok_iff hs output, fun h => ?_,
    fun output' hreturn hbroken => ?_⟩
  · rw [verifyLookup_of_ne hempty] at h ⊢
    split at h
    next => exact absurd rfl h
    next hoccurs => exact ⟨_, if_neg hoccurs, rfl⟩
  · have hunified : unifyBreaks output'.toList = unifyBreaks output.toList := by
      rw [hbroken.unifyBreaks_eq hreturn, (Rebroken.refl _).unifyBreaks_eq hreturn]
    rw [verifyLookup_of_ne hempty, verifyLookup_of_ne hempty, hunified]

/-- A service with an address of its cluster. -/
def addressedService : Manifest.Service :=
  { metadata := { name := some "echo" }, clusterIP := some "10.96.12.34" }

theorem addressedService_reads_lines :
    NamesAddress "x\r\nAddress: 10.96.12.34\r\n\r" addressedService.expectedAddress ∧
      verifyLookup addressedService "x\r\nAddress: 10.96.12.34\r\n\r" = .ok () ∧
      (∃ text, verifyLookup addressedService "Address: 10.96.12.34" =
        .error (.addressNotResolved "10.96.12.34" text)) ∧
      verifyLookup addressedService "Address: 1\r\n\r\n" =
        verifyLookup addressedService "Address: 1\n\n" := by
  have haddress : '\n' ∉ addressedService.expectedAddress.toList := by decide
  have hnamed : NamesAddress "x\r\nAddress: 10.96.12.34\r\n\r"
      addressedService.expectedAddress :=
    ⟨"Address: 10.96.12.34\r".toList, by decide, by decide⟩
  have hunnamed : ¬ (addressedService.expectedAddress = "" ∨
      NamesAddress "Address: 10.96.12.34" addressedService.expectedAddress) := by
    rintro (h | ⟨line, hline, -⟩)
    · exact absurd h (by decide)
    · exact absurd hline (by simp [terminatedLines_of_not_mem])
  obtain ⟨hread, -, -⟩ :=
    verifyLookup_reads_lines addressedService "x\r\nAddress: 10.96.12.34\r\n\r"
  obtain ⟨hpartial, hfails, -⟩ := verifyLookup_reads_lines addressedService "Address: 10.96.12.34"
  obtain ⟨-, -, hbroken⟩ := verifyLookup_reads_lines addressedService "Address: 1\n\n"
  obtain ⟨text, htext, -⟩ := hfails (mt (hpartial haddress).1 hunnamed)
  have hwidened : Rebroken "Address: 1\n\n".toList "Address: 1\r\n\r\n".toList :=
    (Rebroken.refl "Address: 1".toList).append (.widened (.widened .nil))
  exact ⟨hnamed, (hread haddress).2 (.inr hnamed), ⟨text, htext⟩,
    hbroken _ (by decide) hwidened⟩

end Reachability
