import Reachability.Proofs.Feature
import Reachability.Proofs.Settings.Parameters
import Reachability.Settings.Load

namespace Reachability

namespace Text

/-- The text has no capital letter from A to Z. -/
def IsSmall (s : String) : Prop := ∀ c ∈ s.toList, c.toLower = c

theorem toLower_eq_self {c : Char} (h : ¬ (65 ≤ c.toNat ∧ c.toNat ≤ 90)) : c.toLower = c :=
  dif_neg fun ⟨hfirst, hlast⟩ => h ⟨hfirst, hlast⟩

theorem toNat_ofNat (n : Nat) : (Char.ofNat n).toNat = n ∨ (Char.ofNat n).toNat = 0 := by
  by_cases hvalid : n.isValidChar
  · exact .inl (congrArg Char.toNat (dif_pos hvalid))
  · exact .inr (congrArg Char.toNat (dif_neg hvalid))

/-- The small form of a letter has no capital letter from A to Z. -/
theorem toLower_of_mem_lowerChar {c c' : Char} (h : c' ∈ lowerChar c) : c'.toLower = c' := by
  have hruns : ∀ r ∈ capitalRuns, 90 < r.first + r.shift := by decide +kernel
  unfold lowerChar at h
  split at h
  next => fin_cases h <;> decide
  next =>
    split at h
    next r hfind =>
      obtain rfl := List.mem_singleton.1 h
      have hcovers : r.covers c.toNat = true :=
        List.find?_some (p := fun r : CapitalRun => r.covers c.toNat) hfind
      have hrun := hruns r (List.mem_of_find?_eq_some hfind)
      simp only [CapitalRun.covers, Bool.and_eq_true, decide_eq_true_eq] at hcovers
      refine toLower_eq_self fun hcapital => ?_
      rcases toNat_ofNat (c.toNat + r.shift).toNat with hvalue | hvalue <;> omega
    next hnone =>
      obtain rfl := List.mem_singleton.1 h
      refine toLower_eq_self fun hcapital => ?_
      have huncovered := List.find?_eq_none.1 hnone ⟨65, 90, 1, 32⟩ List.mem_cons_self
      simp [CapitalRun.covers, hcapital] at huncovered
      omega

theorem isSmall_lowercase (s : String) : IsSmall (lowercase s) := by
  intro c hc
  rw [lowercase, String.toList_ofList] at hc
  obtain ⟨c', -, hc'⟩ := List.mem_flatMap.1 hc
  exact toLower_of_mem_lowerChar hc'

end Text

/-- In small letters a feature has one spelling. -/
theorem Feature.IsSpelled.eq_of_isSmall {f : Feature} {name name' : String}
    (h : f.IsSpelled name) (h' : f.IsSpelled name') (hsmall : Text.IsSmall name)
    (hsmall' : Text.IsSmall name') : name = name' := by
  have hmap {s : String} (hs : Text.IsSmall s) : s.toList.map Char.toLower = s.toList :=
    (List.map_congr_left hs).trans (List.map_id _)
  have heq : name.toList.map Char.toLower = name'.toList.map Char.toLower :=
    (beq_iff_eq.1 h).symm.trans (beq_iff_eq.1 h')
  rw [hmap hsmall, hmap hsmall'] at heq
  exact String.toList_inj.1 heq

namespace Settings

namespace Value

variable {name : String} {v root target : Value} {entries layer : List (String × Value)}
  {e : String × Value}

/-- The names of what the value holds have no capital letters from A to Z. -/
def HasSmallNames (v : Value) : Prop := ∀ e ∈ v.entries, Text.IsSmall e.1

theorem mem_put (h : e ∈ put name v entries) : e = (name, v) ∨ e ∈ entries := by
  induction entries with
  | nil => exact .inl (List.mem_singleton.1 h)
  | cons other entries ih =>
    obtain ⟨k, old⟩ := other
    rw [put] at h
    split at h
    next hk =>
      rcases List.mem_cons.1 h with rfl | h
      · exact .inl (by rw [hk])
      · exact .inr (List.mem_cons_of_mem _ h)
    next =>
      rcases List.mem_cons.1 h with rfl | h
      · exact .inr List.mem_cons_self
      · exact (ih h).imp_right (List.mem_cons_of_mem _)

theorem hasSmallNames_empty (h : v.entries = []) : v.HasSmallNames := by
  rw [HasSmallNames, h]
  exact List.forall_mem_nil _

theorem HasSmallNames.put (h : root.HasSmallNames) (name : String) (v : Value) :
    (table (put (Text.lowercase name) v root.entries)).HasSmallNames := by
  intro e he
  rcases mem_put he with rfl | he
  · exact Text.isSmall_lowercase name
  · exact h e he

theorem HasSmallNames.lay (h : root.HasSmallNames) (name : String) (v : Value) :
    (root.lay name v).HasSmallNames := by
  cases v with
  | table incoming => exact h.put name _
  | _ => exact h.put name _

theorem HasSmallNames.layAll (h : target.HasSmallNames) (layer : List (String × Value)) :
    (target.layAll layer).HasSmallNames := by
  induction layer generalizing target with
  | nil => exact h
  | cons e layer ih => exact ih (h.lay e.1 e.2)

theorem HasSmallNames.layAlong (h : root.HasSmallNames) {steps : List Step} (hsteps : steps ≠ [])
    (v : Value) : (root.layAlong steps v).HasSmallNames := by
  match steps with
  | [] => exact absurd rfl hsteps
  | [.name s] => exact h.lay s v
  | .name s :: step :: rest => exact h.put s _
  | .place i :: rest => exact List.forall_mem_nil _

/-- What the value holds has names without capital letters from A to Z. -/
def HoldsSmallNames (v : Value) : Prop := ∀ e ∈ v.entries, e.2.HasSmallNames

theorem HoldsSmallNames.put (h : root.HoldsSmallNames) (name : String) (hv : v.HasSmallNames) :
    (table (put name v root.entries)).HoldsSmallNames := by
  intro e he
  rcases mem_put he with rfl | he
  · exact hv
  · exact h e he

/-- What a name of the value has. -/
theorem HoldsSmallNames.valueAt? (h : root.HoldsSmallNames) (name : String)
    (hv : v.HasSmallNames) : ((valueAt? name root.entries).getD v).HasSmallNames := by
  rw [Value.valueAt?]
  cases hfind : root.entries.find? (·.1 == name) with
  | none => exact hv
  | some e => exact h e (List.mem_of_find?_eq_some hfind)

theorem HoldsSmallNames.lay (h : root.HoldsSmallNames) (name : String) (v : Value) :
    (root.lay name v).HoldsSmallNames := by
  cases v with
  | table incoming => exact h.put _ ((h.valueAt? _ (hasSmallNames_empty rfl)).layAll incoming)
  | _ => exact h.put _ (hasSmallNames_empty rfl)

theorem HoldsSmallNames.layAlong (h : root.HoldsSmallNames) {steps : List Step}
    (hsteps : steps ≠ []) (v : Value) : (root.layAlong steps v).HoldsSmallNames := by
  match steps with
  | [] => exact absurd rfl hsteps
  | [.name s] => exact h.lay s v
  | .name s :: step :: rest =>
    exact h.put _ ((h.valueAt? _ (hasSmallNames_empty rfl)).layAlong (List.cons_ne_nil _ _) v)
  | .place i :: rest => exact List.forall_mem_nil _

end Value

theorem path_ne_nil (key : String) : path key ≠ [] := by
  unfold path
  dsimp only
  split <;> exact List.cons_ne_nil _ _

theorem Value.HoldsSmallNames.overlay {root : Value} (h : root.HoldsSmallNames) (layer : Layer) :
    (root.overlay layer).HoldsSmallNames := by
  induction layer generalizing root with
  | nil => exact h
  | cons e layer ih => exact ih (h.layAlong (path_ne_nil e.1) e.2)

/-- Names that are read off entries are names of the entries. -/
theorem small_of_foldlM_insert {α : Type} {read : Value → Option α}
    {entries : List (String × Value)} {d d' : Dict String α}
    (hentries : ∀ e ∈ entries, Text.IsSmall e.1)
    (hd : ∀ name a, d.get? name = some a → Text.IsSmall name)
    (h : entries.foldlM (fun d (k, v) => do return d.insert k (← read v)) d = some d') :
    ∀ name a, d'.get? name = some a → Text.IsSmall name := by
  induction entries generalizing d with
  | nil =>
    cases h
    exact hd
  | cons e entries ih =>
    obtain ⟨he, hentries⟩ := List.forall_mem_cons.1 hentries
    rw [List.foldlM_cons] at h
    obtain ⟨_, hinsert, hrest⟩ := Option.bind_eq_some_iff.1 h
    obtain ⟨b, -, ⟨⟩⟩ := Option.bind_eq_some_iff.1 hinsert
    refine ih hentries (fun name a hget => ?_) hrest
    rw [Dict.get?_insert] at hget
    split at hget
    next hname => rwa [Std.LawfulEqOrd.eq_of_compare hname]
    next => exact hd name a hget

theorem Value.HasSmallNames.table? {α : Type} {read : Value → Option α} {v : Value}
    (hv : v.HasSmallNames) {d : Dict String α} (h : v.table? read = some d) {name : String} {a : α}
    (hget : d.get? name = some a) : Text.IsSmall name := by
  cases v with
  | table entries => exact small_of_foldlM_insert hv (by simp) h name a hget
  | _ => cases h

/-- A parameter is what some entry says, or what it was. -/
theorem get_foldlM_takeOver {V : Type} {r : Reader V} {entries : List (String × V)}
    {s t : Settings} {p : Parameter} (hp : p ∈ parameters)
    (h : entries.foldlM (fun s e => takeOver r e s) s = some t) :
    p.get t = p.get s ∨ ∃ v, (p.key, v) ∈ entries ∧ r p.kind v = some (p.get t) := by
  induction entries generalizing s with
  | nil =>
    cases h
    exact .inl rfl
  | cons e entries ih =>
    obtain ⟨k, v⟩ := e
    rw [List.foldlM_cons] at h
    obtain ⟨s₁, htake, hrest⟩ := Option.bind_eq_some_iff.1 h
    rcases ih hrest with hkept | ⟨v', hmem, hread⟩
    · rw [hkept]
      by_cases hknown : ∃ q ∈ parameters, q.key = k
      · obtain ⟨q, hq, rfl⟩ := hknown
        rw [takeOver_of_mem hq] at htake
        obtain ⟨x, hread, rfl⟩ := Option.map_eq_some_iff.1 htake
        by_cases hkey : p.key = q.key
        · obtain rfl := eq_of_key_eq hp hq hkey
          rw [get_set hp]
          exact .inr ⟨v, List.mem_cons_self, hread⟩
        · exact .inl (get_set_of_ne hq hp hkey x s)
      · have hunknown : ∀ q ∈ parameters, q.key ≠ k := by simpa using hknown
        rw [takeOver_of_unknown hunknown] at htake
        cases htake
        exact .inl rfl
    · exact .inr ⟨v', List.mem_cons_of_mem _ hmem, hread⟩

/-- The names of the overrides are those of a table among the entries. -/
theorem small_of_ofEntries? {v : Value} (hv : v.HoldsSmallNames) {s : Settings}
    (h : ofEntries? valueReader v.entries = some s) {name : String} {b : Bool}
    (hget : s.features.get? name = some b) : Text.IsSmall name := by
  have hfeatures : (⟨"features", .truths, features, fun v s => { s with features := v }, ∅⟩ :
      Parameter) ∈ parameters := by simp [parameters]
  rw [ofEntries?, clear_eq] at h
  rcases get_foldlM_takeOver hfeatures h with hnone | ⟨table, hmem, hread⟩
  · change s.features = ∅ at hnone
    rw [hnone] at hget
    cases hget
  · exact (hv _ hmem).table? hread hget

/-- Settings that are loaded have no capital letters from A to Z in the names of features. -/
theorem load_small {d : Directory} {e : Environment} {s : Settings} (h : load d e = .ok s)
    {name : String} {b : Bool} (hget : s.features.get? name = some b) : Text.IsSmall name := by
  have hempty : (Value.table []).HoldsSmallNames := List.forall_mem_nil _
  unfold load at h
  cases hfile : fileLayer d (d.environment e) with
  | error f =>
    simp only [hfile] at h
    cases h
  | ok file =>
    simp only [hfile, bind, Except.bind] at h
    split at h
    next s' hentries =>
      cases h
      exact small_of_ofEntries? ((hempty.overlay file).overlay _) hentries hget
    next => cases h

/-- No feature of settings that are loaded has two spellings, as the layers make the names of values
small. This complements `plan_ofOverrides_eq_iff`: the order in which overrides are visited makes no
difference to settings that come from a file and the environment, but only to those that a caller
builds. -/
theorem load_unanimous {d : Directory} {e : Environment} {s : Settings} (h : load d e = .ok s) :
    FeatureSet.Unanimous s.features := by
  intro f name name' b b' hget hget' hname hname'
  obtain rfl := hname.eq_of_isSmall hname' (load_small h hget) (load_small h hget')
  exact Option.some.inj (hget.symm.trans hget')

end Settings

end Reachability
