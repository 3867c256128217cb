import Mathlib.Data.List.Nodup
import Mathlib.Tactic.FinCases
import Reachability.Settings.Field

namespace Reachability.Settings

theorem nodup_keys : (parameters.map Parameter.key).Nodup := by decide +kernel

section

variable {p q : Parameter}

theorem eq_of_key_eq (hp : p ∈ parameters) (hq : q ∈ parameters) (h : p.key = q.key) : p = q :=
  List.inj_on_of_nodup_map nodup_keys hp hq h

theorem get_set (hp : p ∈ parameters) (x : p.kind.Carrier) (s : Settings) :
    p.get (p.set x s) = x := by
  unfold parameters at hp
  fin_cases hp <;> rfl

theorem get_set_of_ne (hp : p ∈ parameters) (hq : q ∈ parameters) (h : q.key ≠ p.key)
    (x : p.kind.Carrier) (s : Settings) : q.get (p.set x s) = q.get s := by
  unfold parameters at hp hq
  fin_cases hp <;> fin_cases hq <;> first | rfl | exact absurd rfl h

end

/-- Settings are what their parameters are. -/
theorem ext_get {s t : Settings} (h : ∀ p ∈ parameters, p.get s = p.get t) : s = t := by
  cases s
  cases t
  simpa [parameters] using h

/-- What a parameter is where a document leaves it out is what it is when nothing is set. -/
theorem clear_eq (s : Settings) : clear s = {} := rfl

variable {V : Type} {r : Reader V} {entries : List (String × V)} {k : String} {v : V}
  {s t : Settings} {p : Parameter}

theorem takeOver_of_mem (hp : p ∈ parameters) (v : V) (s : Settings) :
    takeOver r (p.key, v) s = (r p.kind v).map (p.set · s) := by
  have hfind : parameters.find? (·.key == p.key) = some p := by
    cases hq : parameters.find? (·.key == p.key) with
    | none => simpa using List.find?_eq_none.1 hq p hp
    | some q =>
      have hkey : q.key = p.key := by simpa using List.find?_some hq
      rw [eq_of_key_eq (List.mem_of_find?_eq_some hq) hp hkey]
  simp [takeOver, hfind, Parameter.assign?]

theorem takeOver_of_unknown (h : ∀ p ∈ parameters, p.key ≠ k) (v : V) (s : Settings) :
    takeOver r (k, v) s = some s := by
  have hfind : parameters.find? (·.key == k) = none := by simpa using h
  simp [takeOver, hfind]

/-- A parameter is in `t` what the entries say, and what it is in `s` if they say nothing. -/
structure Parameter.Taken (r : Reader V) (entries : List (String × V)) (s t : Settings)
    (p : Parameter) : Prop where
  present : ∀ v, (p.key, v) ∈ entries → r p.kind v = some (p.get t)
  absent : p.key ∉ entries.map Prod.fst → p.get t = p.get s

theorem taken_iff_of_not_mem (h : p.key ∉ entries.map Prod.fst) :
    p.Taken r entries s t ↔ p.get t = p.get s := by
  constructor
  · intro htaken
    exact htaken.absent h
  · intro heq
    refine ⟨fun v hv => ?_, fun _ => heq⟩
    exact absurd (List.mem_map_of_mem hv) h

theorem taken_cons_self (h : p.key ∉ entries.map Prod.fst) :
    p.Taken r ((p.key, v) :: entries) s t ↔ r p.kind v = some (p.get t) := by
  constructor
  · intro htaken
    exact htaken.present v List.mem_cons_self
  · intro heq
    refine ⟨fun w hw => ?_, fun habsent => ?_⟩
    · obtain hw | hw := List.mem_cons.1 hw
      · obtain ⟨-, rfl⟩ := Prod.mk.inj hw
        exact heq
      · exact absurd (List.mem_map_of_mem hw) h
    · exact absurd List.mem_cons_self habsent

theorem taken_cons_of_ne (h : p.key ≠ k) :
    p.Taken r ((k, v) :: entries) s t ↔ p.Taken r entries s t := by
  have hmem : ∀ w, (p.key, w) ∈ (k, v) :: entries ↔ (p.key, w) ∈ entries := by simp [h]
  have hkeys : p.key ∉ ((k, v) :: entries).map Prod.fst ↔ p.key ∉ entries.map Prod.fst := by
    simp [h]
  constructor
  · intro htaken
    exact ⟨fun w hw => htaken.present w ((hmem w).2 hw), fun hw => htaken.absent (hkeys.2 hw)⟩
  · intro htaken
    exact ⟨fun w hw => htaken.present w ((hmem w).1 hw), fun hw => htaken.absent (hkeys.1 hw)⟩

/-- The value that stands for a parameter leaves the others to the entries that follow. -/
theorem taken_cons_iff (h : p.key ∉ entries.map Prod.fst) (hp : p ∈ parameters) :
    (∃ x, r p.kind v = some x ∧ ∀ q ∈ parameters, q.Taken r entries (p.set x s) t) ↔
      ∀ q ∈ parameters, q.Taken r ((p.key, v) :: entries) s t := by
  have hothers : ∀ x, ∀ q ∈ parameters, q.key ≠ p.key →
      (q.Taken r entries (p.set x s) t ↔ q.Taken r ((p.key, v) :: entries) s t) := by
    intro x q hq hne
    have hsame := get_set_of_ne hp hq hne x s
    rw [taken_cons_of_ne hne]
    constructor
    · intro htaken
      exact ⟨htaken.present, fun habsent => (htaken.absent habsent).trans hsame⟩
    · intro htaken
      exact ⟨htaken.present, fun habsent => (htaken.absent habsent).trans hsame.symm⟩
  constructor
  · rintro ⟨x, hread, hrest⟩ q hq
    by_cases hkey : q.key = p.key
    · obtain rfl := eq_of_key_eq hq hp hkey
      have hx := (hrest q hq).absent h
      rw [get_set hq] at hx
      rw [taken_cons_self h, hread, hx]
    · exact (hothers x q hq hkey).1 (hrest q hq)
  · intro hall
    refine ⟨p.get t, (taken_cons_self h).1 (hall p hp), fun q hq => ?_⟩
    by_cases hkey : q.key = p.key
    · obtain rfl := eq_of_key_eq hq hp hkey
      rw [taken_iff_of_not_mem h, get_set hq]
    · exact (hothers _ q hq hkey).2 (hall q hq)

/-- Entries of different names set what they name, whatever their order. -/
theorem foldlM_takeOver (h : (entries.map Prod.fst).Nodup) :
    entries.foldlM (fun s e => takeOver r e s) s = some t ↔
      ∀ p ∈ parameters, p.Taken r entries s t := by
  induction entries generalizing s with
  | nil =>
    have hnone : ∀ p ∈ parameters, p.Taken r [] s t ↔ p.get t = p.get s :=
      fun p _ => taken_iff_of_not_mem (by simp)
    rw [forall₂_congr hnone, List.foldlM_nil]
    constructor
    · intro heq p _
      rw [Option.some.inj heq]
    · intro heq
      exact congrArg some (ext_get heq).symm
  | cons e entries ih =>
    obtain ⟨k, v⟩ := e
    obtain ⟨hk, hentries⟩ := List.nodup_cons.1 h
    rw [List.foldlM_cons]
    by_cases hknown : ∃ p ∈ parameters, p.key = k
    · obtain ⟨p, hp, rfl⟩ := hknown
      rw [← taken_cons_iff hk hp, takeOver_of_mem hp]
      simp only [← ih hentries]
      cases r p.kind v <;> simp
    · have hunknown : ∀ p ∈ parameters, p.key ≠ k := by simpa using hknown
      rw [takeOver_of_unknown hunknown]
      rw [forall₂_congr fun p hp => taken_cons_of_ne (hunknown p hp), ← ih hentries]
      simp

theorem ofEntries?_eq_some_iff (h : (entries.map Prod.fst).Nodup) :
    ofEntries? r entries = some t ↔ ∀ p ∈ parameters, p.Taken r entries {} t := by
  rw [ofEntries?, clear_eq]
  exact foldlM_takeOver h

theorem isSome_takeOver : (takeOver r (k, v) s).isSome = true ↔
    ∀ p ∈ parameters, p.key = k → (r p.kind v).isSome = true := by
  by_cases hknown : ∃ p ∈ parameters, p.key = k
  · obtain ⟨p, hp, rfl⟩ := hknown
    rw [takeOver_of_mem hp, Option.isSome_map]
    constructor
    · intro hread q hq hkey
      rwa [eq_of_key_eq hq hp hkey]
    · intro hall
      exact hall p hp rfl
  · have hunknown : ∀ p ∈ parameters, p.key ≠ k := by simpa using hknown
    rw [takeOver_of_unknown hunknown]
    simp only [Option.isSome_some, true_iff]
    intro p hp hkey
    exact absurd hkey (hunknown p hp)

/-- Entries are refused just if one of them has the wrong form for the setting that it names. -/
theorem isSome_ofEntries? : (ofEntries? r entries).isSome = true ↔
    ∀ p ∈ parameters, ∀ v, (p.key, v) ∈ entries → (r p.kind v).isSome = true := by
  have hfold : ∀ s, (entries.foldlM (fun s e => takeOver r e s) s).isSome = true ↔
      ∀ p ∈ parameters, ∀ v, (p.key, v) ∈ entries → (r p.kind v).isSome = true := by
    induction entries with
    | nil => simp
    | cons e entries ih =>
      obtain ⟨k, v⟩ := e
      intro s
      have hsplit : (∀ p ∈ parameters, ∀ w, (p.key, w) ∈ (k, v) :: entries →
          (r p.kind w).isSome = true) ↔ (takeOver r (k, v) s).isSome = true ∧
            ∀ p ∈ parameters, ∀ w, (p.key, w) ∈ entries → (r p.kind w).isSome = true := by
        rw [isSome_takeOver, ← forall₂_and]
        refine forall₂_congr fun p _ => ?_
        simp [or_imp, forall_and, and_imp]
      rw [hsplit, List.foldlM_cons]
      cases htake : takeOver r (k, v) s with
      | none => simp
      | some s' => simpa using ih s'
  exact hfold _

end Reachability.Settings
