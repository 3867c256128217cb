import Reachability.Dict

namespace Reachability.Dict

variable {κ : Type u} {α : Type v} [Ord κ]

/-- A key before all others is looked up in vain. -/
theorem lookup_eq_none {k : κ} {l : List (κ × α)} (h : ∀ e ∈ l, compare k e.1 = .lt) :
    lookup k l = none := by
  induction l with
  | nil => rfl
  | cons e l ih =>
    have hrest := ih fun e' he' => h e' (List.mem_cons_of_mem _ he')
    simp [lookup, h e List.mem_cons_self, hrest]

/-- Of two maps, the one that is inserted into the other goes before it. -/
theorem get?_insertAll_entries [Std.TransOrd κ] (d e : Dict κ α) (q : κ) :
    (d.insertAll e.entries).get? q = (e.get? q).or (d.get? q) := by
  have key (l : List (κ × α)) (hl : l.Pairwise fun a b => compare a.1 b.1 = .lt) :
      ∀ d : Dict κ α, (d.insertAll l).get? q = (lookup q l).or (d.get? q) := by
    induction l with
    | nil => exact fun d => rfl
    | cons head l ih =>
      intro d
      obtain ⟨hhead, hl⟩ := List.pairwise_cons.1 hl
      have hinsert : (d.insertAll (head :: l)).get? q =
          (lookup q l).or ((d.insert head.1 head.2).get? q) := ih hl _
      rw [hinsert, get?_insert]
      by_cases hq : compare q head.1 = .eq
      · have hnone : lookup q l = none :=
          lookup_eq_none fun e he => Std.TransCmp.lt_of_eq_of_lt hq (hhead e he)
        simp [lookup, hq, hnone]
      · simp [lookup, hq]
  exact key e.entries e.sorted d

/-- One map is part of another if its look-ups are answered there alike. -/
theorem entries_subset_iff [Std.TransOrd κ] [Std.LawfulEqOrd κ] {a b : Dict κ α} :
    a.entries ⊆ b.entries ↔ ∀ k v, a.get? k = some v → b.get? k = some v := by
  constructor
  · intro h k v ha
    exact mem_entries_iff.1 (h (mem_entries_iff.2 ha))
  · rintro h ⟨k, v⟩ he
    exact mem_entries_iff.2 (h k v (mem_entries_iff.1 he))

theorem mem_values_iff [Std.TransOrd κ] [Std.LawfulEqOrd κ] {d : Dict κ α} {v : α} :
    v ∈ d.values ↔ ∃ k, d.get? k = some v := by
  simp [values, ← mem_entries_iff]

theorem mem_keys_iff [Std.TransOrd κ] [Std.LawfulEqOrd κ] {d : Dict κ α} {k : κ} :
    k ∈ d.keys ↔ d.contains k = true := by
  simp [keys, contains, Option.isSome_iff_exists, ← mem_entries_iff]

theorem contains_insert [Std.TransOrd κ] [Std.LawfulEqOrd κ] {d : Dict κ α} {k q : κ} {v : α} :
    (d.insert k v).contains q = true ↔ q = k ∨ d.contains q = true := by
  rw [contains, get?_insert]
  by_cases h : compare q k = .eq
  · simp [Std.LawfulEqCmp.eq_of_compare h]
  · have hne : q ≠ k := by
      rintro rfl
      exact h Std.ReflCmp.compare_self
    simp [h, hne, contains]

/-- Under two keys, it does not matter which value is inserted first. -/
theorem insert_comm [Std.TransOrd κ] [Std.LawfulEqOrd κ] {d : Dict κ α} {k q : κ} (h : k ≠ q)
    (v u : α) : (d.insert k v).insert q u = (d.insert q u).insert k v := by
  refine ext_get? fun p => ?_
  simp only [get?_insert]
  by_cases hq : compare p q = .eq
  · have hk : compare p k ≠ .eq := fun heq => h <|
      (Std.LawfulEqCmp.eq_of_compare heq).symm.trans (Std.LawfulEqCmp.eq_of_compare hq)
    rw [if_pos hq, if_neg hk, if_pos hq]
  · rw [if_neg hq, if_neg hq]

/-- A map is put together from its own entries. -/
theorem ofList_entries [Std.TransOrd κ] [Std.LawfulEqOrd κ] (d : Dict κ α) :
    ofList d.entries = d := by
  refine ext_get? fun k => ?_
  rw [ofList, get?_insertAll_entries, get?_empty, Option.or_none]

theorem size_insert_le [Std.TransOrd κ] (d : Dict κ α) (k : κ) (v : α) :
    (d.insert k v).size ≤ d.size + 1 := by
  have key (l : List (κ × α)) : (insertSorted k v l).length ≤ l.length + 1 := by
    induction l with
    | nil => exact Nat.le_refl _
    | cons head l ih =>
      simp only [insertSorted]
      split <;> simp only [List.length_cons] <;> lia
  exact key d.entries

/-- No entry is lost but for one with the same key. -/
theorem size_le_size_insert [Std.TransOrd κ] (d : Dict κ α) (k : κ) (v : α) :
    d.size ≤ (d.insert k v).size := by
  have key (l : List (κ × α)) : l.length ≤ (insertSorted k v l).length := by
    induction l with
    | nil => exact Nat.zero_le _
    | cons head l ih =>
      simp only [insertSorted]
      split <;> simp only [List.length_cons] <;> lia
  exact key d.entries

@[simp] theorem length_values (d : Dict κ α) : d.values.length = d.size :=
  List.length_map _

theorem nodup_keys [Std.ReflOrd κ] (d : Dict κ α) : (d.entries.map Prod.fst).Nodup := by
  rw [List.Nodup, List.pairwise_map]
  refine d.sorted.imp fun {a b} hlt heq => ?_
  simp [heq] at hlt

theorem insertSorted_perm {k : κ} {v : α} {l : List (κ × α)} (h : lookup k l = none) :
    (insertSorted k v l).Perm ((k, v) :: l) := by
  induction l with
  | nil => exact .refl _
  | cons head l ih =>
    simp only [lookup] at h
    simp only [insertSorted]
    split
    next => exact .refl _
    next heq =>
      rw [if_pos heq] at h
      cases h
    next hgt =>
      rw [if_neg (by simp [hgt])] at h
      exact ((ih h).cons head).trans (.swap (k, v) head l)

theorem insertAll_append [Std.TransOrd κ] (d : Dict κ α) (l l' : List (κ × α)) :
    d.insertAll (l ++ l') = (d.insertAll l).insertAll l' :=
  List.foldl_append

theorem mem_of_mem_entries_insertAll [Std.TransOrd κ] {d : Dict κ α} {l : List (κ × α)}
    {e : κ × α} (h : e ∈ (d.insertAll l).entries) : e ∈ l ∨ e ∈ d.entries := by
  induction l generalizing d with
  | nil => exact .inr h
  | cons head l ih =>
    rcases ih h with hl | hd
    · exact .inl (List.mem_cons_of_mem _ hl)
    · rcases mem_insertSorted hd with rfl | hd
      · exact .inl List.mem_cons_self
      · exact .inr hd

section Lawful

variable [Std.TransOrd κ] [Std.LawfulEqOrd κ] {d : Dict κ α} {l : List (κ × α)}

theorem get?_insertAll_of_not_mem {q : κ} (h : q ∉ l.map Prod.fst) :
    (d.insertAll l).get? q = d.get? q := by
  induction l generalizing d with
  | nil => rfl
  | cons e l ih =>
    rw [List.map_cons, List.mem_cons, not_or] at h
    have hinsert : (d.insertAll (e :: l)).get? q = (d.insert e.1 e.2).get? q := ih h.2
    rw [hinsert, get?_insert, if_neg fun heq => h.1 (Std.LawfulEqCmp.eq_of_compare heq)]

/-- Entries with new keys are added to the others. -/
theorem entries_insertAll_perm (hl : (l.map Prod.fst).Nodup)
    (hnew : ∀ e ∈ l, d.get? e.1 = none) : (d.insertAll l).entries.Perm (l ++ d.entries) := by
  induction l generalizing d with
  | nil => exact .refl _
  | cons e l ih =>
    obtain ⟨he, hl⟩ := List.nodup_cons.1 hl
    obtain ⟨hnone, hrest⟩ := List.forall_mem_cons.1 hnew
    have hothers : ∀ e' ∈ l, (d.insert e.1 e.2).get? e'.1 = none := by
      intro e' he'
      rw [get?_insert, if_neg fun heq => he ?_, hrest e' he']
      rw [← Std.LawfulEqCmp.eq_of_compare heq]
      exact List.mem_map_of_mem he'
    calc (d.insertAll (e :: l)).entries.Perm (l ++ (d.insert e.1 e.2).entries) := ih hl hothers
      _ |>.Perm (l ++ e :: d.entries) := (insertSorted_perm hnone).append_left l
      _ |>.Perm (e :: l ++ d.entries) := List.perm_middle

/-- A map that is put together from entries with different keys has just these. -/
theorem entries_ofList_perm (hl : (l.map Prod.fst).Nodup) : (ofList l).entries.Perm l := by
  have hperm := entries_insertAll_perm (d := ∅) hl fun _ _ => rfl
  rwa [show (∅ : Dict κ α).entries = [] from rfl, List.append_nil] at hperm

theorem get?_ofList_of_mem (hl : (l.map Prod.fst).Nodup) {k : κ} {v : α} (h : (k, v) ∈ l) :
    (ofList l).get? k = some v :=
  mem_entries_iff.1 ((entries_ofList_perm hl).mem_iff.2 h)

/-- A map is put together from its own entries in any order. -/
theorem ofList_of_perm {d : Dict κ α} (h : l.Perm d.entries) : ofList l = d := by
  have hkeys : (l.map Prod.fst).Nodup := (h.map Prod.fst).nodup_iff.2 d.nodup_keys
  have hperm := (entries_ofList_perm hkeys).trans h
  refine ext_get? fun k => Option.ext fun v => ?_
  rw [← mem_entries_iff, ← mem_entries_iff, hperm.mem_iff]

theorem get?_ofList_of_not_mem {k : κ} (h : k ∉ l.map Prod.fst) : (ofList l).get? k = none :=
  get?_insertAll_of_not_mem h

/-- The first value with a property is that of the first such key. -/
theorem exists_first_value_iff {P Q : α → Prop} :
    (∃ before a after, d.values = before ++ a :: after ∧ (∀ b ∈ before, P b) ∧ Q a) ↔
      ∃ k a, d.get? k = some a ∧ Q a ∧
        ∀ q b, compare q k = .lt → d.get? q = some b → P b := by
  have hsorted := d.sorted
  constructor
  · rintro ⟨before, a, after, hvalues, hbefore, ha⟩
    obtain ⟨front, back, hentries, rfl, hback⟩ := List.map_eq_append_iff.1 hvalues
    obtain ⟨⟨k, a⟩, back, rfl, rfl, -⟩ := List.map_eq_cons_iff.1 hback
    refine ⟨k, a, mem_entries_iff.1 (by simp [hentries]), ha, fun q b hlt hq => ?_⟩
    have hmem := mem_entries_iff.2 hq
    rw [hentries] at hmem hsorted
    rcases List.mem_append.1 hmem with hfront | hback
    · exact hbefore b (List.mem_map_of_mem hfront)
    · -- the keys from here on are not before this one
      obtain ⟨-, hrest, -⟩ := List.pairwise_append.1 hsorted
      rcases List.mem_cons.1 hback with heq | hback
      · simp [(Prod.mk.inj heq).1] at hlt
      · have hgt := Std.OrientedCmp.gt_iff_lt.2 ((List.pairwise_cons.1 hrest).1 _ hback)
        cases hlt.symm.trans hgt
  · rintro ⟨k, a, hk, ha, hbefore⟩
    obtain ⟨front, back, hentries⟩ := List.append_of_mem (mem_entries_iff.2 hk)
    refine ⟨front.map (·.2), a, back.map (·.2), by simp [values, hentries], fun b hb => ?_, ha⟩
    obtain ⟨⟨q, b⟩, hfront, rfl⟩ := List.mem_map.1 hb
    rw [hentries] at hsorted
    obtain ⟨-, -, hlt⟩ := List.pairwise_append.1 hsorted
    refine hbefore q b (hlt _ hfront _ List.mem_cons_self) (mem_entries_iff.1 ?_)
    rw [hentries]
    exact List.mem_append_left _ hfront

end Lawful

end Reachability.Dict
