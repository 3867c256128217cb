namespace Reachability

/-- A finite map whose entries stand in strictly ascending order of their keys: the order in which
every report lists them. -/
structure Dict (κ : Type u) (α : Type v) [Ord κ] where
  entries : List (κ × α)
  sorted : entries.Pairwise fun a b => compare a.1 b.1 = .lt

namespace Dict

variable {κ : Type u} {α : Type v} {β : Type w} [Ord κ]

def empty : Dict κ α := ⟨[], .nil⟩

instance : EmptyCollection (Dict κ α) := ⟨empty⟩
instance : Inhabited (Dict κ α) := ⟨empty⟩

@[ext] theorem ext {a b : Dict κ α} (h : a.entries = b.entries) : a = b := by
  cases a; cases b; cases h; rfl

instance [DecidableEq κ] [DecidableEq α] : DecidableEq (Dict κ α) := fun a b =>
  if h : a.entries = b.entries then .isTrue (ext h) else .isFalse fun e => h (e ▸ rfl)

/-- The value of the first entry with this key. -/
def lookup (k : κ) : List (κ × α) → Option α
  | [] => none
  | (k', v) :: rest => if compare k k' = .eq then some v else lookup k rest

/-- Puts an entry at its place in the order, in place of one with the same key. -/
def insertSorted (k : κ) (v : α) : List (κ × α) → List (κ × α)
  | [] => [(k, v)]
  | (k', v') :: rest =>
    match compare k k' with
    | .lt => (k, v) :: (k', v') :: rest
    | .eq => (k, v) :: rest
    | .gt => (k', v') :: insertSorted k v rest

theorem mem_insertSorted {k : κ} {v : α} {l : List (κ × α)} {e : κ × α}
    (h : e ∈ insertSorted k v l) : e = (k, v) ∨ e ∈ l := by
  induction l with
  | nil => simpa [insertSorted] using h
  | cons head rest ih =>
    simp only [insertSorted] at h
    split at h
    · simpa using h
    · rcases List.mem_cons.1 h with h | h
      · exact .inl h
      · exact .inr (List.mem_cons_of_mem _ h)
    · rcases List.mem_cons.1 h with h | h
      · exact .inr (h ▸ List.mem_cons_self)
      · exact (ih h).imp_right (List.mem_cons_of_mem _)

theorem insertSorted_pairwise [Std.TransOrd κ] {k : κ} {v : α} {l : List (κ × α)}
    (h : l.Pairwise fun a b => compare a.1 b.1 = .lt) :
    (insertSorted k v l).Pairwise fun a b => compare a.1 b.1 = .lt := by
  induction l with
  | nil => simp [insertSorted]
  | cons head rest ih =>
    obtain ⟨hhead, hrest⟩ := List.pairwise_cons.1 h
    simp only [insertSorted]
    split
    next hlt =>
      refine List.pairwise_cons.2 ⟨fun e he => ?_, h⟩
      rcases List.mem_cons.1 he with rfl | he
      · exact hlt
      · exact Std.TransCmp.lt_trans hlt (hhead e he)
    next heq =>
      exact List.pairwise_cons.2 ⟨fun e he => Std.TransCmp.lt_of_eq_of_lt heq (hhead e he), hrest⟩
    next hgt =>
      refine List.pairwise_cons.2 ⟨fun e he => ?_, ih hrest⟩
      rcases mem_insertSorted he with rfl | he
      · exact Std.OrientedCmp.gt_iff_lt.1 hgt
      · exact hhead e he

def get? (d : Dict κ α) (k : κ) : Option α := lookup k d.entries

def contains (d : Dict κ α) (k : κ) : Bool := (d.get? k).isSome

def insert [Std.TransOrd κ] (d : Dict κ α) (k : κ) (v : α) : Dict κ α :=
  ⟨insertSorted k v d.entries, insertSorted_pairwise d.sorted⟩

def erase (d : Dict κ α) (k : κ) : Dict κ α :=
  ⟨d.entries.filter fun e => compare k e.1 != .eq, d.sorted.filter _⟩

/-- Keeps the entries that satisfy `p`. -/
def filter (d : Dict κ α) (p : κ → α → Bool) : Dict κ α :=
  ⟨d.entries.filter fun e => p e.1 e.2, d.sorted.filter _⟩

/-- Inserts the entries in turn, so that of two with one key the later stays. -/
def insertAll [Std.TransOrd κ] (d : Dict κ α) (l : List (κ × α)) : Dict κ α :=
  l.foldl (fun d e => d.insert e.1 e.2) d

def ofList [Std.TransOrd κ] (l : List (κ × α)) : Dict κ α := insertAll ∅ l

def keys (d : Dict κ α) : List κ := d.entries.map (·.1)
def values (d : Dict κ α) : List α := d.entries.map (·.2)
def size (d : Dict κ α) : Nat := d.entries.length
def isEmpty (d : Dict κ α) : Bool := d.entries.isEmpty

def map (d : Dict κ α) (f : α → β) : Dict κ β :=
  ⟨d.entries.map fun e => (e.1, f e.2), by
    simpa [List.pairwise_map] using d.sorted⟩

theorem lookup_insertSorted [Std.TransOrd κ] {k q : κ} {v : α} {l : List (κ × α)} :
    lookup q (insertSorted k v l) = if compare q k = .eq then some v else lookup q l := by
  induction l with
  | nil => simp [insertSorted, lookup]
  | cons head rest ih =>
    simp only [insertSorted]
    split
    · simp [lookup]
    next heq =>
      have hiff : compare q head.1 = .eq ↔ compare q k = .eq :=
        ⟨fun h => Std.TransCmp.eq_trans h (Std.OrientedCmp.eq_symm heq),
          fun h => Std.TransCmp.eq_trans h heq⟩
      by_cases h : compare q k = .eq <;> simp [lookup, h, hiff]
    next hgt =>
      by_cases hq : compare q head.1 = .eq
      · have hne : compare q k ≠ .eq := fun h => by
          have := Std.TransCmp.eq_trans (Std.OrientedCmp.eq_symm h) hq
          rw [hgt] at this
          cases this
        simp [lookup, hq, hne]
      · simp [lookup, hq, ih]

theorem get?_insert [Std.TransOrd κ] (d : Dict κ α) (k q : κ) (v : α) :
    (d.insert k v).get? q = if compare q k = .eq then some v else d.get? q :=
  lookup_insertSorted

@[simp] theorem get?_insert_self [Std.TransOrd κ] (d : Dict κ α) (k : κ) (v : α) :
    (d.insert k v).get? k = some v := by
  simp [get?_insert]

@[simp] theorem get?_empty (k : κ) : (∅ : Dict κ α).get? k = none := rfl

theorem lookup_filter [Std.TransOrd κ] {q : κ} {p : κ → Bool} {l : List (κ × α)}
    (hp : ∀ a b, compare a b = .eq → p a = p b) :
    lookup q (l.filter fun e => p e.1) = if p q then lookup q l else none := by
  induction l with
  | nil => simp [lookup]
  | cons head rest ih =>
    by_cases hq : compare q head.1 = .eq
    · have hpq := hp q head.1 hq
      by_cases h : p head.1 <;> simp [lookup, hq, hpq, h, ih]
    · by_cases h : p head.1 <;> simp [lookup, hq, h, ih]

theorem get?_erase [Std.TransOrd κ] (d : Dict κ α) (k q : κ) :
    (d.erase k).get? q = if compare k q = .eq then none else d.get? q := by
  have h := lookup_filter (q := q) (l := d.entries) (p := fun x => compare k x != .eq)
    fun a b hab => by rw [Std.TransCmp.congr_right hab]
  simp only [get?, erase, h]
  by_cases hk : compare k q = .eq <;> simp [hk]

theorem lookup_eq_some_of_mem [Std.TransOrd κ] {l : List (κ × α)} {e : κ × α}
    (hl : l.Pairwise fun a b => compare a.1 b.1 = .lt) (he : e ∈ l) :
    lookup e.1 l = some e.2 := by
  induction l with
  | nil => cases he
  | cons head rest ih =>
    obtain ⟨hhead, hrest⟩ := List.pairwise_cons.1 hl
    rcases List.mem_cons.1 he with rfl | he
    · simp [lookup]
    · have hlt := Std.OrientedCmp.gt_iff_lt.2 (hhead e he)
      simp [lookup, hlt, ih hrest he]

theorem mem_of_lookup_eq_some [Std.LawfulEqOrd κ] {l : List (κ × α)} {k : κ} {v : α}
    (h : lookup k l = some v) : (k, v) ∈ l := by
  induction l with
  | nil => cases h
  | cons head rest ih =>
    simp only [lookup] at h
    split at h
    next heq =>
      cases h
      rw [Std.LawfulEqCmp.eq_of_compare heq]
      exact List.mem_cons_self
    · exact List.mem_cons_of_mem _ (ih h)

theorem mem_entries_iff [Std.TransOrd κ] [Std.LawfulEqOrd κ] {d : Dict κ α} {k : κ} {v : α} :
    (k, v) ∈ d.entries ↔ d.get? k = some v :=
  ⟨fun h => lookup_eq_some_of_mem d.sorted h, mem_of_lookup_eq_some⟩

/-- Two maps that answer every lookup alike are equal. -/
theorem ext_get? [Std.TransOrd κ] [Std.LawfulEqOrd κ] {a b : Dict κ α}
    (h : ∀ k, a.get? k = b.get? k) : a = b := by
  have hmem : ∀ e, e ∈ a.entries ↔ e ∈ b.entries := fun e => by
    rw [mem_entries_iff (d := a), mem_entries_iff (d := b), h]
  have irrefl : ∀ e : κ × α, compare e.1 e.1 ≠ .lt := fun e => by simp
  have key : ∀ l m : List (κ × α), (∀ e, e ∈ l ↔ e ∈ m) →
      (l.Pairwise fun a b => compare a.1 b.1 = .lt) →
      (m.Pairwise fun a b => compare a.1 b.1 = .lt) → l = m := by
    intro l
    induction l with
    | nil =>
      intro m hm _ _
      cases m with
      | nil => rfl
      | cons x m => exact absurd ((hm x).2 List.mem_cons_self) (by simp)
    | cons x l ih =>
      intro m hm hl hm'
      cases m with
      | nil => exact absurd ((hm x).1 List.mem_cons_self) (by simp)
      | cons y m =>
        obtain ⟨hx, hl⟩ := List.pairwise_cons.1 hl
        obtain ⟨hy, hmrest⟩ := List.pairwise_cons.1 hm'
        have hxy : x = y := by
          rcases List.mem_cons.1 ((hm x).1 List.mem_cons_self) with hxy | hxm
          · exact hxy
          · rcases List.mem_cons.1 ((hm y).2 List.mem_cons_self) with hyx | hyl
            · exact hyx.symm
            · exact absurd (Std.TransCmp.lt_trans (hx y hyl) (hy x hxm)) (irrefl x)
        subst hxy
        have hrest : ∀ e, e ∈ l ↔ e ∈ m := fun e => by
          constructor
          · intro he
            rcases List.mem_cons.1 ((hm e).1 (List.mem_cons_of_mem _ he)) with rfl | he'
            · exact absurd (hx e he) (irrefl e)
            · exact he'
          · intro he
            rcases List.mem_cons.1 ((hm e).2 (List.mem_cons_of_mem _ he)) with rfl | he'
            · exact absurd (hy e he) (irrefl e)
            · exact he'
        rw [ih m hrest hl hmrest]
  exact ext (key _ _ hmem a.sorted b.sorted)

end Dict

/-- Labels, annotations and node selectors: texts by name. -/
abbrev Labels := Dict String String

end Reachability
