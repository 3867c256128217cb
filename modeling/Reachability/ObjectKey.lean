namespace Reachability

/-- An object's namespace, empty for a cluster-wide object, and its name. -/
structure ObjectKey where
  space : String
  name : String
deriving DecidableEq, Repr, Inhabited

namespace ObjectKey

/-- By namespace, then by name. -/
instance : Ord ObjectKey := ⟨compareLex (compareOn space) (compareOn name)⟩

instance : Std.TransOrd ObjectKey :=
  inferInstanceAs (Std.TransCmp (compareLex (compareOn space) (compareOn name)))

instance : Std.LawfulEqOrd ObjectKey where
  eq_of_compare {a b} h := by
    obtain ⟨hs, hn⟩ := compareLex_eq_eq.1 h
    cases a
    cases b
    simp only [compareOn] at hs hn
    rw [Std.LawfulEqCmp.eq_of_compare hs, Std.LawfulEqCmp.eq_of_compare hn]

def toString (k : ObjectKey) : String := k.space ++ "/" ++ k.name

instance : ToString ObjectKey := ⟨toString⟩

end ObjectKey

end Reachability
