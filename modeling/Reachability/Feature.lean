import Reachability.Dict
import Reachability.Text.Lowercase

namespace Reachability

/-- A capability of a cluster that changes which workloads are provisioned. -/
inductive Feature where
  | hostPort
  | ingressController
  | nodeWithoutCilium
deriving DecidableEq, Repr

/-- A name that no feature has. -/
structure UnknownFeature where
  name : String
deriving DecidableEq, Repr

def UnknownFeature.message (_ : UnknownFeature) : String := "Matching variant not found"

namespace Feature

def all : List Feature := [hostPort, ingressController, nodeWithoutCilium]

theorem mem_all (f : Feature) : f ∈ all := by cases f <;> decide

def name : Feature → String
  | hostPort => "HostPort"
  | ingressController => "IngressController"
  | nodeWithoutCilium => "NodeWithoutCilium"

/-- The feature of this exact name. -/
def ofExactName? (s : String) : Option Feature := all.find? (·.name == s)

/-- The feature of this name, in any case of its letters. -/
def parse (s : String) : Except UnknownFeature Feature :=
  match all.find? fun f => Text.equalIgnoringAsciiCase f.name s with
  | some f => .ok f
  | none => .error ⟨s⟩

end Feature

/-- An order in which the entries of a map can be visited. The map does not say which: each run may
visit them in another one. -/
structure VisitingOrder (overrides : Dict String Bool) where
  entries : List (String × Bool)
  perm : entries.Perm overrides.entries

/-- The order of the names, which is as good as any other. -/
def VisitingOrder.byName (overrides : Dict String Bool) : VisitingOrder overrides :=
  ⟨overrides.entries, .refl _⟩

/-- What is known about each feature: nothing, or whether it is enabled. -/
structure FeatureSet where
  reported : Feature → Option Bool

namespace FeatureSet

def empty : FeatureSet := ⟨fun _ => none⟩

instance : EmptyCollection FeatureSet := ⟨empty⟩
instance : Inhabited FeatureSet := ⟨empty⟩

@[ext] theorem ext {a b : FeatureSet} (h : ∀ f, a.reported f = b.reported f) : a = b := by
  cases a; cases b; congr; exact funext h

/-- Reports a feature, in place of an earlier report. -/
def report (s : FeatureSet) (f : Feature) (enabled : Bool) : FeatureSet :=
  ⟨fun g => if g = f then some enabled else s.reported g⟩

/-- A feature that was never reported is disabled. -/
def enabled (s : FeatureSet) (f : Feature) : Bool := (s.reported f).getD false

/-- Reports the named features in turn; names that no feature has are passed over. -/
def ofNamed (named : List (String × Bool)) : FeatureSet :=
  named.foldl
    (fun s (name, enabled) =>
      match Feature.parse name with
      | .ok f => s.report f enabled
      | .error _ => s)
    ∅

/-- The features that a map of overrides reports when it is visited in this order. -/
def ofOverrides {overrides : Dict String Bool} (order : VisitingOrder overrides) : FeatureSet :=
  ofNamed order.entries

end FeatureSet

end Reachability
