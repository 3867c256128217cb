import Reachability.Cluster.Checks
import Reachability.Cluster.Survey
import Reachability.Proofs.Wait.Timeouts

namespace Reachability

open Wait (Probe Procedure defaultPacing endpointPacing)

variable {α β γ : Type} {allowed : Nat → Prop}

/-- The call asked for a deployment, and found one of which the replicas left over cannot be
counted. -/
def FindsUncountable : (c : Call) → Except Failure c.request.Answer → Prop
  | ⟨_, .get .deployment _⟩, .ok d => (d : Manifest.Deployment).readiness = none
  | _, _ => False

/-- The pauses that checks make are among what is allowed. -/
structure AllowsPauses (allowed : Nat → Prop) : Prop where
  default : allowed defaultPacing
  endpoint : allowed endpointPacing

namespace Check

/-- The check gives its parts no other timeouts than those that are allowed, makes no other pauses,
and crashes only right after a deployment that cannot be judged. -/
structure Allots (allowed : Nat → Prop) (c : Check α) : Prop where
  allots : c.run.Allots allowed FindsUncountable

namespace Allots

theorem pure (a : α) : Allots allowed (Pure.pure a) := ⟨trivial⟩

theorem throw (f : Failure) : Allots allowed (MonadExcept.throw f : Check α) := ⟨trivial⟩

theorem bind {c : Check α} {f : α → Check β} (hc : c.Allots allowed)
    (hf : ∀ a, (f a).Allots allowed) : Allots allowed (c >>= f) := by
  refine ⟨Procedure.Allots.bind hc.allots fun r => ?_⟩
  cases r with
  | error e => trivial
  | ok a => exact (hf a).allots

theorem request (what : String) (cluster : Cluster) (r : Request) :
    (Check.request what cluster r).Allots allowed :=
  ⟨⟨fun _ => .inr trivial, fun _ => trivial⟩⟩

theorem poll {pacing : Nat} (hpacing : allowed pacing) (what : String)
    {probe : Probe clusterApi α} (hprobe : probe.Blames FindsUncountable) :
    (Check.poll pacing what probe).Allots allowed :=
  ⟨⟨hpacing, hprobe, fun _ => trivial⟩⟩

theorem within {c : Check α} {timeout : Nat} (htimeout : allowed timeout) (hc : c.Allots allowed) :
    (Check.within timeout c).Allots allowed :=
  ⟨htimeout, hc.allots, fun _ => trivial⟩

theorem choose? (l : List α) : (Check.choose? l).Allots allowed := by
  cases l with
  | nil => exact pure none
  | cons a rest => exact ⟨fun _ => trivial⟩

theorem attempt {c : Check α} (hc : c.Allots allowed) : c.attempt.Allots allowed :=
  ⟨Procedure.Allots.bind hc.allots fun _ => trivial⟩

theorem forM {f : γ → Check Unit} (hf : ∀ a, (f a).Allots allowed) (l : List γ) :
    (l.forM f).Allots allowed := by
  induction l with
  | nil => exact pure ()
  | cons a l ih => exact bind (hf a) fun _ => ih

end Allots

theorem deploymentProbe_blames (cluster : Cluster) (key : ObjectKey) :
    (deploymentProbe cluster key).Blames FindsUncountable := by
  rintro (f | d)
  · exact .inr trivial
  · change Probe.ofJudgement (judgeDeployment (.ok d)) = .crash ∧ _ ∨
      (Probe.ofJudgement (judgeDeployment (.ok d))).Blames _
    cases hjudge : judgeDeployment (.ok d) with
    | none => exact .inl ⟨rfl, Option.map_eq_none_iff.1 hjudge⟩
    | some r => exact .inr trivial

theorem command_blames {pod : Pod} {container : String} {words : List String} :
    (command pod container words).Blames FindsUncountable := fun _ => .inr trivial

theorem vantagePod_allots (i : Inventory) : (vantagePod i).Allots allowed := by
  refine .bind (.choose? _) fun chosen => ?_
  cases chosen with
  | none => exact .throw _
  | some pod => exact .pure pod

section Checks

variable {timeout : Nat} (hpauses : AllowsPauses allowed)
include hpauses

theorem deployments_allots (h : allowed timeout) (cluster : Cluster) (ns : String)
    (names : List String) : (deployments cluster ns names timeout).Allots allowed :=
  .within h <| .forM
    (fun name => .poll hpauses.default _ (deploymentProbe_blames cluster ⟨ns, name⟩)) names

theorem endpoint_allots (h : allowed timeout) (cluster : Cluster) (pod : ObjectKey) :
    (endpoint cluster pod timeout).Allots allowed :=
  .within h (.poll hpauses.endpoint _ fun _ => .inr trivial)

theorem podNames_allots (source target : Pod) : (podNames source target).Allots allowed :=
  .bind (.poll hpauses.default _ command_blames) fun _ => .pure ()

theorem clusterNames_allots (pod : Pod) : (clusterNames pod).Allots allowed :=
  .bind (.poll hpauses.default _ command_blames) fun _ => .pure ()

theorem service_allots (h : allowed timeout) (i : Inventory) (s : Manifest.Service) :
    (service i s timeout).Allots allowed :=
  .bind (vantagePod_allots i) fun _ =>
    .within h (.poll hpauses.default _ fun _ => .inr trivial)

theorem nodePorts_allots (h : allowed timeout) (i : Inventory) (nodeIP : String)
    (s : Manifest.Service) : (nodePorts i nodeIP s timeout).Allots allowed :=
  .bind (vantagePod_allots i) fun _ => .within h <| .forM
    (fun _ => .bind (.poll hpauses.default _ command_blames) fun _ => .pure ()) _

theorem identities_allots (agent : Pod) (container : String) (i : Inventory) :
    (identities agent container i).Allots allowed :=
  .poll hpauses.default _ fun _ => .inr trivial

end Checks

end Check

namespace Survey

/-- The survey gives its parts no other timeouts than those that are allowed and makes no other
pauses, whatever inventory it starts from, and crashes only right after a deployment that cannot be
judged. -/
structure Allots (allowed : Nat → Prop) (s : Survey α) : Prop where
  allots (i : Inventory) : (s.run.run i).Allots allowed FindsUncountable

namespace Allots

theorem pure (a : α) : Allots allowed (Pure.pure a : Survey α) := ⟨fun _ => trivial⟩

theorem throw (f : Failure) : Allots allowed (MonadExcept.throw f : Survey α) := ⟨fun _ => trivial⟩

theorem bind {s : Survey α} {f : α → Survey β} (hs : s.Allots allowed)
    (hf : ∀ a, (f a).Allots allowed) : Allots allowed (s >>= f) := by
  refine ⟨fun i => Procedure.Allots.bind (hs.allots i) fun r => ?_⟩
  obtain ⟨r, i'⟩ := r
  cases r with
  | error e => trivial
  | ok a => exact (hf a).allots i'

/-- A part that is left out under some condition. -/
theorem ite_bind {q : Prop} [Decidable q] {s : Survey Unit} {f : Unit → Survey β}
    (hs : s.Allots allowed) (hf : ∀ a, (f a).Allots allowed) :
    Allots allowed (if q then s >>= f else f ()) := by
  split
  · exact bind hs hf
  · exact hf ()

theorem check {c : Check α} (hc : c.Allots allowed) : (Survey.check c).Allots allowed :=
  ⟨fun _ => Procedure.Allots.bind hc.allots fun _ => trivial⟩

theorem inventory : Survey.inventory.Allots allowed := ⟨fun _ => trivial⟩

theorem record (f : Inventory → Inventory) : (Survey.record f).Allots allowed := ⟨fun _ => trivial⟩

theorem request (what : String) (cluster : Cluster) (r : Request) :
    (Survey.request what cluster r).Allots allowed :=
  check (.request what cluster r)

theorem forM {f : γ → Survey Unit} (hf : ∀ a, (f a).Allots allowed) (l : List γ) :
    (l.forM f).Allots allowed := by
  induction l with
  | nil => exact pure ()
  | cons a l ih => exact bind (hf a) fun _ => ih

end Allots

end Survey

end Reachability
