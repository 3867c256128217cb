import Reachability.Cluster.Survey
import Reachability.Proofs.Wait.Turns

namespace Reachability

open Wait (Procedure Server)

variable {α β : Type} {server : Server clusterApi} {chain : Nat → server.State}

/-- Whatever inventory it starts from, the survey succeeds, and its calls lead up the chain. -/
def Survey.Climbs (chain : Nat → server.State) (s : Survey α) (n k : Nat)
    (post : α → Nat → Nat → Prop) : Prop :=
  ∀ i, (s.run.run i).Climbs chain (fun r n k => ∃ a, r.1 = .ok a ∧ post a n k) n k

namespace Survey.Climbs

variable {s : Survey α} {n k : Nat} {post : α → Nat → Nat → Prop}

theorem pure {a : α} (h : post a n k) : Climbs chain (Pure.pure a) n k post :=
  fun _ => ⟨a, rfl, h⟩

theorem record {post : Unit → Nat → Nat → Prop} {f : Inventory → Inventory} (h : post () n k) :
    Climbs chain (Survey.record f) n k post :=
  fun _ => ⟨(), rfl, h⟩

theorem ofExcept {e : Except Failure α} {a : α} (he : e = .ok a) (h : post a n k) :
    Climbs chain (Survey.ofExcept e) n k post :=
  fun _ => ⟨a, he, h⟩

theorem bind {f : α → Survey β} {post' : β → Nat → Nat → Prop} (hs : s.Climbs chain n k post)
    (hf : ∀ a n k, post a n k → (f a).Climbs chain n k post') :
    Climbs chain (s >>= f) n k post' := by
  intro i
  refine (Procedure.climbs_bind (p := s.run.run i)).2 ((hs i).imp ?_)
  rintro ⟨r, i'⟩ n k ⟨a, rfl, ha⟩
  exact hf a n k ha i'

theorem mono {post' : α → Nat → Nat → Prop} (hs : s.Climbs chain n k post)
    (hpost : ∀ a n k, post a n k → post' a n k) : s.Climbs chain n k post' := by
  intro i
  refine (hs i).imp ?_
  rintro r n k ⟨a, hr, ha⟩
  exact ⟨a, hr, hpost a n k ha⟩

/-- A request is answered in one step. -/
theorem attempt {what : String} {cluster : Cluster} {r : Request}
    {post : Except Failure r.Answer → Nat → Nat → Prop}
    (h : ∀ j, k ≤ j → ∃ j', j ≤ j' ∧ j' ≤ j + 1 ∧
      (server.answer (chain j) ⟨cluster, r⟩).1 = chain j' ∧
        post (server.answer (chain j) ⟨cluster, r⟩).2 n j') :
    Climbs chain (Survey.attempt (Check.request what cluster r)) (n + 1) k post := by
  intro i
  refine ⟨n, rfl, fun j hj => ?_⟩
  obtain ⟨j', hle, hstep, hstate, hpost⟩ := h j hj
  exact ⟨j', hle, hstep, hstate, _, rfl, hpost⟩

/-- A request succeeds in one step. -/
theorem request {what : String} {cluster : Cluster} {r : Request}
    {post : r.Answer → Nat → Nat → Prop}
    (h : ∀ j, k ≤ j → ∃ j' a, j ≤ j' ∧ j' ≤ j + 1 ∧
      server.answer (chain j) ⟨cluster, r⟩ = (chain j', .ok a) ∧ post a n j') :
    Climbs chain (Survey.request what cluster r) (n + 1) k post := by
  intro i
  refine ⟨n, rfl, fun j hj => ?_⟩
  obtain ⟨j', a, hle, hstep, hanswer, hpost⟩ := h j hj
  exact ⟨j', hle, hstep, congrArg Prod.fst hanswer, a, congrArg Prod.snd hanswer, hpost⟩

end Survey.Climbs

end Reachability
