import Mathlib.Logic.Function.Basic
import Reachability.Proofs.Wait.Bind

namespace Reachability.Wait

variable {A : Api} {α β ι : Type}

/-- What answers every call at once, as one step. -/
structure Server (A : Api) where
  State : Type
  answer : State → (c : A.Call) → State × Except Failure (A.Answer c)

/-- The server as a world in which no call takes time. -/
def Server.world (server : Server A) : World A where
  State := server.State
  start s c := (s, some (0, fun s => server.answer s c))
  choose s _ := (s, ⟨0, Nat.succ_pos _⟩)

namespace Procedure

variable {server : Server A}

/-- What is left to do when a part of the probe has been carried out. -/
def resume (what : String) (probe : Probe A β) (next : Except Failure β → Procedure A α) :
    Procedure A α :=
  match probe with
  | .done r => next r
  | .crash => .race what .crash next
  | .ask c k => .race what (.ask c k) next

/-- Carries out the next call. A procedure that is to try something again and again, or to choose
something, is left as it is. -/
def turn (server : Server A) : Procedure A α → server.State → Procedure A α × server.State
  | .race what (.ask c k) next, s =>
    (resume what (k (server.answer s c).2) next, (server.answer s c).1)
  | p, s => (p, s)

/-- The result of a procedure that has come to its end. -/
def result? : Procedure A α → Option α
  | .done a => some a
  | _ => none

theorem eq_done_of_result? {p : Procedure A α} {a : α} (h : p.result? = some a) : p = .done a := by
  cases p with
  | done b =>
    have heq : b = a := Option.some.inj h
    rw [heq]
  | _ => cases h

/-- With nobody else around, a turn is the first part of a run. -/
theorem run_turn (p : Procedure A α) (patience : Nat) (t : Instant) (s : server.State)
    (started : List (Instant × A.Call)) : ∃ started',
      p.run server.world patience {} ⟨t, s, started⟩ =
        (p.turn server s).1.run server.world patience {} ⟨t, (p.turn server s).2, started'⟩ := by
  cases p with
  | @race α β what probe next =>
    cases probe with
    | done r | crash => exact ⟨started, rfl⟩
    | ask c k =>
      refine ⟨(t, c) :: started, ?_⟩
      simp only [turn]
      generalize hprobe : k (server.answer s c).2 = probe
      have hrace : raceOnce server.world {} what (.ask c k) ⟨t, s, started⟩ =
          raceOnce server.world {} what probe ⟨t, (server.answer s c).1, (t, c) :: started⟩ := by
        subst hprobe
        rfl
      cases probe with
      | done r =>
        rw [resume, run_race, hrace]
        rfl
      | crash | ask c' k' => rw [resume, run_race, run_race, hrace]
  | _ => exact ⟨started, rfl⟩

end Procedure

section Climbs

variable {server : Server A} (chain : Nat → server.State)

/-- The calls of the probe lead up the chain, by one place at most, wherever on the chain they are
carried out from `k` on. There are at most `n` of them, and `post` holds of the result, the number
of calls not needed, and the place on the chain. -/
def Probe.Climbs (post : Except Failure α → Nat → Nat → Prop) : Probe A α → Nat → Nat → Prop
  | .done r, n, k => post r n k
  | .crash, _, _ => False
  | .ask c next, n, k => ∃ m, n = m + 1 ∧ ∀ j, k ≤ j → ∃ j', j ≤ j' ∧ j' ≤ j + 1 ∧
      (server.answer (chain j) c).1 = chain j' ∧
      (next (server.answer (chain j) c).2).Climbs post m j'

theorem Probe.Climbs.imp {chain : Nat → server.State}
    {post post' : Except Failure α → Nat → Nat → Prop} {probe : Probe A α} {n k : Nat}
    (h : probe.Climbs chain post n k) (hpost : ∀ r n k, post r n k → post' r n k) :
    probe.Climbs chain post' n k := by
  induction probe generalizing n k with
  | done r => exact hpost r n k h
  | crash => exact h.elim
  | ask c next ih =>
    obtain ⟨m, hm, hcall⟩ := h
    refine ⟨m, hm, fun j hj => ?_⟩
    obtain ⟨j', hle, hstep, hstate, hnext⟩ := hcall j hj
    exact ⟨j', hle, hstep, hstate, ih _ hnext⟩

/-- All that the procedure does is to try probes once, and their calls lead up the chain. -/
def Procedure.Climbs {α : Type} (post : α → Nat → Nat → Prop) :
    Procedure A α → Nat → Nat → Prop
  | .done a, n, k => post a n k
  | .race _ (.ask c after) next, n, k =>
    (Probe.ask c after).Climbs chain (fun r n k => (next r).Climbs post n k) n k
  | _, _, _ => False

namespace Procedure

variable {chain} {p : Procedure A α} {post : α → Nat → Nat → Prop} {n k j : Nat}

theorem climbs_resume {what : String} {probe : Probe A β}
    {next : Except Failure β → Procedure A α} :
    (resume what probe next).Climbs chain post n k ↔
      probe.Climbs chain (fun r n k => (next r).Climbs chain post n k) n k := by
  cases probe <;> rfl

theorem Climbs.imp {post' : α → Nat → Nat → Prop} (h : p.Climbs chain post n k)
    (hpost : ∀ a n k, post a n k → post' a n k) : p.Climbs chain post' n k := by
  induction p generalizing n k with
  | done a => exact hpost a n k h
  | race what probe next ih =>
    cases probe with
    | done r | crash => exact h.elim
    | ask c after => exact Probe.Climbs.imp h fun r n k hnext => ih r hnext hpost
  | _ => exact h.elim

/-- What follows a procedure is to climb from where that has led. -/
theorem climbs_bind {f : α → Procedure A β} {post : β → Nat → Nat → Prop} :
    (p.bind f).Climbs chain post n k ↔
      p.Climbs chain (fun a n k => (f a).Climbs chain post n k) n k := by
  induction p generalizing n k with
  | done a => rfl
  | race what probe next ih =>
    cases probe with
    | done r | crash => rfl
    | ask c after =>
      simp only [bind, Climbs]
      have hnext : (fun r n k => ((next r).bind f).Climbs chain post n k) = fun r n k =>
          (next r).Climbs chain (fun a n k => (f a).Climbs chain post n k) n k := by
        funext r n k
        exact propext (ih r)
      rw [hnext]
  | _ => rfl

theorem Climbs.eq_done (h : p.Climbs chain post 0 k) : ∃ a, p = .done a := by
  cases p with
  | done a => exact ⟨a, rfl⟩
  | race what probe next =>
    cases probe with
    | done r | crash => exact h.elim
    | ask c after =>
      obtain ⟨m, hm, -⟩ := h
      cases hm
  | _ => exact h.elim

/-- A turn of a procedure that has not come to its end leads up the chain. -/
theorem Climbs.turn (h : p.Climbs chain post n k) (hj : k ≤ j) :
    (∃ a, p = .done a ∧ post a n k) ∨
      ∃ m j', n = m + 1 ∧ j ≤ j' ∧ j' ≤ j + 1 ∧ (p.turn server (chain j)).2 = chain j' ∧
        (p.turn server (chain j)).1.Climbs chain post m j' := by
  cases p with
  | done a => exact .inl ⟨a, rfl, h⟩
  | race what probe next =>
    cases probe with
    | done r | crash => exact h.elim
    | ask c after =>
      obtain ⟨m, hm, hcall⟩ := h
      obtain ⟨j', hle, hstep, hstate, hafter⟩ := hcall j hj
      exact .inr ⟨m, j', hm, hle, hstep, hstate, climbs_resume.2 hafter⟩
  | _ => exact h.elim

theorem Climbs.mono (h : p.Climbs chain post n k) (hj : k ≤ j)
    (hpost : ∀ a n, post a n k → post a n j) : p.Climbs chain post n j := by
  cases p with
  | done a => exact hpost a n h
  | race what probe next =>
    cases probe with
    | done r | crash => exact h.elim
    | ask c after =>
      obtain ⟨m, hm, hcall⟩ := h
      exact ⟨m, hm, fun i hi => hcall i (Nat.le_trans hj hi)⟩
  | _ => exact h.elim

/-- A procedure that climbs comes to its end if it runs alone. -/
theorem Climbs.run (h : p.Climbs chain post n k) (patience : Nat) (t : Instant)
    (started : List (Instant × A.Call)) : ∃ a n' k' m,
      p.run server.world patience {} ⟨t, chain k, started⟩ = (.returned a, m) ∧
        m.state = chain k' ∧ post a n' k' := by
  induction n generalizing p k started with
  | zero =>
    obtain ⟨a, rfl⟩ := h.eq_done
    exact ⟨a, 0, k, _, rfl, rfl, h⟩
  | succ n ih =>
    rcases h.turn (Nat.le_refl k) with ⟨a, rfl, ha⟩ | ⟨m, k', hm, -, -, hstate, hrest⟩
    · exact ⟨a, n + 1, k, _, rfl, rfl, ha⟩
    · obtain rfl : n = m := Nat.succ.inj hm
      obtain ⟨started', hturn⟩ := p.run_turn patience t (chain k) started
      obtain ⟨a, n', k'', m', hrun, hend⟩ := ih hrest started'
      refine ⟨a, n', k'', m', ?_, hend⟩
      rw [hturn, hstate, hrun]

end Procedure

end Climbs

/-- Procedures that share a state. -/
structure Fleet (server : Server A) (ι : Type) (α : Type) where
  state : server.State
  procedures : ι → Procedure A α

namespace Fleet

variable {server : Server A}

/-- The state is at a place on the chain, and all procedures climb from there, with so many calls
left to each. -/
structure Climbs (chain : Nat → server.State) (post : α → Nat → Prop) (fleet : Fleet server ι α)
    (calls : ι → Nat) (k : Nat) : Prop where
  state : fleet.state = chain k
  procedures (i : ι) : (fleet.procedures i).Climbs chain (fun a _ k => post a k) (calls i) k

variable {chain : Nat → server.State} {post : α → Nat → Prop} {fleet : Fleet server ι α}
  {calls : ι → Nat} {k : Nat}

/-- Whoever has come to the end has done so rightly. -/
theorem Climbs.result (h : fleet.Climbs chain post calls k) {i : ι} {a : α}
    (ha : (fleet.procedures i).result? = some a) : post a k := by
  have hclimbs := h.procedures i
  rw [Procedure.eq_done_of_result? ha] at hclimbs
  exact hclimbs

/-- Whoever has no calls left has come to the end. -/
theorem Climbs.finished (h : fleet.Climbs chain post calls k) {i : ι} (hcalls : calls i = 0) :
    ((fleet.procedures i).result?).isSome = true := by
  have hclimbs := h.procedures i
  rw [hcalls] at hclimbs
  obtain ⟨a, hdone⟩ := hclimbs.eq_done
  rw [hdone]
  rfl

variable [DecidableEq ι]

/-- One of the procedures takes a turn. -/
def turn (fleet : Fleet server ι α) (i : ι) : Fleet server ι α :=
  let next := (fleet.procedures i).turn server fleet.state
  ⟨next.2, Function.update fleet.procedures i next.1⟩

/-- The procedures take turns in some order. -/
def run (fleet : Fleet server ι α) (schedule : List ι) : Fleet server ι α :=
  schedule.foldl turn fleet

/-- A turn leads up the chain by one place at most, and those who wait lose nothing by it. -/
theorem Climbs.turn (h : fleet.Climbs chain post calls k)
    (hpost : ∀ a k j, k ≤ j → post a k → post a j) (i : ι) :
    ∃ j, k ≤ j ∧ j ≤ k + 1 ∧
      (fleet.turn i).Climbs chain post (Function.update calls i (calls i - 1)) j := by
  have hothers {j : Nat} (hj : k ≤ j) (i' : ι) :
      (fleet.procedures i').Climbs chain (fun a _ k => post a k) (calls i') j :=
    (h.procedures i').mono hj fun a _ => hpost a k j hj
  rcases (h.procedures i).turn (Nat.le_refl k) with
    ⟨a, hdone, ha⟩ | ⟨m, j, hm, hle, hstep, hstate, hrest⟩
  · refine ⟨k, Nat.le_refl k, Nat.le_succ k, ?_, fun i' => ?_⟩
    · simp only [Fleet.turn, hdone]
      exact h.state
    · by_cases hi : i' = i
      · subst hi
        simp only [Fleet.turn, hdone, Function.update_self]
        exact ha
      · simp only [Fleet.turn, Function.update_of_ne hi]
        exact h.procedures i'
  · refine ⟨j, hle, hstep, ?_, fun i' => ?_⟩
    · simp only [Fleet.turn, h.state]
      exact hstate
    · by_cases hi : i' = i
      · subst hi
        simp only [Fleet.turn, h.state, hm, Function.update_self]
        exact hrest
      · simp only [Fleet.turn, Function.update_of_ne hi]
        exact hothers hle i'

/-- All turns lead up the chain. -/
theorem Climbs.run (h : fleet.Climbs chain post calls k)
    (hpost : ∀ a k j, k ≤ j → post a k → post a j) (schedule : List ι) :
    ∃ j, (fleet.run schedule).Climbs chain post (fun i => calls i - schedule.count i) j := by
  induction schedule generalizing fleet calls k with
  | nil => exact ⟨k, h⟩
  | cons i schedule ih =>
    obtain ⟨j, -, -, hturn⟩ := h.turn hpost i
    obtain ⟨j', hrun⟩ := ih hturn
    have hcalls : (fun i' => Function.update calls i (calls i - 1) i' - schedule.count i') =
        fun i' => calls i' - (i :: schedule).count i' := by
      funext i'
      by_cases hi : i' = i
      · subst hi
        rw [Function.update_self, List.count_cons_self]
        omega
      · rw [Function.update_of_ne hi, List.count_cons_of_ne (Ne.symm hi)]
    rw [hcalls] at hrun
    exact ⟨j', hrun⟩

end Fleet

end Reachability.Wait
