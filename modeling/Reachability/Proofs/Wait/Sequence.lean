import Reachability.Proofs.Wait.Courses

namespace Reachability.Wait

variable {A : Api} {α : Type}

/-- The aims are reached one after the other before the limits end: each is waited for from the
instant at which the one before it was reached, in the state of the world at that time. -/
inductive Reached (w : World A) (l : Limits) :
    List (Aim A α) → Instant → w.State → List (Instant × A.Call) → Instant → w.State → Prop
  | nil (t : Instant) (s : w.State) : Reached w l [] t s [] t s
  | cons {x : Aim A α} {xs : List (Aim A α)} {t t' : Instant} {s s' : w.State} {k : Nat} {a : α}
      {calls : List (Instant × A.Call)} (hx : (x.schedule w t s).Concludes l k (.ok a))
      (hxs : Reached w l xs ((x.schedule w t s).finish k) (x.stateAfter w s (k + 1)) calls t' s') :
      Reached w l (x :: xs) t s (x.tries w t s (k + 1) ++ calls) t' s'

/-- A wait that begins at some instant, in some state of the world, is given up: an attempt fails
for good, or none has decided it when the limits end. -/
structure GivesUp (w : World A) (l : Limits) (x : Aim A α) (t : Instant) (s : w.State)
    (earlier : List (Instant × A.Call)) (u : Outcome (Except Failure Unit) × Moment w) : Prop where
  calls : ∃ n, u.2.calls = earlier ++ x.tries w t s n ∧ ∀ k, k < n ↔ (x.schedule w t s).Made l k
  failure : (∃ k f, (x.schedule w t s).Concludes l k (.error f) ∧ u.1 = .returned (.error f) ∧
      u.2.now = (x.schedule w t s).finish k) ∨
    (∀ k r, ¬ (x.schedule w t s).Concludes l k r) ∧ ∃ (i : Interrupt) (last : Option Failure),
      u.1 = .returned (.error (i.failure x.what last)) ∧
      (∀ e, l.endsAt = some e → u.2.now = max e t) ∧ (x.schedule w t s).LastFailure l last ∧
      (i = .cancelled ↔
        ∃ c, l.cancelledAt = some c ∧ (c ≤ t ∨ ∀ d, l.deadline = some d → c ≤ d))

/-- The aims are reached one after the other up to one, and the wait for that one crashes: the clock
cannot reckon the pause after an attempt that is due, or an attempt is answered with something on
which there is no judgement. -/
inductive Breaks (w : World A) (l : Limits) :
    List (Aim A α) → Instant → w.State → List (Instant × A.Call) → Instant → Prop
  | here {x : Aim A α} {xs : List (Aim A α)} {t t' : Instant} {s : w.State} {k n : Nat}
      (hx : (x.schedule w t s).Crashes l k t') (hn : ∀ j, j < n ↔ (x.schedule w t s).Made l j) :
      Breaks w l (x :: xs) t s (x.tries w t s n) t'
  | later {x : Aim A α} {xs : List (Aim A α)} {t t' : Instant} {s : w.State} {k : Nat} {a : α}
      {calls : List (Instant × A.Call)} (hx : (x.schedule w t s).Concludes l k (.ok a))
      (hxs : Breaks w l xs ((x.schedule w t s).finish k) (x.stateAfter w s (k + 1)) calls t') :
      Breaks w l (x :: xs) t s (x.tries w t s (k + 1) ++ calls) t'

/-- A run from some moment on that waits for the aims in turn. -/
structure TakesTurns (w : World A) (l : Limits) (aims : List (Aim A α)) (m : Moment w)
    (u : Outcome (Except Failure Unit) × Moment w) : Prop where
  reached {calls : List (Instant × A.Call)} {t : Instant} {s : w.State}
    (h : Reached w l aims m.now m.state calls t s) :
    u.1 = .returned (.ok ()) ∧ u.2.now = t ∧ u.2.calls = m.calls ++ calls
  broken {calls : List (Instant × A.Call)} {t : Instant}
    (h : Breaks w l aims m.now m.state calls t) :
    u.1 = .crashed ∧ u.2.now = t ∧ u.2.calls = m.calls ++ calls
  stuck (hreached : ∀ calls t s, ¬ Reached w l aims m.now m.state calls t s)
    (hbreaks : ∀ calls t, ¬ Breaks w l aims m.now m.state calls t) :
    ∃ before x after calls t s, aims = before ++ x :: after ∧
      Reached w l before m.now m.state calls t s ∧ GivesUp w l x t s (m.calls ++ calls) u
  /-- The limits are kept, unless they had ended before. -/
  punctual (e : Instant) (h : l.endsAt = some e) : u.2.now ≤ max e m.now

section Turns

variable {w : World A} {l : Limits} {m : Moment w}

theorem Reached.cons_inv {x : Aim A α} {xs : List (Aim A α)} {t t' : Instant}
    {s s' : w.State} {calls : List (Instant × A.Call)} (h : Reached w l (x :: xs) t s calls t' s') :
    ∃ k a calls', (x.schedule w t s).Concludes l k (.ok a) ∧
      Reached w l xs ((x.schedule w t s).finish k) (x.stateAfter w s (k + 1)) calls' t' s' ∧
      calls = x.tries w t s (k + 1) ++ calls' := by
  cases h with
  | cons hx hxs => exact ⟨_, _, _, hx, hxs, rfl⟩

theorem not_breaks_nil {t t' : Instant} {s : w.State} {calls : List (Instant × A.Call)} :
    ¬ Breaks w l ([] : List (Aim A α)) t s calls t' := nofun

theorem Breaks.cons_inv {x : Aim A α} {xs : List (Aim A α)} {t t' : Instant} {s : w.State}
    {calls : List (Instant × A.Call)} (h : Breaks w l (x :: xs) t s calls t') :
    (∃ k n, (x.schedule w t s).Crashes l k t' ∧ (∀ j, j < n ↔ (x.schedule w t s).Made l j) ∧
      calls = x.tries w t s n) ∨
    ∃ k a calls', (x.schedule w t s).Concludes l k (.ok a) ∧
      Breaks w l xs ((x.schedule w t s).finish k) (x.stateAfter w s (k + 1)) calls' t' ∧
      calls = x.tries w t s (k + 1) ++ calls' := by
  cases h with
  | here hx hn => exact .inl ⟨_, _, hx, hn, rfl⟩
  | later hx hxs => exact .inr ⟨_, _, _, hx, hxs, rfl⟩

theorem TakesTurns.nil (w : World A) (l : Limits) (m : Moment w) :
    TakesTurns w l ([] : List (Aim A α)) m (.returned (.ok ()), m) where
  reached h := by
    cases h
    exact ⟨rfl, rfl, (List.append_nil _).symm⟩
  broken h := absurd h not_breaks_nil
  stuck h := absurd (.nil m.now m.state) (h _ _ _)
  punctual e _ := Nat.le_max_right e m.now

/-- The first aim is reached, and those that follow are waited for from then on. -/
theorem TakesTurns.cons {x : Aim A α} {xs : List (Aim A α)} {k : Nat} {a : α}
    {m' : Moment w} {u : Outcome (Except Failure Unit) × Moment w}
    (hx : (x.schedule w m.now m.state).Concludes l k (.ok a))
    (hnow : m'.now = (x.schedule w m.now m.state).finish k)
    (hstate : m'.state = x.stateAfter w m.state (k + 1))
    (hcalls : m'.calls = m.calls ++ x.tries w m.now m.state (k + 1))
    (h : TakesTurns w l xs m' u) : TakesTurns w l (x :: xs) m u where
  reached hreached := by
    obtain ⟨k', a', calls', hx', hxs, rfl⟩ := hreached.cons_inv
    obtain ⟨rfl, -⟩ := hx'.unique hx
    rw [← hnow, ← hstate] at hxs
    obtain ⟨hok, ht, hall⟩ := h.reached hxs
    refine ⟨hok, ht, ?_⟩
    rw [hall, hcalls, List.append_assoc]
  broken hbreaks := by
    obtain ⟨k', n, hcrashes, -⟩ | ⟨k', a', calls', hx', hxs, rfl⟩ := hbreaks.cons_inv
    · exact absurd hx hcrashes.not_concludes
    obtain ⟨rfl, -⟩ := hx'.unique hx
    rw [← hnow, ← hstate] at hxs
    obtain ⟨hcrashed, ht, hall⟩ := h.broken hxs
    refine ⟨hcrashed, ht, ?_⟩
    rw [hall, hcalls, List.append_assoc]
  stuck hnone hbreaks := by
    obtain ⟨before, y, after, calls, t, s, hxs, hbefore, hgivesUp⟩ := h.stuck
      (fun calls t s hxs => hnone _ t s (.cons hx (hnow ▸ hstate ▸ hxs)))
      (fun calls t hxs => hbreaks _ t (.later hx (hnow ▸ hstate ▸ hxs)))
    refine ⟨x :: before, y, after, _, t, s, ?_, .cons hx (hnow ▸ hstate ▸ hbefore), ?_⟩
    · rw [hxs, List.cons_append]
    · rw [← List.append_assoc, ← hcalls]
      exact hgivesUp
  punctual e he := by
    have hlive : m'.now < e := hnow ▸ hx.finish_lt he
    have hle := h.punctual e he
    lia

/-- The first aim is not reached. -/
theorem TakesTurns.of_givesUp {x : Aim A α} (xs : List (Aim A α))
    {u : Outcome (Except Failure Unit) × Moment w}
    (hx : ∀ k a, ¬ (x.schedule w m.now m.state).Concludes l k (.ok a))
    (hcrash : ∀ k t, ¬ (x.schedule w m.now m.state).Crashes l k t)
    (h : GivesUp w l x m.now m.state m.calls u) :
    TakesTurns w l (x :: xs) m u where
  reached hreached := by
    obtain ⟨k, a, -, hconcludes, -⟩ := hreached.cons_inv
    exact absurd hconcludes (hx k a)
  broken hbreaks := by
    obtain ⟨k, -, hcrashes, -⟩ | ⟨k, a, -, hconcludes, -⟩ := hbreaks.cons_inv
    · exact absurd hcrashes (hcrash k _)
    · exact absurd hconcludes (hx k a)
  stuck _ _ := ⟨[], x, xs, [], m.now, m.state, rfl, .nil _ _, (List.append_nil _).symm ▸ h⟩
  punctual e he := by
    rcases h.failure with ⟨k, f, hconcludes, -, hnow⟩ | ⟨-, i, last, -, hnow, -⟩
    · have hlive := hconcludes.finish_lt he
      lia
    · exact Nat.le_of_eq (hnow e he)

/-- The wait for the first aim crashes. -/
theorem TakesTurns.of_crashes {x : Aim A α} (xs : List (Aim A α)) {k n : Nat} {m' : Moment w}
    (h : (x.schedule w m.now m.state).Crashes l k m'.now)
    (hcalls : m'.calls = m.calls ++ x.tries w m.now m.state n)
    (hmade : ∀ j, j < n ↔ (x.schedule w m.now m.state).Made l j) :
    TakesTurns w l (x :: xs) m (.crashed, m') where
  reached hreached := by
    obtain ⟨k, a, -, hconcludes, -⟩ := hreached.cons_inv
    exact absurd hconcludes h.not_concludes
  broken hbreaks := by
    obtain ⟨k', n', hcrashes, hmade', rfl⟩ | ⟨k', a, -, hconcludes, -⟩ := hbreaks.cons_inv
    · have hn : n = n' := by
        apply Nat.le_antisymm <;> refine Nat.le_of_not_lt fun hlt => ?_
        · exact Nat.lt_irrefl _ ((hmade' _).2 ((hmade _).1 hlt))
        · exact Nat.lt_irrefl _ ((hmade _).2 ((hmade' _).1 hlt))
      exact ⟨rfl, (h.unique hcrashes).2, hn ▸ hcalls⟩
    · exact absurd hconcludes h.not_concludes
  stuck _ hbreaks := absurd (.here h hmade) (hbreaks _ _)
  punctual e he := h.le_max he

theorem GivesUp.failed {x : Aim A α} {t : Instant} {s : w.State}
    {earlier : List (Instant × A.Call)} {u : Outcome (Except Failure Unit) × Moment w}
    (h : GivesUp w l x t s earlier u) : ∃ f, u.1 = .returned (.error f) := by
  rcases h.failure with ⟨k, f, -, hfailed, -⟩ | ⟨-, i, last, hfailed, -⟩ <;> exact ⟨_, hfailed⟩

theorem TakesTurns.ok_iff {aims : List (Aim A α)} {u : Outcome (Except Failure Unit) × Moment w}
    (h : TakesTurns w l aims m u) : u.1 = .returned (.ok ()) ↔
      ∃ calls t s, Reached w l aims m.now m.state calls t s := by
  refine ⟨fun hok => ?_, fun ⟨_, _, _, hreached⟩ => (h.reached hreached).1⟩
  refine Classical.byContradiction fun hnone => ?_
  obtain ⟨_, _, _, _, _, _, -, -, hgivesUp⟩ := h.stuck
    (fun calls t s hreached => hnone ⟨calls, t, s, hreached⟩)
    (fun calls t hbreaks => nomatch hok.symm.trans (h.broken hbreaks).1)
  obtain ⟨f, hf⟩ := hgivesUp.failed
  cases hok.symm.trans hf

theorem TakesTurns.crashed_iff {aims : List (Aim A α)}
    {u : Outcome (Except Failure Unit) × Moment w} (h : TakesTurns w l aims m u) :
    u.1 = .crashed ↔ ∃ calls t, Breaks w l aims m.now m.state calls t := by
  refine ⟨fun hcrashed => ?_, fun ⟨_, _, hbreaks⟩ => (h.broken hbreaks).1⟩
  refine Classical.byContradiction fun hnone => ?_
  obtain ⟨_, _, _, _, _, _, -, -, hgivesUp⟩ := h.stuck
    (fun calls t s hreached => nomatch hcrashed.symm.trans (h.reached hreached).1)
    (fun calls t hbreaks => hnone ⟨calls, t, hbreaks⟩)
  obtain ⟨f, hf⟩ := hgivesUp.failed
  cases hcrashed.symm.trans hf

end Turns

end Reachability.Wait
