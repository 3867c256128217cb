import Reachability.Proofs.Wait.Cut

namespace Reachability.Wait

namespace Procedure

variable {A : Api} {w : World A} {α β : Type}

/-- Once interrupted for the reason `i`, the procedure returns something that `stop` allows. No
wait of its own takes any time then, and none tries anything again: even if it has ended, the clock
would have to reckon its pause. -/
def Halts (i : Interrupt) {α : Type} : Procedure A α → (α → Prop) → Prop
  | done a, stop => stop a
  | race what _ next, stop => (next (.error (i.failure what none))).Halts i stop
  | poll _ _ _ _, _ => False
  | within _ _ _, _ => False
  | draw _ _, _ => False

/-- Wherever a wait is interrupted, the rest of the procedure halts. A part with a deadline of its
own may return something else when it is interrupted, which then makes the rest halt. -/
def Heeds {α : Type} : Procedure A α → (Interrupt → α → Prop) → Prop
  | done _, _ => True
  | race _ _ next, stop =>
    (∀ r, (next r).Heeds stop) ∧ ∀ i r, Interrupted i r → (next r).Halts i (stop i)
  | poll pacing _ _ next, stop =>
    0 < pacing ∧ (∀ r, (next r).Heeds stop) ∧
      ∀ i r, Interrupted i r → (next r).Halts i (stop i)
  | within _ body next, stop =>
    ∃ stopped, body.Heeds stopped ∧ (∀ b, (next b).Heeds stop) ∧
      ∀ i b, stopped i b → (next b).Halts i (stop i)
  | draw _ next, stop => ∀ n, (next n).Heeds stop

theorem Halts.bind {i : Interrupt} {p : Procedure A α} {f : α → Procedure A β}
    {stopped : α → Prop} {stop : β → Prop} (hp : p.Halts i stopped)
    (hf : ∀ a, stopped a → (f a).Halts i stop) : (p.bind f).Halts i stop := by
  induction p with
  | done a => exact hf a hp
  | race what probe next ih => exact ih _ hp hf
  | poll pacing what probe next => exact hp.elim
  | within timeout body next => exact hp.elim
  | draw n next => exact hp.elim

theorem Heeds.bind {p : Procedure A α} {f : α → Procedure A β} {stopped : Interrupt → α → Prop}
    {stop : Interrupt → β → Prop} (hp : p.Heeds stopped) (hf : ∀ a, (f a).Heeds stop)
    (hstop : ∀ i a, stopped i a → (f a).Halts i (stop i)) : (p.bind f).Heeds stop := by
  induction p with
  | done a => exact hf a
  | race what probe next ih =>
    obtain ⟨hnext, hhalts⟩ := hp
    exact ⟨fun r => ih r (hnext r) hf hstop, fun i r hr => (hhalts i r hr).bind (hstop i)⟩
  | poll pacing what probe next ih =>
    obtain ⟨hpacing, hnext, hhalts⟩ := hp
    exact ⟨hpacing, fun r => ih r (hnext r) hf hstop,
      fun i r hr => (hhalts i r hr).bind (hstop i)⟩
  | within timeout body next _ ih =>
    obtain ⟨inner, hbody, hnext, hhalts⟩ := hp
    exact ⟨inner, hbody, fun b => ih b (hnext b) hf hstop,
      fun i b hb => (hhalts i b hb).bind (hstop i)⟩
  | draw n next ih => exact fun k => ih k (hp k) hf hstop

/-- A wait that has ended before it is asked for. -/
theorem raceOnce_of_ended {l : Limits} {e : Instant} (hends : l.endsAt = some e) {m : Moment w}
    (hlate : e ≤ m.now) (what : String) (p : Probe A α) :
    raceOnce w l what p m =
      (.returned (.error ((l.interrupt m.now).failure what none)), m) := by
  unfold raceOnce
  rw [endedBy_of_le hends hlate, if_pos rfl, cutOff_of_endsAt hends, Nat.max_eq_right hlate]

/-- A procedure that halts does so at once: it starts no calls and takes no time. -/
theorem Halts.run {l : Limits} {e : Instant} (hends : l.endsAt = some e) {i : Interrupt}
    {p : Procedure A α} {stop : α → Prop} (hp : p.Halts i stop) (patience : Nat) {m : Moment w}
    (hlate : e ≤ m.now) (hi : l.interrupt m.now = i) :
    ∃ a, p.run w patience l m = (.returned a, m) ∧ stop a := by
  induction p with
  | done a => exact ⟨a, rfl, hp⟩
  | race what probe next ih =>
    rw [run_race, raceOnce_of_ended hends hlate, hi]
    exact ih _ hp
  | poll pacing what probe next => exact hp.elim
  | within timeout body next => exact hp.elim
  | draw n next => exact hp.elim

/-- What follows an interrupted part of a procedure that heeds interruptions. -/
theorem Halts.run_cutAt {l₀ l : Limits} {e : Instant} {i : Interrupt} (hl : l₀.CutAt l e i)
    {p : Procedure A α} {stop : α → Prop} (hp : p.Halts i stop) (patience : Nat) {m : Moment w}
    (hnow : m.now = e) : ∃ a, p.run w patience l m = (.returned a, m) ∧ stop a :=
  hp.run hl.ends patience (hnow ▸ Nat.min_le_left _ _) (hnow ▸ hl.interrupt_eq)

/-- A procedure that heeds interruptions is cut off where its limits end. -/
theorem Heeds.run {p : Procedure A α} {stop : Interrupt → α → Prop} (hp : p.Heeds stop)
    {l₀ l : Limits} {e : Instant} {i : Interrupt} (hl : l₀.CutAt l e i) {patience : Nat}
    (hpatience : e < patience) (patience' : Nat) {m : Moment w} (hm : m.now < e)
    (hstarted : ∀ c ∈ m.started, c.1 < e) :
    CutOff e (stop i) (p.run w patience l₀ m) (p.run w patience' l m) := by
  induction p generalizing l₀ l m with
  | done a => exact .same (by simp) hm hstarted
  | race what probe next ih =>
    obtain ⟨hnext, hhalts⟩ := hp
    rw [run_race, run_race]
    refine (hl.raceOnce what probe hm hstarted).andThen ?_ ?_ fun r m => run_precedes ..
    · exact fun r m hm hstarted => ih r (hnext r) hl hm hstarted
    · exact fun r m hr hnow => (hhalts i r hr).run_cutAt hl patience' hnow
  | poll pacing what probe next ih =>
    obtain ⟨hpacing, hnext, hhalts⟩ := hp
    rw [run_poll, run_poll]
    have hpoll := hl.pollFrom hpacing what probe hpatience patience' hm hstarted
    refine hpoll.andThen ?_ ?_ fun r m => run_precedes ..
    · exact fun r m hm hstarted => ih r (hnext r) hl hm hstarted
    · exact fun r m hr hnow => (hhalts i r hr).run_cutAt hl patience' hnow
  | within timeout body next ihbody ihnext =>
    obtain ⟨stopped, hbody, hnext, hhalts⟩ := hp
    rw [run_within, run_within]
    cases after? m.now timeout with
    | none => exact .same (by simp) hm hstarted
    | some d =>
      have hcut := ihbody hbody (hl.withDeadline d) hm hstarted
      refine hcut.andThen ?_ ?_ fun b m => run_precedes ..
      · exact fun b m hm hstarted => ihnext b (hnext b) hl hm hstarted
      · exact fun b m hb hnow => (hhalts i b hb).run_cutAt hl patience' hnow
  | draw n next ih => exact ih _ (hp _) hl hm hstarted

end Procedure

/-- A run from `t` on, under limits that end at `e`, in comparison to one that nothing ends. -/
structure CutsExactly {A : Api} {w : World A} {α : Type} (e t : Instant) (stop : α → Prop)
    (free limited : Outcome α × Moment w) : Prop where
  /-- Limits that come after the end change nothing. -/
  unaffected : free.1 ≠ .stalled → free.2.now < e → limited = free
  /-- Other limits end the run, and leave out the calls from then on. -/
  interrupted : free.1 = .stalled ∨ e ≤ free.2.now →
    ∃ a, limited.1 = .returned a ∧ stop a ∧ limited.2.now = max e t ∧
      limited.2.calls = free.2.calls.filter fun c => decide (c.1 < e)

variable {A : Api} {w : World A} {α : Type}

theorem CutOff.cutsExactly {e t : Instant} {stop : α → Prop} {u v : Outcome α × Moment w}
    (h : CutOff e stop u v) (ht : t < e) : CutsExactly e t stop u v := by
  cases h with
  | same hend hnow hstarted =>
    exact ⟨fun _ _ => rfl, fun hlate => absurd hnow (Nat.not_lt_of_le (hlate.resolve_left hend))⟩
  | @cut _ a m hlate hstop hnow hcalls =>
    refine ⟨fun hend hearly => ?_, fun _ => ⟨a, rfl, hstop, ?_, ?_⟩⟩
    · exact absurd hearly (Nat.not_lt_of_le (hlate.resolve_left hend))
    · exact hnow.trans (Nat.max_eq_left (Nat.le_of_lt ht)).symm
    · simp only [Moment.calls, hcalls, Moment.callsBefore, List.filter_reverse]

/-- Limits cut off a run of a procedure that heeds interruptions, and that halts if it is
interrupted before it starts. -/
theorem Procedure.Heeds.cutsExactly {p : Procedure A α} {stop : Interrupt → α → Prop}
    (hheeds : p.Heeds stop) (hhalts : ∀ i, p.Halts i (stop i)) {l : Limits} {e : Instant}
    (hends : l.endsAt = some e) {patience : Nat} (hpatience : e < patience) (patience' : Nat)
    (t : Instant) (s : w.State) :
    CutsExactly e t (stop (l.interrupt (max e t))) (p.run w patience {} ⟨t, s, []⟩)
      (p.run w patience' l ⟨t, s, []⟩) := by
  rcases Nat.lt_or_ge t e with ht | ht
  · rw [Nat.max_eq_left (Nat.le_of_lt ht)]
    have hcut := hheeds.run (w := w) (Limits.cutAt_of_endsAt hends) hpatience patience'
      (m := ⟨t, s, []⟩) ht (by simp)
    exact hcut.cutsExactly ht
  · rw [Nat.max_eq_right ht]
    obtain ⟨a, hrun, hstop⟩ := (hhalts (l.interrupt t)).run hends patience' (w := w)
      (m := ⟨t, s, []⟩) ht rfl
    have hprec := p.run_precedes (w := w) patience {} ⟨t, s, []⟩
    refine ⟨fun _ hearly => ?_, fun _ => ⟨a, ?_, hstop, ?_, ?_⟩⟩
    · exact absurd hearly (Nat.not_lt_of_le (Nat.le_trans ht hprec.now_le))
    · rw [hrun]
    · rw [hrun, Nat.max_eq_right ht]
    · have hcalls := hprec.callsBefore_eq ht
      simp only [Moment.callsBefore, List.filter_nil] at hcalls
      simp [hrun, Moment.calls, List.filter_reverse, hcalls]

end Reachability.Wait
