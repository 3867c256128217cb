import Reachability.Proofs.Wait.Bind

namespace Reachability.Wait

variable {A : Api} {w : World A} {α β : Type}

/-- The second limits are the first ones, cut off at `e` for the reason `i`. -/
structure Limits.CutAt (l₀ l : Limits) (e : Instant) (i : Interrupt) : Prop where
  ends : l.endsAt = some (min e (l₀.endsAt.getD e))
  same_interrupt : ∀ t < e, l.interrupt t = l₀.interrupt t
  interrupt_eq : l.interrupt e = i

namespace Limits

theorem endsAt_withDeadline (l : Limits) (d : Instant) :
    (l.withDeadline d).endsAt = some (min d (l.endsAt.getD d)) := by
  obtain ⟨c, d'⟩ := l
  cases c <;> cases d' <;> simp [withDeadline, endsAt] <;> lia

theorem CutAt.withDeadline {l₀ l : Limits} {e : Instant} {i : Interrupt} (h : l₀.CutAt l e i)
    (d : Instant) : (l₀.withDeadline d).CutAt (l.withDeadline d) e i where
  ends := by
    rw [endsAt_withDeadline, endsAt_withDeadline, h.ends]
    cases l₀.endsAt <;> simp <;> lia
  same_interrupt := h.same_interrupt
  interrupt_eq := h.interrupt_eq

/-- Limits that end at `e` cut off a wait without limits. -/
theorem cutAt_of_endsAt {l : Limits} {e : Instant} (h : l.endsAt = some e) :
    ({} : Limits).CutAt l e (l.interrupt e) where
  ends := by simpa [endsAt] using h
  same_interrupt t ht := by
    have hlate : ¬ ∃ c, l.cancelledAt = some c ∧ c ≤ t := by
      rintro ⟨c, hc, hct⟩
      cases hd : l.deadline <;> simp [endsAt, hc, hd] at h <;> lia
    have hnot : l.interrupt t ≠ .cancelled := fun hi => hlate (interrupt_eq_cancelled_iff.1 hi)
    cases hi : l.interrupt t with
    | cancelled => exact absurd hi hnot
    | deadlineReached => rfl
  interrupt_eq := rfl

end Limits

/-- Under a limit that has not come, a probe leaves off before it. -/
theorem Probe.run_now_lt {e : Instant} (p : Probe A α) {m : Moment w} (hm : m.now < e) :
    (p.run w (some e) m).2.now < e := by
  induction p generalizing m with
  | done r => exact hm
  | crash => exact hm
  | ask c next ih =>
    rcases hstart : w.start m.state c with ⟨s, _ | ⟨delay, finish⟩⟩
    · rw [run_ask_of_hanging hstart]
      exact hm
    · by_cases hlate : e ≤ m.now + delay
      · rw [run_ask_of_late hstart ⟨e, rfl, hlate⟩]
        exact hm
      · have hearly := Nat.lt_of_not_le hlate
        rw [run_ask_of_answered hstart (by simpa using hearly)]
        exact ih _ hearly

/-- A probe under an earlier limit ends like the other one if that is before the limit, and is cut
off there if not. -/
theorem Probe.run_cut {limit : Option Instant} {e : Instant}
    (hlimit : ∀ d, limit = some d → e ≤ d) (p : Probe A α) {m : Moment w} (hm : m.now < e)
    (hstarted : ∀ c ∈ m.started, c.1 < e) :
    (∃ o m', o ≠ .stalled ∧ p.run w limit m = (o, m') ∧ p.run w (some e) m = (o, m') ∧
      m'.now < e) ∨
    (((p.run w limit m).1 = .stalled ∨ e ≤ (p.run w limit m).2.now) ∧
      (p.run w (some e) m).1 = .stalled ∧
      (p.run w (some e) m).2.started = (p.run w limit m).2.callsBefore e) := by
  induction p generalizing m with
  | done r => exact .inl ⟨.returned r, m, nofun, rfl, rfl, hm⟩
  | crash => exact .inl ⟨.crashed, m, nofun, rfl, rfl, hm⟩
  | ask c next ih =>
    have hbegun : ∀ s c', c' ∈ (m.begun c s).started → c'.1 < e := by
      intro s c' hc'
      rcases List.mem_cons.1 hc' with rfl | hc'
      · exact hm
      · exact hstarted c' hc'
    rcases hstart : w.start m.state c with ⟨s, _ | ⟨delay, finish⟩⟩
    · rw [run_ask_of_hanging hstart, run_ask_of_hanging hstart]
      exact .inr ⟨.inl rfl, rfl, (Moment.callsBefore_eq_started (hbegun s)).symm⟩
    · by_cases hlate : e ≤ m.now + delay
      · right
        -- the second run leaves off here, and what the first still starts comes no earlier than `e`
        have hcut : ∃ d, some e = some d ∧ d ≤ m.now + delay := ⟨e, rfl, hlate⟩
        rw [run_ask_of_late hstart hcut]
        by_cases hend : ∃ d, limit = some d ∧ d ≤ m.now + delay
        · rw [run_ask_of_late hstart hend]
          exact ⟨.inl rfl, rfl, (Moment.callsBefore_eq_started (hbegun s)).symm⟩
        · rw [run_ask_of_answered hstart fun d hd =>
            Nat.lt_of_not_le fun hle => hend ⟨d, hd, hle⟩]
          have hrest := (next (finish s).2).run_precedes limit (m.answered c delay (finish s).1)
          refine ⟨.inr (Nat.le_trans hlate hrest.now_le), rfl, ?_⟩
          rw [hrest.callsBefore_eq hlate]
          exact (Moment.callsBefore_eq_started (hbegun s)).symm
      · have hearly := Nat.lt_of_not_le hlate
        have hbefore : ∀ d, some e = some d → m.now + delay < d := by simpa using hearly
        rw [run_ask_of_answered hstart fun d hd => Nat.lt_of_lt_of_le hearly (hlimit d hd),
          run_ask_of_answered hstart hbefore]
        exact ih _ hearly (hbegun s)

/-- The second run is the first one, cut off at an instant: either the first has come to its end
before that, or the second returns there something that `stop` allows. -/
inductive CutOff (e : Instant) (stop : α → Prop) :
    Outcome α × Moment w → Outcome α × Moment w → Prop where
  | same {o : Outcome α} {m : Moment w} (hend : o ≠ .stalled) (hnow : m.now < e)
      (hstarted : ∀ c ∈ m.started, c.1 < e) : CutOff e stop (o, m) (o, m)
  | cut {u : Outcome α × Moment w} {a : α} {m : Moment w} (hlate : u.1 = .stalled ∨ e ≤ u.2.now)
      (hstop : stop a) (hnow : m.now = e) (hcalls : m.started = u.2.callsBefore e) :
      CutOff e stop u (.returned a, m)

theorem CutOff.andThen {e : Instant} {stopped : α → Prop} {stop : β → Prop}
    {u v : Outcome α × Moment w} {k k' : α → Moment w → Outcome β × Moment w}
    (h : CutOff e stopped u v)
    (hsame : ∀ a m, m.now < e → (∀ c ∈ m.started, c.1 < e) → CutOff e stop (k a m) (k' a m))
    (hcut : ∀ a m, stopped a → m.now = e → ∃ b, k' a m = (.returned b, m) ∧ stop b)
    (hk : ∀ a (m : Moment w), m.Precedes (k a m).2) :
    CutOff e stop (andThen u k) (andThen v k') := by
  cases h with
  | @same o m hend hnow hstarted =>
    cases o with
    | returned a => exact hsame a m hnow hstarted
    | stalled => exact absurd rfl hend
    | crashed => exact .same (by simp) hnow hstarted
  | @cut _ a m hlate hstop hnow hcalls =>
    obtain ⟨b, hb, hstop⟩ := hcut a m hstop hnow
    change CutOff e stop _ (k' a m)
    rw [hb]
    obtain ⟨o, m₀⟩ := u
    cases o with
    | returned a₀ =>
      have hlate : e ≤ m₀.now := hlate.resolve_left (by simp)
      have hrest := hk a₀ m₀
      refine .cut (.inr (Nat.le_trans hlate hrest.now_le)) hstop hnow ?_
      exact hcalls.trans (hrest.callsBefore_eq hlate).symm
    | stalled => exact .cut (.inl rfl) hstop hnow hcalls
    | crashed => exact .cut (.inr (hlate.resolve_left (by simp))) hstop hnow hcalls

/-- The result of a wait that is interrupted. -/
def Interrupted (i : Interrupt) (r : Except Failure α) : Prop :=
  ∃ what last, r = .error (i.failure what last)

theorem cutOff_of_endsAt {l : Limits} {e : Instant} (h : l.endsAt = some e) (what : String)
    (last : Option Failure) (m : Moment w) :
    cutOff (α := α) l what last m =
      (.returned (.error ((l.interrupt (max e m.now)).failure what last)),
        { m with now := max e m.now }) := by
  simp only [cutOff, h]

theorem endedBy_of_le {l : Limits} {e t : Instant} (h : l.endsAt = some e) (hle : e ≤ t) :
    l.endedBy t = true :=
  Limits.endedBy_iff.2 ⟨e, h, hle⟩

theorem not_endedBy_of_lt {l : Limits} {t : Instant} (h : ∀ e, l.endsAt = some e → t < e) :
    l.endedBy t = false := by
  rw [Bool.eq_false_iff]
  intro hended
  obtain ⟨e, he, hle⟩ := Limits.endedBy_iff.1 hended
  exact absurd (h e he) (Nat.not_lt_of_le hle)

theorem not_endedBy_of_endsAt {l : Limits} {e t : Instant} (h : l.endsAt = some e) (hlt : t < e) :
    l.endedBy t = false := by
  refine not_endedBy_of_lt fun d hd => ?_
  obtain rfl := Option.some.inj (h.symm.trans hd)
  exact hlt

/-- What a wait does after an attempt. -/
def afterAttempt (w : World A) (l : Limits) (pacing : Nat) (what : String) (p : Probe A α)
    (n : Nat) (start : Instant) (r : Except Failure α) (m : Moment w) :
    Outcome (Except Failure α) × Moment w :=
  match r with
  | .ok a => (.returned (.ok a), m)
  | .error f =>
    if f.retryable then
      let next := max m.now (start + pacing)
      if l.endedBy next then cutOff l what (some f) m
      else pollFrom w l pacing what p n (some f) { m with now := next }
    else (.returned (.error f), m)

theorem raceOnce_of_live {l : Limits} {what : String} {p : Probe A α} {m : Moment w}
    (hlive : l.endedBy m.now = false) :
    raceOnce w l what p m =
      match p.run w l.endsAt m with
      | (.returned r, m') => (.returned r, m')
      | (.stalled, m') => cutOff l what none m'
      | (.crashed, m') => (.crashed, m') := by
  simp only [raceOnce, hlive, Bool.false_eq_true, if_false]
  rcases p.run w l.endsAt m with ⟨r | _ | _, m'⟩ <;> rfl

theorem pollFrom_succ {l : Limits} {pacing : Nat} {what : String} {p : Probe A α} {n : Nat}
    {last : Option Failure} {m : Moment w} (hstarts : Starts l pacing m) :
    pollFrom w l pacing what p (n + 1) last m =
      match p.run w l.endsAt m with
      | (.returned r, m') => afterAttempt w l pacing what p n m.now r m'
      | (.stalled, m') => cutOff l what last m'
      | (.crashed, m') => (.crashed, m') := by
  simp only [pollFrom, hstarts.reckoned, hstarts.live, Bool.false_eq_true, if_false]
  rcases p.run w l.endsAt m with ⟨(f | a) | _ | _, m'⟩ <;> rfl

theorem pollFrom_of_overrun {l : Limits} {pacing : Nat} {what : String} {p : Probe A α} {n : Nat}
    {last : Option Failure} {m : Moment w} (hclock : after? m.now pacing = none) :
    pollFrom w l pacing what p (n + 1) last m = (.crashed, m) := by
  simp only [pollFrom, hclock]

theorem pollFrom_of_endedBy {l : Limits} {pacing : Nat} {what : String} {p : Probe A α} {n : Nat}
    {last : Option Failure} {m : Moment w} (hclock : after? m.now pacing ≠ none)
    (hended : l.endedBy m.now = true) :
    pollFrom w l pacing what p (n + 1) last m = cutOff l what last m := by
  simp only [pollFrom, after?_eq_some hclock, hended, if_true]

theorem afterAttempt_precedes {l : Limits} {pacing : Nat} {what : String} {p : Probe A α} {n : Nat}
    {start : Instant} {r : Except Failure α} {m : Moment w} :
    m.Precedes (afterAttempt w l pacing what p n start r m).2 := by
  unfold afterAttempt
  split
  · exact .refl m
  · split
    · simp only
      split
      · exact cutOff_precedes ..
      · refine .trans ?_ (pollFrom_precedes ..)
        exact .of_started_eq (Nat.le_max_left _ _) rfl
    · exact .refl m

section Before

variable {l₀ l : Limits} {d e : Instant}

/-- Limits that end before the cut end the wait in the same way. -/
theorem cutOff_same (hends₀ : l₀.endsAt = some d) (hends : l.endsAt = some d) (hde : d < e)
    (hinterrupt : ∀ t < e, l.interrupt t = l₀.interrupt t) (what : String)
    (last : Option Failure) {m : Moment w} (hm : m.now < e) :
    cutOff (α := α) l₀ what last m = cutOff l what last m ∧
      (cutOff (α := α) l₀ what last m).1 ≠ .stalled ∧
      (cutOff (α := α) l₀ what last m).2.now < e := by
  have hlt : max d m.now < e := by lia
  rw [cutOff_of_endsAt hends₀, cutOff_of_endsAt hends, hinterrupt _ hlt]
  exact ⟨rfl, by simp, hlt⟩

theorem raceOnce_same (hends₀ : l₀.endsAt = some d) (hends : l.endsAt = some d) (hde : d < e)
    (hinterrupt : ∀ t < e, l.interrupt t = l₀.interrupt t) (what : String) (p : Probe A α)
    {m : Moment w} (hm : m.now < e) :
    raceOnce w l₀ what p m = raceOnce w l what p m ∧ (raceOnce w l₀ what p m).1 ≠ .stalled ∧
      (raceOnce w l₀ what p m).2.now < e := by
  have hended : l.endedBy m.now = l₀.endedBy m.now := by simp only [Limits.endedBy, hends, hends₀]
  unfold raceOnce
  rw [hended, hends, hends₀]
  by_cases hlive : d ≤ m.now
  · rw [endedBy_of_le hends₀ hlive]
    exact cutOff_same hends₀ hends hde hinterrupt what none hm
  · have hlt := p.run_now_lt (w := w) (Nat.lt_of_not_le hlive)
    rw [not_endedBy_of_endsAt hends₀ (Nat.lt_of_not_le hlive)]
    rcases hrun : p.run w (some d) m with ⟨r | _ | _, m'⟩ <;> rw [hrun] at hlt
    · exact ⟨rfl, by simp, Nat.lt_trans hlt hde⟩
    · exact cutOff_same hends₀ hends hde hinterrupt what none (Nat.lt_trans hlt hde)
    · exact ⟨rfl, by simp, Nat.lt_trans hlt hde⟩

theorem pollFrom_same (hends₀ : l₀.endsAt = some d) (hends : l.endsAt = some d) (hde : d < e)
    (hinterrupt : ∀ t < e, l.interrupt t = l₀.interrupt t) {pacing : Nat} (hpacing : 0 < pacing)
    (what : String) (p : Probe A α) {n n' : Nat} (last : Option Failure) {m : Moment w}
    (hm : m.now < e) (hn : d - m.now < n) (hn' : d - m.now < n') :
    pollFrom w l₀ pacing what p n last m = pollFrom w l pacing what p n' last m ∧
      (pollFrom w l₀ pacing what p n last m).1 ≠ .stalled ∧
      (pollFrom w l₀ pacing what p n last m).2.now < e := by
  induction n generalizing n' last m with
  | zero => exact absurd hn (Nat.not_lt_zero _)
  | succ n ih =>
    obtain _ | n' := n'
    · exact absurd hn' (Nat.not_lt_zero _)
    by_cases hclock : after? m.now pacing = none
    · rw [pollFrom_of_overrun hclock, pollFrom_of_overrun hclock]
      exact ⟨rfl, nofun, hm⟩
    by_cases hlive : d ≤ m.now
    · rw [pollFrom_of_endedBy hclock (endedBy_of_le hends₀ hlive),
        pollFrom_of_endedBy hclock (endedBy_of_le hends hlive)]
      exact cutOff_same hends₀ hends hde hinterrupt what last hm
    · have hlive := Nat.lt_of_not_le hlive
      have hreckoned := after?_eq_some hclock
      have hlt := p.run_now_lt (w := w) hlive
      rw [pollFrom_succ ⟨hreckoned, not_endedBy_of_endsAt hends₀ hlive⟩,
        pollFrom_succ ⟨hreckoned, not_endedBy_of_endsAt hends hlive⟩, hends₀, hends]
      rcases hrun : p.run w (some d) m with ⟨r | _ | _, m'⟩ <;> rw [hrun] at hlt
      · have hlt' : m'.now < e := Nat.lt_trans hlt hde
        cases r with
        | ok a =>
          simp only [afterAttempt]
          exact ⟨trivial, by simp, hlt'⟩
        | error f =>
          cases hf : f.retryable with
          | false =>
            simp only [afterAttempt, hf, Bool.false_eq_true, if_false]
            exact ⟨trivial, by simp, hlt'⟩
          | true =>
            simp only [afterAttempt, hf, if_true]
            by_cases hpause : d ≤ max m'.now (m.now + pacing)
            · rw [endedBy_of_le hends₀ hpause, endedBy_of_le hends hpause]
              exact cutOff_same hends₀ hends hde hinterrupt what (some f) hlt'
            · have hnext := Nat.lt_of_not_le hpause
              rw [not_endedBy_of_endsAt hends₀ hnext, not_endedBy_of_endsAt hends hnext]
              simp only [Bool.false_eq_true, if_false]
              -- the pause has used up a millisecond at least, and one attempt
              refine ih (some f) ?_ ?_ ?_ <;> simp only <;> lia
      · exact cutOff_same hends₀ hends hde hinterrupt what last (Nat.lt_trans hlt hde)
      · exact ⟨rfl, nofun, Nat.lt_trans hlt hde⟩

end Before

section At

variable {l₀ l : Limits} {e : Instant} {i : Interrupt}

theorem cutOff_late (hlimit : ∀ d, l₀.endsAt = some d → e ≤ d) (what : String)
    (last : Option Failure) (m : Moment w) :
    (cutOff (α := α) l₀ what last m).1 = .stalled ∨
      e ≤ (cutOff (α := α) l₀ what last m).2.now := by
  cases hends : l₀.endsAt with
  | none =>
    left
    simp only [cutOff, hends]
  | some d =>
    right
    rw [cutOff_of_endsAt hends]
    exact Nat.le_trans (hlimit d hends) (Nat.le_max_left _ _)

theorem cutOff_started (what : String) (last : Option Failure) (m : Moment w) :
    (cutOff (α := α) l₀ what last m).2.started = m.started := by
  unfold cutOff
  split <;> rfl

/-- The second run is cut off while the first goes on from a moment that comes no earlier. -/
theorem CutOff.of_interrupted (hends : l.endsAt = some e) (hinterrupt : l.interrupt e = i)
    (what : String) (last : Option Failure) {u : Outcome (Except Failure α) × Moment w}
    {m : Moment w} (hnow : m.now < e) (hlate : u.1 = .stalled ∨ e ≤ u.2.now)
    (hcalls : m.started = u.2.callsBefore e) :
    CutOff e (Interrupted i) u (cutOff l what last m) := by
  have hmax : max e m.now = e := Nat.max_eq_left (Nat.le_of_lt hnow)
  rw [cutOff_of_endsAt hends, hmax, hinterrupt]
  exact .cut hlate ⟨what, last, rfl⟩ rfl hcalls

/-- An attempt that is raced against the limits, and what follows it if it returns. -/
theorem attempt_cutOff (hlimit : ∀ d, l₀.endsAt = some d → e ≤ d) (hends : l.endsAt = some e)
    (hinterrupt : l.interrupt e = i) (what : String) (last : Option Failure) (p : Probe A α)
    {m : Moment w} (hm : m.now < e) (hstarted : ∀ c ∈ m.started, c.1 < e)
    {rest rest' : Except Failure α → Moment w → Outcome (Except Failure α) × Moment w}
    (hsame : ∀ r m', m'.now < e → (∀ c ∈ m'.started, c.1 < e) →
      CutOff e (Interrupted i) (rest r m') (rest' r m'))
    (hrest : ∀ r (m' : Moment w), m'.Precedes (rest r m').2) :
    CutOff e (Interrupted i)
      (match p.run w l₀.endsAt m with
        | (.returned r, m') => rest r m'
        | (.stalled, m') => cutOff l₀ what last m'
        | (.crashed, m') => (.crashed, m'))
      (match p.run w l.endsAt m with
        | (.returned r, m') => rest' r m'
        | (.stalled, m') => cutOff l what last m'
        | (.crashed, m') => (.crashed, m')) := by
  have hlt := p.run_now_lt (w := w) hm
  rw [hends]
  rcases p.run_cut hlimit hm hstarted with ⟨o, m', hend, hu, hv, hnow⟩ | ⟨hlate, hstalls, hcalls⟩
  · have hprec := p.run_precedes (w := w) l₀.endsAt m
    rw [hu] at hprec
    have hstarted' := hprec.started_before hstarted hnow
    rw [hu, hv]
    cases o with
    | returned r => exact hsame r m' hnow hstarted'
    | stalled => exact absurd rfl hend
    | crashed => exact .same (by simp) hnow hstarted'
  · rcases hv : p.run w (some e) m with ⟨o, m'⟩
    rw [hv] at hlt hcalls hstalls
    obtain rfl : o = .stalled := hstalls
    -- however the first run ends its attempt, it is not before the cut
    rcases hu : p.run w l₀.endsAt m with ⟨r | _ | _, m₀⟩ <;> rw [hu] at hlate hcalls
    · have hlate : e ≤ m₀.now := hlate.resolve_left (by simp)
      have hrest := hrest r m₀
      refine .of_interrupted hends hinterrupt what last hlt
        (.inr (Nat.le_trans hlate hrest.now_le)) ?_
      exact hcalls.trans (hrest.callsBefore_eq hlate).symm
    · refine .of_interrupted hends hinterrupt what last hlt (cutOff_late hlimit ..) ?_
      rw [hcalls]
      simp only [Moment.callsBefore, cutOff_started]
    · exact .of_interrupted hends hinterrupt what last hlt
        (.inr (hlate.resolve_left (by simp))) hcalls

theorem raceOnce_cutOff (hlimit : ∀ d, l₀.endsAt = some d → e ≤ d) (hends : l.endsAt = some e)
    (hinterrupt : l.interrupt e = i) (what : String) (p : Probe A α) {m : Moment w}
    (hm : m.now < e) (hstarted : ∀ c ∈ m.started, c.1 < e) :
    CutOff e (Interrupted i) (raceOnce w l₀ what p m) (raceOnce w l what p m) := by
  have hlive : l.endedBy m.now = false := not_endedBy_of_endsAt hends hm
  have hlive₀ : l₀.endedBy m.now = false :=
    not_endedBy_of_lt fun d hd => Nat.lt_of_lt_of_le hm (hlimit d hd)
  have hsame (r : Except Failure α) (m' : Moment w) (hnow : m'.now < e)
      (hstarted' : ∀ c ∈ m'.started, c.1 < e) :
      CutOff e (Interrupted i) (.returned r, m') (.returned r, m') := .same nofun hnow hstarted'
  rw [raceOnce_of_live hlive, raceOnce_of_live hlive₀]
  exact attempt_cutOff hlimit hends hinterrupt what none p hm hstarted hsame fun _ m' => .refl m'

/-- An attempt that ends before the cut in both runs, if what is left of them is cut off. -/
theorem afterAttempt_cutOff (hlimit : ∀ d, l₀.endsAt = some d → e ≤ d) (hends : l.endsAt = some e)
    (hinterrupt : l.interrupt e = i) {pacing : Nat} {what : String} {p : Probe A α} {n n' : Nat}
    {start : Instant} (r : Except Failure α) {m : Moment w} (hm : m.now < e)
    (hstarted : ∀ c ∈ m.started, c.1 < e)
    (hrest : ∀ f, max m.now (start + pacing) < e →
      CutOff e (Interrupted i)
        (pollFrom w l₀ pacing what p n (some f) { m with now := max m.now (start + pacing) })
        (pollFrom w l pacing what p n' (some f) { m with now := max m.now (start + pacing) })) :
    CutOff e (Interrupted i) (afterAttempt w l₀ pacing what p n start r m)
      (afterAttempt w l pacing what p n' start r m) := by
  cases r with
  | ok a => exact .same nofun hm hstarted
  | error f =>
    cases hf : f.retryable with
    | false =>
      simp only [afterAttempt, hf, Bool.false_eq_true, if_false]
      exact .same nofun hm hstarted
    | true =>
      simp only [afterAttempt, hf, if_true]
      by_cases hpause : e ≤ max m.now (start + pacing)
      · rw [endedBy_of_le hends hpause]
        have hcalls := Moment.callsBefore_eq_started hstarted
        split
        · refine .of_interrupted hends hinterrupt what (some f) hm (cutOff_late hlimit ..) ?_
          simpa only [Moment.callsBefore, cutOff_started] using hcalls.symm
        · have hprec := pollFrom_precedes l₀ pacing what p n (some f)
            { m with now := max m.now (start + pacing) }
          refine .of_interrupted hends hinterrupt what (some f) hm
            (.inr (Nat.le_trans hpause hprec.now_le)) ?_
          exact hcalls.symm.trans (hprec.callsBefore_eq hpause).symm
      · have hnext := Nat.lt_of_not_le hpause
        rw [not_endedBy_of_endsAt hends hnext,
          not_endedBy_of_lt (l := l₀) fun d hd => Nat.lt_of_lt_of_le hnext (hlimit d hd)]
        exact hrest f hnext

theorem pollFrom_cutOff (hlimit : ∀ d, l₀.endsAt = some d → e ≤ d) (hends : l.endsAt = some e)
    (hinterrupt : l.interrupt e = i) {pacing : Nat} (hpacing : 0 < pacing) (what : String)
    (p : Probe A α) {n n' : Nat} (last : Option Failure) {m : Moment w} (hm : m.now < e)
    (hstarted : ∀ c ∈ m.started, c.1 < e) (hn : e - m.now < n) (hn' : e - m.now < n') :
    CutOff e (Interrupted i) (pollFrom w l₀ pacing what p n last m)
      (pollFrom w l pacing what p n' last m) := by
  induction n generalizing n' last m with
  | zero => exact absurd hn (Nat.not_lt_zero _)
  | succ n ih =>
    obtain _ | n' := n'
    · exact absurd hn' (Nat.not_lt_zero _)
    by_cases hclock : after? m.now pacing = none
    · rw [pollFrom_of_overrun hclock, pollFrom_of_overrun hclock]
      exact .same nofun hm hstarted
    have hreckoned := after?_eq_some hclock
    rw [pollFrom_succ (l := l) ⟨hreckoned, not_endedBy_of_endsAt hends hm⟩,
      pollFrom_succ (l := l₀)
        ⟨hreckoned, not_endedBy_of_lt fun d hd => Nat.lt_of_lt_of_le hm (hlimit d hd)⟩]
    refine attempt_cutOff hlimit hends hinterrupt what last p hm hstarted
      (fun r m' hnow hstarted' => ?_) fun _ _ => afterAttempt_precedes
    refine afterAttempt_cutOff hlimit hends hinterrupt r hnow hstarted' fun f hnext => ?_
    refine ih (some f) hnext hstarted' ?_ ?_ <;> simp only <;> lia

end At

section CutAt

variable {l₀ l : Limits} {e : Instant} {i : Interrupt}

/-- Either the first limits end before the cut, and the second with them, or the second end at the
cut. -/
theorem Limits.CutAt.endsAt_cases (h : l₀.CutAt l e i) :
    (∃ d, l₀.endsAt = some d ∧ l.endsAt = some d ∧ d < e) ∨
      (l.endsAt = some e ∧ ∀ d, l₀.endsAt = some d → e ≤ d) := by
  rw [h.ends]
  cases l₀.endsAt with
  | none => simp
  | some d =>
    rcases Nat.lt_or_ge d e with hde | hed
    · exact .inl ⟨d, rfl, congrArg some (Nat.min_eq_right (Nat.le_of_lt hde)), hde⟩
    · exact .inr ⟨congrArg some (Nat.min_eq_left hed), by simpa using hed⟩

/-- A single attempt is cut off where its limits end. -/
theorem Limits.CutAt.raceOnce (h : l₀.CutAt l e i) (what : String) (p : Probe A α)
    {m : Moment w} (hm : m.now < e) (hstarted : ∀ c ∈ m.started, c.1 < e) :
    CutOff e (Interrupted i) (raceOnce w l₀ what p m) (raceOnce w l what p m) := by
  rcases h.endsAt_cases with ⟨d, hends₀, hends, hde⟩ | ⟨hends, hlimit⟩
  · obtain ⟨heq, hend, hnow⟩ := raceOnce_same hends₀ hends hde h.same_interrupt what p hm
    rw [← heq]
    exact .same hend hnow ((raceOnce_precedes ..).started_before hstarted hnow)
  · exact raceOnce_cutOff hlimit hends h.interrupt_eq what p hm hstarted

/-- A wait is cut off where its limits end. -/
theorem Limits.CutAt.pollFrom (h : l₀.CutAt l e i) {pacing : Nat} (hpacing : 0 < pacing)
    (what : String) (p : Probe A α) {patience : Nat} (hpatience : e < patience) (patience' : Nat)
    {m : Moment w} (hm : m.now < e) (hstarted : ∀ c ∈ m.started, c.1 < e) :
    CutOff e (Interrupted i)
      (pollFrom w l₀ pacing what p (attemptsUntil patience l₀.endsAt m.now) none m)
      (pollFrom w l pacing what p (attemptsUntil patience' l.endsAt m.now) none m) := by
  rcases h.endsAt_cases with ⟨d, hends₀, hends, hde⟩ | ⟨hends, hlimit⟩
  · have hn : ∀ n, d - m.now < attemptsUntil n (some d) m.now := by
      intro n
      simp only [attemptsUntil, Option.map_some, Option.getD_some]
      lia
    obtain ⟨heq, hend, hnow⟩ := pollFrom_same hends₀ hends hde h.same_interrupt hpacing what p
      none hm (hends₀ ▸ hn patience) (hends ▸ hn patience')
    rw [← heq]
    exact .same hend hnow ((pollFrom_precedes ..).started_before hstarted hnow)
  · have hn : e - m.now < attemptsUntil patience l₀.endsAt m.now := by
      simp only [attemptsUntil]
      lia
    have hn' : e - m.now < attemptsUntil patience' l.endsAt m.now := by
      simp only [attemptsUntil, hends, Option.map_some, Option.getD_some]
      lia
    exact pollFrom_cutOff hlimit hends h.interrupt_eq hpacing what p none hm hstarted hn hn'

end CutAt

end Reachability.Wait
