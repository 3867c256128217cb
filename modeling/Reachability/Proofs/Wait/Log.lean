import Reachability.Wait.Run

namespace Reachability.Wait

variable {A : Api} {w : World A} {α β : Type}

/-- The second moment comes later in the same run: the calls since the first one started between
the two. -/
structure Moment.Precedes (m m' : Moment w) : Prop where
  now_le : m.now ≤ m'.now
  started : ∃ calls, m'.started = calls ++ m.started ∧ ∀ c ∈ calls, m.now ≤ c.1 ∧ c.1 ≤ m'.now

namespace Moment

/-- The calls of a moment that started before an instant. -/
def callsBefore (m : Moment w) (e : Instant) : List (Instant × A.Call) :=
  m.started.filter fun c => decide (c.1 < e)

theorem Precedes.of_started_eq {m m' : Moment w} (hnow : m.now ≤ m'.now)
    (hstarted : m'.started = m.started) : m.Precedes m' :=
  ⟨hnow, [], by simpa using hstarted, by simp⟩

theorem Precedes.refl (m : Moment w) : m.Precedes m := .of_started_eq (Nat.le_refl _) rfl

theorem Precedes.trans {m m' m'' : Moment w} (h : m.Precedes m') (h' : m'.Precedes m'') :
    m.Precedes m'' := by
  obtain ⟨calls, hcalls, hlate⟩ := h.started
  obtain ⟨calls', hcalls', hlate'⟩ := h'.started
  refine ⟨Nat.le_trans h.now_le h'.now_le, calls' ++ calls, by rw [hcalls', hcalls]; simp, ?_⟩
  intro c hc
  rcases List.mem_append.1 hc with hc | hc
  · exact ⟨Nat.le_trans h.now_le (hlate' c hc).1, (hlate' c hc).2⟩
  · exact ⟨(hlate c hc).1, Nat.le_trans (hlate c hc).2 h'.now_le⟩

theorem begun_precedes (m : Moment w) (c : A.Call) (s : w.State) : m.Precedes (m.begun c s) :=
  ⟨Nat.le_refl _, [(m.now, c)], rfl, by simp [Moment.begun]⟩

/-- What happens from an instant on adds no call that started before it. -/
theorem Precedes.callsBefore_eq {m m' : Moment w} (h : m.Precedes m') {e : Instant}
    (he : e ≤ m.now) : m'.callsBefore e = m.callsBefore e := by
  obtain ⟨calls, hcalls, hlate⟩ := h.started
  have hnone : calls.filter (fun c => decide (c.1 < e)) = [] := by
    rw [List.filter_eq_nil_iff]
    intro c hc
    have hle := (hlate c hc).1
    simp only [decide_eq_true_eq]
    lia
  simp [callsBefore, hcalls, hnone]

/-- As long as an instant has not come, every call started before it. -/
theorem Precedes.started_before {m m' : Moment w} (h : m.Precedes m') {e : Instant}
    (hm : ∀ c ∈ m.started, c.1 < e) (he : m'.now < e) : ∀ c ∈ m'.started, c.1 < e := by
  obtain ⟨calls, hcalls, hlate⟩ := h.started
  intro c hc
  rw [hcalls] at hc
  rcases List.mem_append.1 hc with hc | hc
  · exact Nat.lt_of_le_of_lt (hlate c hc).2 he
  · exact hm c hc

theorem callsBefore_eq_started {m : Moment w} {e : Instant} (h : ∀ c ∈ m.started, c.1 < e) :
    m.callsBefore e = m.started := by
  simpa [callsBefore] using h

end Moment

section Ask

variable {limit : Option Instant} {c : A.Call} {next : Except Failure (A.Answer c) → Probe A α}
  {m : Moment w} {s : w.State} {delay : Nat}
  {finish : w.State → w.State × Except Failure (A.Answer c)}

/-- The moment at which a call is answered. -/
def Moment.answered (m : Moment w) (c : A.Call) (delay : Nat) (s : w.State) : Moment w :=
  { m.begun c s with now := m.now + delay }

theorem Moment.answered_precedes : m.Precedes (m.answered c delay s) :=
  (m.begun_precedes c s).trans (.of_started_eq (Nat.le_add_right _ _) rfl)

/-- A call that never ends. -/
theorem Probe.run_ask_of_hanging (h : w.start m.state c = (s, none)) :
    (ask c next).run w limit m = (.stalled, m.begun c s) := by
  simp only [Probe.run, h]

/-- A call that ends at the limit or later. -/
theorem Probe.run_ask_of_late (h : w.start m.state c = (s, some (delay, finish)))
    (hlate : ∃ e, limit = some e ∧ e ≤ m.now + delay) :
    (ask c next).run w limit m = (.stalled, m.begun c s) := by
  obtain ⟨e, rfl, hle⟩ := hlate
  simp [Probe.run, h, Moment.begun, hle]

/-- A call that ends before the limit. -/
theorem Probe.run_ask_of_answered (h : w.start m.state c = (s, some (delay, finish)))
    (hearly : ∀ e, limit = some e → m.now + delay < e) :
    (ask c next).run w limit m =
      (next (finish s).2).run w limit (m.answered c delay (finish s).1) := by
  cases limit with
  | none => simp [Probe.run, h, Moment.begun, Moment.answered]
  | some e =>
    have hle : ¬ e ≤ m.now + delay := Nat.not_le_of_lt (hearly e rfl)
    simp [Probe.run, h, Moment.begun, Moment.answered, hle]

/-- A call is cut off while it is under way, or it is answered before the limit. -/
theorem Probe.run_ask_cases (limit : Option Instant) (c : A.Call)
    (next : Except Failure (A.Answer c) → Probe A α) (m : Moment w) :
    (ask c next).run w limit m = (.stalled, m.begun c (w.start m.state c).1) ∨
    ∃ s delay finish, w.start m.state c = (s, some (delay, finish)) ∧
      (ask c next).run w limit m =
        (next (finish s).2).run w limit (m.answered c delay (finish s).1) := by
  rcases hstart : w.start m.state c with ⟨s, _ | ⟨delay, finish⟩⟩
  · exact .inl (run_ask_of_hanging hstart)
  · by_cases hlate : ∃ e, limit = some e ∧ e ≤ m.now + delay
    · exact .inl (run_ask_of_late hstart hlate)
    · refine .inr ⟨s, delay, finish, rfl, run_ask_of_answered hstart fun e he => ?_⟩
      exact Nat.lt_of_not_le fun hle => hlate ⟨e, he, hle⟩

end Ask

theorem Probe.run_precedes (limit : Option Instant) (p : Probe A α) (m : Moment w) :
    m.Precedes (p.run w limit m).2 := by
  induction p generalizing m with
  | done r => exact .refl m
  | crash => exact .refl m
  | ask c next ih =>
    rcases run_ask_cases limit c next m with hcut | ⟨s, delay, finish, -, hrun⟩
    · rw [hcut]
      exact m.begun_precedes c _
    · rw [hrun]
      exact Moment.answered_precedes.trans (ih _ _)

theorem cutOff_precedes (l : Limits) (what : String) (last : Option Failure) (m : Moment w) :
    m.Precedes (cutOff (α := α) l what last m).2 := by
  unfold cutOff
  split
  · exact .of_started_eq (Nat.le_max_right _ _) rfl
  · exact .refl m

theorem raceOnce_precedes (l : Limits) (what : String) (p : Probe A α) (m : Moment w) :
    m.Precedes (raceOnce w l what p m).2 := by
  have hprobe := p.run_precedes l.endsAt m
  unfold raceOnce
  split
  · exact cutOff_precedes ..
  · rcases hrun : p.run w l.endsAt m with ⟨r | _ | _, m'⟩ <;> rw [hrun] at hprobe
    · exact hprobe
    · exact hprobe.trans (cutOff_precedes ..)
    · exact hprobe

/-- A wait starts an attempt: the clock can reckon when the next one is due, and the wait has not
ended. -/
structure Starts (l : Limits) (pacing : Nat) (m : Moment w) : Prop where
  reckoned : after? m.now pacing = some (m.now + pacing)
  live : l.endedBy m.now = false

/-- The pause can be reckoned since a later instant can. -/
theorem Starts.of_reckoned {l : Limits} {pacing pacing' : Nat} {m : Moment w} {t : Instant}
    (hle : m.now + pacing ≤ t + pacing') (hclock : after? t pacing' ≠ none)
    (hlive : l.endedBy m.now = false) : Starts l pacing m :=
  ⟨after?_eq_some (after?_ne_none_of_le hle hclock), hlive⟩

/-- What a wait can come to from a moment on, attempt by attempt. -/
inductive Polling (w : World A) (l : Limits) (pacing : Nat) (what : String) (p : Probe A α) :
    Moment w → Outcome (Except Failure α) × Moment w → Prop
  | unobserved (m : Moment w) : Polling w l pacing what p m (.stalled, m)
  | overrun {m : Moment w} (hclock : after? m.now pacing = none) :
      Polling w l pacing what p m (.crashed, m)
  | ended {m : Moment w} (last : Option Failure) (hended : l.endedBy m.now = true) :
      Polling w l pacing what p m (cutOff l what last m)
  | unanswered {m m' : Moment w} (last : Option Failure) (hstarts : Starts l pacing m)
      (hrun : p.run w l.endsAt m = (.stalled, m')) :
      Polling w l pacing what p m (cutOff l what last m')
  | crashed {m m' : Moment w} (hstarts : Starts l pacing m)
      (hrun : p.run w l.endsAt m = (.crashed, m')) : Polling w l pacing what p m (.crashed, m')
  | decided {m m' : Moment w} {r : Except Failure α} (hstarts : Starts l pacing m)
      (hrun : p.run w l.endsAt m = (.returned r, m'))
      (hr : ∀ f, r = .error f → f.retryable = false) : Polling w l pacing what p m (.returned r, m')
  | awaited {m m' : Moment w} {f : Failure} (hstarts : Starts l pacing m)
      (hrun : p.run w l.endsAt m = (.returned (.error f), m')) (hf : f.retryable = true)
      (hpause : l.endedBy (max m'.now (m.now + pacing)) = true) :
      Polling w l pacing what p m (cutOff l what (some f) m')
  | again {m m' : Moment w} {f : Failure} {u : Outcome (Except Failure α) × Moment w}
      (hstarts : Starts l pacing m) (hrun : p.run w l.endsAt m = (.returned (.error f), m'))
      (hf : f.retryable = true) (hpause : l.endedBy (max m'.now (m.now + pacing)) = false)
      (hrest : Polling w l pacing what p { m' with now := max m'.now (m.now + pacing) } u) :
      Polling w l pacing what p m u

theorem pollFrom_polling (l : Limits) (pacing : Nat) (what : String) (p : Probe A α)
    (attempts : Nat) (last : Option Failure) (m : Moment w) :
    Polling w l pacing what p m (pollFrom w l pacing what p attempts last m) := by
  induction attempts generalizing last m with
  | zero => exact .unobserved m
  | succ attempts ih =>
    rw [pollFrom]
    cases hclock : after? m.now pacing with
    | none => exact .overrun hclock
    | some due =>
      obtain rfl := eq_of_after?_eq_some hclock
      cases hlive : l.endedBy m.now with
      | true => exact .ended last hlive
      | false =>
        have hstarts : Starts l pacing m := ⟨hclock, hlive⟩
        simp only [Bool.false_eq_true, if_false]
        rcases hrun : p.run w l.endsAt m with ⟨(f | a) | _ | _, m'⟩
        · dsimp only
          cases hf : f.retryable with
          | false =>
            refine .decided hstarts hrun fun _ h => ?_
            rwa [← Except.error.inj h]
          | true =>
            rw [if_pos rfl]
            cases hpause : l.endedBy (max m'.now (m.now + pacing)) with
            | true => exact .awaited hstarts hrun hf hpause
            | false => exact .again hstarts hrun hf hpause (ih _ _)
        · exact .decided hstarts hrun nofun
        · exact .unanswered last hstarts hrun
        · exact .crashed hstarts hrun

theorem Polling.precedes {l : Limits} {pacing : Nat} {what : String} {p : Probe A α}
    {m : Moment w} {u : Outcome (Except Failure α) × Moment w}
    (h : Polling w l pacing what p m u) : m.Precedes u.2 := by
  have hprobe {m m' : Moment w} {o : Outcome (Except Failure α)}
      (hrun : p.run w l.endsAt m = (o, m')) : m.Precedes m' := by
    simpa only [hrun] using p.run_precedes l.endsAt m
  induction h with
  | unobserved m => exact .refl m
  | overrun => exact .refl _
  | ended => exact cutOff_precedes ..
  | unanswered last _ hrun => exact (hprobe hrun).trans (cutOff_precedes ..)
  | crashed _ hrun => exact hprobe hrun
  | decided _ hrun => exact hprobe hrun
  | awaited _ hrun => exact (hprobe hrun).trans (cutOff_precedes ..)
  | again _ hrun _ _ _ ih =>
    refine (hprobe hrun).trans (.trans ?_ ih)
    exact .of_started_eq (Nat.le_max_left _ _) rfl

theorem pollFrom_precedes (l : Limits) (pacing : Nat) (what : String) (p : Probe A α)
    (attempts : Nat) (last : Option Failure) (m : Moment w) :
    m.Precedes (pollFrom w l pacing what p attempts last m).2 :=
  (pollFrom_polling ..).precedes

end Reachability.Wait
