import Reachability.Proofs.Wait.Cut

namespace Reachability.Wait

variable {α : Type}

/-- The course of an attempt: how long it takes, and how it ends, unless it never does. -/
structure Course (α : Type) where
  takes : Nat := 0
  ends : Outcome (Except Failure α)

/-- A wait as its user sees it: the courses that the attempts take, whatever their number, how far
apart they start at least, and when the wait is asked for. -/
structure Schedule (α : Type) where
  attempts : Nat → Course α
  pacing : Nat
  pacing_pos : 0 < pacing
  asked : Instant

namespace Schedule

/-- An attempt is one call, answered with the judgement on it if there is one. -/
def api (α : Type) : Api := ⟨Unit, fun _ => Option (Except Failure α)⟩

/-- How a call goes whose attempt takes this course. -/
def answerTo (c : Course α) :
    Option (Nat × (Nat → Nat × Except Failure (Option (Except Failure α)))) :=
  match c.ends with
  | .stalled => none
  | .crashed => some (c.takes, fun k => (k, .ok none))
  | .returned r => some (c.takes, fun k => (k, .ok (some r)))

/-- The world in which the attempts take their courses; its state counts the attempts made. -/
def world (s : Schedule α) : World (api α) where
  State := Nat
  start k _ := (k + 1, answerTo (s.attempts k))
  choose k _ := (k, ⟨0, Nat.succ_pos _⟩)

/-- One attempt. -/
def probe : Probe (api α) α :=
  .ask (A := api α) () fun answer =>
    match answer with
    | .ok judgement => .ofJudgement judgement
    | .error f => .done (.error f)

/-- The wait, for an observer of some patience. -/
def run (s : Schedule α) (l : Limits) (what : String) (patience : Nat) :
    Outcome (Except Failure α) × Moment s.world :=
  (Procedure.poll s.pacing what probe .done).run s.world patience l
    { now := s.asked, state := (0 : Nat) }

/-- The instant at which an attempt starts if all those before it fail and may be repeated. -/
def start (s : Schedule α) : Nat → Instant
  | 0 => s.asked
  | k + 1 => max (s.start k + s.pacing) (s.start k + (s.attempts k).takes)

/-- The instant at which an attempt ends, unless it never does. -/
def finish (s : Schedule α) (k : Nat) : Instant := s.start k + (s.attempts k).takes

/-- The attempt fails, and the wait may try again. -/
def Retries (s : Schedule α) (k : Nat) (f : Failure) : Prop :=
  (s.attempts k).ends = .returned (.error f) ∧ f.retryable = true

/-- The attempt succeeds or fails for good. -/
def Decides (s : Schedule α) (k : Nat) (r : Except Failure α) : Prop :=
  (s.attempts k).ends = .returned r ∧ ∀ f, r = .error f → f.retryable = false

/-- The wait comes to the attempt before it ends, and can reckon when the next one is due. -/
structure Made (s : Schedule α) (l : Limits) (k : Nat) : Prop where
  retried : ∀ j < k, ∃ f, s.Retries j f
  reckoned : after? (s.start k) s.pacing ≠ none
  live : l.endedBy (s.start k) = false

/-- The attempt decides the wait before the wait ends. -/
def Concludes (s : Schedule α) (l : Limits) (k : Nat) (r : Except Failure α) : Prop :=
  s.Made l k ∧ s.Decides k r ∧ l.endedBy (s.finish k) = false

/-- The attempt fails before the wait ends, and the wait may try again. -/
def Fails (s : Schedule α) (l : Limits) (k : Nat) (f : Failure) : Prop :=
  s.Made l k ∧ s.Retries k f ∧ l.endedBy (s.finish k) = false

/-- The wait comes to the attempt, and the next one would be due at an instant beyond the clock. For
the first attempt that is reckoned even if the wait has ended before. -/
structure Overruns (s : Schedule α) (l : Limits) (k : Nat) : Prop where
  failed : ∀ j < k, ∃ f, s.Fails l j f
  live : 0 < k → l.endedBy (s.start k) = false
  unreckoned : after? (s.start k) s.pacing = none

/-- The wait crashes at the attempt: before it, or as the attempt does before the wait ends. -/
inductive Crashes (s : Schedule α) (l : Limits) : Nat → Instant → Prop
  | pause {k : Nat} (h : s.Overruns l k) : Crashes s l k (s.start k)
  | attempt {k : Nat} (hmade : s.Made l k) (hends : (s.attempts k).ends = .crashed)
      (hlive : l.endedBy (s.finish k) = false) : Crashes s l k (s.finish k)

/-- The failure of the last attempt that ended before the wait did, if there was any. -/
def LastFailure (s : Schedule α) (l : Limits) : Option Failure → Prop
  | none => ∀ k f, ¬ s.Fails l k f
  | some f => ∃ k, s.Fails l k f ∧ ∀ j g, s.Fails l j g → j ≤ k

/-- What a run of the wait has to do with its schedule. Where nothing ends the wait, the observer
sees as many attempts as there is patience for. -/
structure Follows (s : Schedule α) (l : Limits) (what : String) (patience : Nat)
    (run : Outcome (Except Failure α) × Moment s.world) : Prop where
  apart : ∀ k, s.finish k ≤ s.start (k + 1)
  starts : ∃ n, run.2.calls = (List.range n).map (fun k => (s.start k, ())) ∧
    ∀ k, k < n ↔ s.Made l k ∧ (l.endsAt = none → k < patience)
  concluded : ∀ k r, s.Concludes l k r → (l.endsAt = none → k < patience) →
    run.1 = .returned r ∧ run.2.now = s.finish k
  crashed : ∀ k t, s.Crashes l k t → (l.endsAt = none → k < patience) →
    run.1 = .crashed ∧ run.2.now = t
  interrupted : (∀ k r, ¬ s.Concludes l k r) → (∀ k t, ¬ s.Crashes l k t) → ∀ e, l.endsAt = some e →
    ∃ (i : Interrupt) (last : Option Failure), run.1 = .returned (.error (i.failure what last)) ∧
      run.2.now = max e s.asked ∧ s.LastFailure l last ∧
      (i = .cancelled ↔
        ∃ c, l.cancelledAt = some c ∧ (c ≤ s.asked ∨ ∀ d, l.deadline = some d → c ≤ d))
  endless : (∀ k < patience, ∀ r, ¬ s.Concludes l k r) → (∀ k < patience, ∀ t, ¬ s.Crashes l k t) →
    l.endsAt = none → run.1 = .stalled

theorem start_le_finish (s : Schedule α) (k : Nat) : s.start k ≤ s.finish k := Nat.le_add_right _ _

theorem finish_le_start (s : Schedule α) {j k : Nat} (h : j < k) : s.finish j ≤ s.start k := by
  induction k with
  | zero => cases h
  | succ k ih =>
    rcases Nat.lt_succ_iff_lt_or_eq.1 h with h | rfl
    · have hstep : s.start k + s.pacing ≤ s.start (k + 1) := Nat.le_max_left _ _
      exact Nat.le_trans (ih h) (Nat.le_trans (Nat.le_add_right _ _) hstep)
    · exact Nat.le_max_right _ _

theorem start_mono (s : Schedule α) {j k : Nat} (h : j ≤ k) : s.start j ≤ s.start k := by
  rcases Nat.lt_or_eq_of_le h with h | rfl
  · exact Nat.le_trans (s.start_le_finish j) (s.finish_le_start h)
  · exact Nat.le_refl _

theorem asked_add_le_start (s : Schedule α) (k : Nat) : s.asked + k ≤ s.start k := by
  induction k with
  | zero => exact Nat.le_refl _
  | succ k ih =>
    have hstep : s.start k + s.pacing ≤ s.start (k + 1) := Nat.le_max_left _ _
    have hpacing := s.pacing_pos
    lia

theorem not_endedBy_of_le {l : Limits} {t t' : Instant} (h : t ≤ t') (h' : l.endedBy t' = false) :
    l.endedBy t = false := by
  rw [Bool.eq_false_iff] at h' ⊢
  intro hended
  obtain ⟨e, he, hle⟩ := Limits.endedBy_iff.1 hended
  exact h' (Limits.endedBy_iff.2 ⟨e, he, Nat.le_trans hle h⟩)

theorem Retries.not_decides {s : Schedule α} {k : Nat} {f : Failure} {r : Except Failure α}
    (h : s.Retries k f) : ¬ s.Decides k r := by
  intro hr
  have heq := h.1.symm.trans hr.1
  cases heq
  exact absurd h.2 (by simp [hr.2 f rfl])

theorem Made.of_lt {s : Schedule α} {l : Limits} {j k : Nat} (h : s.Made l k) (hj : j < k) :
    ∃ f, s.Fails l j f := by
  obtain ⟨f, hf⟩ := h.retried j hj
  have hstart := s.start_mono (Nat.le_of_lt hj)
  refine ⟨f, ⟨fun i hi => h.retried i (Nat.lt_trans hi hj), ?_, ?_⟩, hf, ?_⟩
  · exact after?_ne_none_of_le (Nat.add_le_add_right hstart _) h.reckoned
  · exact not_endedBy_of_le hstart h.live
  · exact not_endedBy_of_le (s.finish_le_start hj) h.live

/-- The attempts up to one that is made are made. -/
theorem Made.of_le {s : Schedule α} {l : Limits} {j k : Nat} (h : s.Made l k) (hj : j ≤ k) :
    s.Made l j := by
  rcases Nat.lt_or_eq_of_le hj with hj | rfl
  · exact (h.of_lt hj).elim fun _ hf => hf.1
  · exact h

/-- No attempt follows one that does not fail in time. -/
theorem Made.le {s : Schedule α} {l : Limits} {j k : Nat} (h : s.Made l j)
    (hk : ∀ f, ¬ s.Fails l k f) : j ≤ k := by
  apply Nat.le_of_not_lt
  intro hlt
  obtain ⟨f, hf⟩ := h.of_lt hlt
  exact hk f hf

/-- An attempt whose pause cannot be reckoned comes after all those that are made. -/
theorem Overruns.lt {s : Schedule α} {l : Limits} {j k : Nat} (h : s.Overruns l k)
    (hj : s.Made l j) : j < k := by
  apply Nat.lt_of_not_le
  intro hle
  have hstart := Nat.add_le_add_right (s.start_mono hle) s.pacing
  exact after?_ne_none_of_le hstart hj.reckoned h.unreckoned

theorem Retries.not_crashed {s : Schedule α} {k : Nat} {f : Failure} (h : s.Retries k f) :
    (s.attempts k).ends ≠ .crashed := by
  rw [h.1]
  exact nofun

/-- A wait does not crash at an attempt that fails and may be tried again. -/
theorem Crashes.not_fails {s : Schedule α} {l : Limits} {k : Nat} {t : Instant} {f : Failure}
    (h : s.Crashes l k t) : ¬ s.Fails l k f := by
  intro hf
  cases h with
  | pause hover => exact Nat.lt_irrefl k (hover.lt hf.1)
  | attempt _ hends _ => exact hf.2.1.not_crashed hends

/-- No attempt that is made lies behind the one at which the wait crashes. -/
theorem Crashes.le {s : Schedule α} {l : Limits} {j k : Nat} {t : Instant} (h : s.Crashes l k t)
    (hj : s.Made l j) : j ≤ k :=
  hj.le fun _ => h.not_fails

/-- All attempts before the one at which the wait crashes fail. -/
theorem Crashes.failed {s : Schedule α} {l : Limits} {j k : Nat} {t : Instant}
    (h : s.Crashes l k t) (hj : j < k) : ∃ f, s.Fails l j f := by
  cases h with
  | pause hover => exact hover.failed j hj
  | attempt hmade _ _ => exact hmade.of_lt hj

/-- A wait crashes at one attempt at most. -/
theorem Crashes.unique {s : Schedule α} {l : Limits} {j k : Nat} {t t' : Instant}
    (h : s.Crashes l j t) (h' : s.Crashes l k t') : j = k ∧ t = t' := by
  have hle : ∀ {i i' : Nat} {u u' : Instant}, s.Crashes l i u → s.Crashes l i' u' → i ≤ i' := by
    intro i i' u u' hi hi'
    apply Nat.le_of_not_lt
    intro hlt
    obtain ⟨f, hf⟩ := hi.failed hlt
    exact hi'.not_fails hf
  obtain rfl := Nat.le_antisymm (hle h h') (hle h' h)
  refine ⟨rfl, ?_⟩
  cases h with
  | pause hover =>
    cases h' with
    | pause _ => rfl
    | attempt hmade _ _ => exact absurd (hover.lt hmade) (Nat.lt_irrefl j)
  | attempt hmade _ _ =>
    cases h' with
    | pause hover => exact absurd (hover.lt hmade) (Nat.lt_irrefl j)
    | attempt _ _ _ => rfl

/-- A wait that crashes is concluded by no attempt. -/
theorem Crashes.not_concludes {s : Schedule α} {l : Limits} {j k : Nat} {t : Instant}
    {r : Except Failure α} (h : s.Crashes l k t) : ¬ s.Concludes l j r := by
  intro ⟨hmade, hdecides, hlive⟩
  rcases Nat.lt_or_eq_of_le (h.le hmade) with hj | rfl
  · obtain ⟨f, hf⟩ := h.failed hj
    exact hf.2.1.not_decides hdecides
  · cases h with
    | pause hover => exact Nat.lt_irrefl j (hover.lt hmade)
    | attempt _ hends _ => cases hends.symm.trans hdecides.1

/-- A wait of which an attempt that is made neither fails nor crashes in time does not crash. -/
theorem Made.not_crashes {s : Schedule α} {l : Limits} {j k : Nat} {t : Instant}
    (h : s.Made l k) (hfails : ∀ f, ¬ s.Fails l k f)
    (hends : (s.attempts k).ends = .crashed → l.endedBy (s.finish k) = true) :
    ¬ s.Crashes l j t := by
  intro hj
  rcases Nat.lt_or_eq_of_le (hj.le h) with hk | rfl
  · obtain ⟨f, hf⟩ := hj.failed hk
    exact hfails f hf
  · cases hj with
    | pause hover => exact Nat.lt_irrefl k (hover.lt h)
    | attempt _ hcrashed hlive => exact Bool.noConfusion (hlive.symm.trans (hends hcrashed))

theorem Decides.not_fails {s : Schedule α} {l : Limits} {k : Nat} {f : Failure}
    {r : Except Failure α} (h : s.Decides k r) : ¬ s.Fails l k f :=
  fun hf => hf.2.1.not_decides h

/-- A wait that an attempt decides. -/
theorem follows_returned {s : Schedule α} {l : Limits} {what : String} {patience k : Nat}
    {r : Except Failure α} {m : Moment s.world} (h : s.Concludes l k r)
    (hcalls : m.calls = (List.range (k + 1)).map fun j => (s.start j, ()))
    (hnow : m.now = s.finish k) (hpatience : l.endsAt = none → k < patience) :
    s.Follows l what patience (.returned r, m) := by
  obtain ⟨hmade, hdecides, hlive⟩ := h
  have honly : ∀ j r', s.Concludes l j r' → j = k ∧ r' = r := by
    intro j r' ⟨hmade', hdecides', _⟩
    have hjk := hmade'.le (fun f => hdecides.not_fails)
    have hkj := hmade.le (fun f => hdecides'.not_fails)
    obtain rfl := Nat.le_antisymm hjk hkj
    exact ⟨rfl, Outcome.returned.inj (hdecides'.1.symm.trans hdecides.1)⟩
  refine ⟨fun j => s.finish_le_start (Nat.lt_succ_self j), ⟨k + 1, hcalls, fun j => ⟨?_, ?_⟩⟩,
    ?_, ?_, ?_, ?_⟩
  · intro hj
    have hle := Nat.le_of_lt_succ hj
    exact ⟨hmade.of_le hle, fun hnone => Nat.lt_of_le_of_lt hle (hpatience hnone)⟩
  · intro hj
    exact Nat.lt_succ_of_le (hj.1.le fun f => hdecides.not_fails)
  · intro j r' hj _
    obtain ⟨rfl, rfl⟩ := honly j r' hj
    exact ⟨rfl, hnow⟩
  · intro j t hj
    exact absurd ⟨hmade, hdecides, hlive⟩ hj.not_concludes
  · intro hnone
    exact absurd ⟨hmade, hdecides, hlive⟩ (hnone k r)
  · intro hnone _ hl
    exact absurd ⟨hmade, hdecides, hlive⟩ (hnone k (hpatience hl) r)

/-- A wait that ends, or goes on forever, after `n` attempts. -/
theorem follows_cutOff {s : Schedule α} {l : Limits} {what : String} {patience n : Nat}
    {last : Option Failure} {m : Moment s.world}
    (hcalls : m.calls = (List.range n).map fun j => (s.start j, ()))
    (hmade : ∀ j, j < n ↔ s.Made l j) (hpatience : l.endsAt = none → n ≤ patience)
    (hnone : ∀ k r, ¬ s.Concludes l k r) (hcrash : ∀ k t, ¬ s.Crashes l k t)
    (hlast : s.LastFailure l last) (hnow : ∀ e, l.endsAt = some e → max e m.now = max e s.asked) :
    s.Follows l what patience (cutOff l what last m) := by
  have hstarts : ∀ j, j < n ↔ s.Made l j ∧ (l.endsAt = none → j < patience) := by
    intro j
    rw [← hmade]
    exact ⟨fun hj => ⟨hj, fun hl => Nat.lt_of_lt_of_le hj (hpatience hl)⟩, fun hj => hj.1⟩
  have hapart := fun j => s.finish_le_start (Nat.lt_succ_self j)
  cases hends : l.endsAt with
  | none =>
    have hcut : cutOff (α := α) l what last m = (.stalled, m) := by simp only [cutOff, hends]
    rw [hcut]
    refine ⟨hapart, ⟨n, hcalls, hstarts⟩, ?_, fun k t hk => absurd hk (hcrash k t), ?_, ?_⟩
    · exact fun k r hk _ => absurd hk (hnone k r)
    · intro _ _ e he
      rw [hends] at he
      cases he
    · exact fun _ _ _ => rfl
  | some e =>
    have hcut : cutOff (α := α) l what last m =
        (.returned (.error ((l.interrupt (max e s.asked)).failure what last)),
          { m with now := max e s.asked }) := by
      simp only [cutOff, hends, hnow e hends]
    rw [hcut]
    refine ⟨hapart, ⟨n, hcalls, hstarts⟩, ?_, fun k t hk => absurd hk (hcrash k t), ?_, ?_⟩
    · exact fun k r hk _ => absurd hk (hnone k r)
    · intro _ _ e' he'
      obtain rfl := Option.some.inj (hends.symm.trans he')
      exact ⟨_, last, rfl, rfl, hlast, Limits.interrupt_max_eq_cancelled_iff s.asked hends⟩
    · intro _ _ hl
      rw [hends] at hl
      cases hl

/-- The wait has made `k` attempts, all of which failed, and may be about to make the next. -/
structure At (s : Schedule α) (l : Limits) (k : Nat) (last : Option Failure)
    (m : Moment s.world) : Prop where
  now : m.now = s.start k
  state : m.state = k
  calls : m.calls = (List.range k).map fun j => (s.start j, ())
  failed : ∀ j < k, ∃ f, s.Fails l j f
  live : 0 < k → l.endedBy (s.start k) = false
  last_zero : k = 0 → last = none
  last_succ : ∀ j, k = j + 1 → ∃ f, last = some f ∧ s.Fails l j f

/-- The moment at which an attempt has started. -/
def begun (s : Schedule α) (k : Nat) (m : Moment s.world) : Moment s.world :=
  m.begun (A := api α) () (k + 1)

/-- The wait is asked for, and no attempt has been made. -/
theorem At.asked (s : Schedule α) (l : Limits) :
    s.At l 0 none { now := s.asked, state := (0 : Nat) } where
  now := rfl
  state := rfl
  calls := rfl
  failed j hj := absurd hj (Nat.not_lt_zero j)
  live hlt := absurd hlt (Nat.lt_irrefl 0)
  last_zero _ := rfl
  last_succ j hj := by cases hj

theorem At.made {s : Schedule α} {l : Limits} {k : Nat} {last : Option Failure}
    {m : Moment s.world} (h : s.At l k last m) (hclock : after? (s.start k) s.pacing ≠ none)
    (hlive : l.endedBy (s.start k) = false) : s.Made l k :=
  ⟨fun j hj => (h.failed j hj).imp fun _ hf => hf.2.1, hclock, hlive⟩

theorem At.made_of_lt {s : Schedule α} {l : Limits} {j k : Nat} {last : Option Failure}
    {m : Moment s.world} (h : s.At l k last m) (hj : j < k) : s.Made l j :=
  (h.failed j hj).elim fun _ hf => hf.1

theorem At.begun_calls {s : Schedule α} {l : Limits} {k : Nat} {last : Option Failure}
    {m : Moment s.world} (h : s.At l k last m) :
    (s.begun k m).calls = (List.range (k + 1)).map fun j => (s.start j, ()) := by
  have hcalls := h.calls
  unfold Moment.calls at hcalls
  simp only [begun, Moment.calls, Moment.begun, List.reverse_cons, hcalls, h.now, List.range_succ,
    List.map_append]
  rfl

/-- If the attempt about to be made does not fail in time, the failure remembered is the last. -/
theorem At.lastFailure {s : Schedule α} {l : Limits} {k : Nat} {last : Option Failure}
    {m : Moment s.world} (h : s.At l k last m) (hk : ∀ f, ¬ s.Fails l k f) :
    s.LastFailure l last := by
  have hlt : ∀ j g, s.Fails l j g → j < k := by
    intro j g hj
    refine Nat.lt_of_le_of_ne (hj.1.le hk) fun heq => ?_
    exact hk g (heq ▸ hj)
  cases k with
  | zero =>
    rw [h.last_zero rfl]
    exact fun j g hj => absurd (hlt j g hj) (Nat.not_lt_zero j)
  | succ i =>
    obtain ⟨f, hf, hfails⟩ := h.last_succ i rfl
    rw [hf]
    exact ⟨i, hfails, fun j g hj => Nat.le_of_lt_succ (hlt j g hj)⟩

theorem At.next {s : Schedule α} {l : Limits} {k : Nat} {last : Option Failure}
    {m : Moment s.world} {f : Failure} (h : s.At l k last m) (hf : s.Fails l k f)
    (hlive : l.endedBy (s.start (k + 1)) = false) :
    s.At l (k + 1) (some f) { s.begun k m with now := s.start (k + 1) } where
  now := rfl
  state := rfl
  calls := h.begun_calls
  failed j hj := by
    rcases Nat.lt_succ_iff_lt_or_eq.1 hj with hj | rfl
    · exact h.failed j hj
    · exact ⟨f, hf⟩
  live _ := hlive
  last_zero hzero := by cases hzero
  last_succ j hj := by
    obtain rfl : k = j := by omega
    exact ⟨f, rfl, hf⟩

/-- An attempt that comes to its end before the limit. -/
theorem probe_run_answered {w : World (api α)} {limit : Option Instant} {m : Moment w} {s : w.State}
    {delay : Nat} {finish : w.State → w.State × Except Failure (Option (Except Failure α))}
    {judgement : Option (Except Failure α)}
    (hstart : w.start m.state () = (s, some (delay, finish)))
    (hanswer : (finish s).2 = .ok judgement) (hearly : ∀ e, limit = some e → m.now + delay < e) :
    probe.run w limit m =
      (Probe.ofJudgement judgement).run w limit
        (m.answered (A := api α) () delay (finish s).1) := by
  rw [probe, Probe.run_ask_of_answered hstart hearly, hanswer]

/-- One attempt, under way from the moment at which the wait comes to it. -/
theorem At.probe_run {s : Schedule α} {l : Limits} {k : Nat} {last : Option Failure}
    {m : Moment s.world} (h : s.At l k last m) :
    probe.run s.world l.endsAt m =
      if l.endedBy (s.finish k) then (.stalled, s.begun k m)
      else
        match (s.attempts k).ends with
        | .stalled => (.stalled, s.begun k m)
        | ends => (ends, { s.begun k m with now := s.finish k }) := by
  have hstart : s.world.start m.state () = (k + 1, answerTo (s.attempts k)) := by
    rw [h.state]
    rfl
  have hfinish : s.finish k = m.now + (s.attempts k).takes := by rw [h.now, finish]
  rw [hfinish]
  cases hends : (s.attempts k).ends with
  | stalled =>
    simp only [answerTo, hends] at hstart
    rw [ite_self]
    exact Probe.run_ask_of_hanging hstart
  | crashed | returned r =>
    simp only [answerTo, hends] at hstart
    cases hlate : l.endedBy (m.now + (s.attempts k).takes) with
    | true => exact Probe.run_ask_of_late hstart (Limits.endedBy_iff.1 hlate)
    | false =>
      refine Probe.run_ask_of_answered hstart fun e he => Nat.lt_of_not_le fun hle => ?_
      exact Bool.noConfusion (hlate.symm.trans (Limits.endedBy_iff.2 ⟨e, he, hle⟩))

/-- The attempt under way does not fail in time, so the wait ends with what it remembers. -/
theorem At.follows_of_unanswered {s : Schedule α} {l : Limits} {what : String}
    {patience k : Nat} {last : Option Failure} {m : Moment s.world} (h : s.At l k last m)
    (hmade : s.Made l k) (hpatience : l.endsAt = none → k < patience)
    (hslow : (s.attempts k).ends ≠ .stalled → l.endedBy (s.finish k) = true) :
    s.Follows l what patience (cutOff l what last (s.begun k m)) := by
  have hfails : ∀ f, ¬ s.Fails l k f := by
    intro f ⟨_, hretries, hend⟩
    simp [hslow (by simp [hretries.1])] at hend
  refine follows_cutOff h.begun_calls (fun j => ⟨?_, ?_⟩) hpatience ?_
    (fun j t => hmade.not_crashes hfails fun hends => hslow (by simp [hends]))
    (h.lastFailure hfails) ?_
  · exact fun hj => hmade.of_le (Nat.le_of_lt_succ hj)
  · exact fun hj => Nat.lt_succ_of_le (hj.le hfails)
  · intro j r ⟨hmade', hdecides, hend⟩
    rcases Nat.lt_or_eq_of_le (hmade'.le hfails) with hj | rfl
    · exact (h.failed j hj).elim fun _ hf => hdecides.not_fails hf
    · simp [hslow (by simp [hdecides.1])] at hend
  · intro e he
    have hasked := s.asked_add_le_start k
    have hnow : (s.begun k m).now = s.start k := h.now
    have hlt : ¬ e ≤ s.start k := by
      intro hle
      have hlive := hmade.live
      simp [Limits.endedBy_iff.2 ⟨e, he, hle⟩] at hlive
    rw [hnow]
    lia

/-- The wait ends between the attempt that failed last and the next one. -/
theorem At.follows_of_paused {s : Schedule α} {l : Limits} {what : String}
    {patience k : Nat} {last : Option Failure} {m : Moment s.world} {f : Failure}
    (h : s.At l k last m) (hf : s.Fails l k f) (hpatience : l.endsAt = none → k < patience)
    (hended : l.endedBy (s.start (k + 1)) = true) :
    s.Follows l what patience
      (cutOff l what (some f) { s.begun k m with now := s.finish k }) := by
  have hlast : ∀ j, s.Made l j → j ≤ k := by
    intro j hj
    apply Nat.le_of_not_lt
    intro hlt
    have hlive := not_endedBy_of_le (s.start_mono hlt) hj.live
    simp [hended] at hlive
  refine follows_cutOff h.begun_calls (fun j => ⟨?_, ?_⟩) hpatience ?_ ?_ ?_ ?_
  · exact fun hj => hf.1.of_le (Nat.le_of_lt_succ hj)
  · exact fun hj => Nat.lt_succ_of_le (hlast j hj)
  · intro j r ⟨hmade, hdecides, _⟩
    rcases Nat.lt_or_eq_of_le (hlast j hmade) with hj | rfl
    · exact (h.failed j hj).elim fun _ hf => hdecides.not_fails hf
    · exact hdecides.not_fails hf
  · intro j t hj
    cases hj with
    | pause hover =>
      have hlt := hover.lt hf.1
      have hlive := not_endedBy_of_le (s.start_mono hlt) (hover.live (Nat.zero_lt_of_lt hlt))
      simp [hended] at hlive
    | attempt hmade hends hlive =>
      rcases Nat.lt_or_eq_of_le (hlast j hmade) with hj | rfl
      · exact (h.failed j hj).elim fun _ hf => hf.2.1.not_crashed hends
      · exact hf.2.1.not_crashed hends
  · exact ⟨k, hf, fun j g hj => hlast j hj.1⟩
  · intro e he
    have hasked := s.asked_add_le_start k
    have hfinish := s.start_le_finish k
    have hlt : ¬ e ≤ s.finish k := by
      intro hle
      have hlive := hf.2.2
      simp [Limits.endedBy_iff.2 ⟨e, he, hle⟩] at hlive
    simp only
    lia

/-- The wait has ended before it is asked for. -/
theorem At.follows_of_ended {s : Schedule α} {l : Limits} {what : String} {patience k : Nat}
    {last : Option Failure} {m : Moment s.world} (h : s.At l k last m)
    (hclock : after? (s.start k) s.pacing ≠ none) (hended : l.endedBy (s.start k) = true) :
    s.Follows l what patience (cutOff l what last m) := by
  have hk : k = 0 := by
    apply Nat.eq_zero_of_not_pos
    intro hk
    simp [h.live hk] at hended
  subst hk
  have hmade : ∀ j, ¬ s.Made l j := by
    intro j hj
    have hlive := not_endedBy_of_le (s.start_mono (Nat.zero_le j)) hj.live
    simp [hended] at hlive
  refine follows_cutOff h.calls (fun j => ⟨fun hj => absurd hj (Nat.not_lt_zero j), ?_⟩)
    (fun _ => Nat.zero_le _) (fun k r hk => hmade k hk.1) (fun j t hj => ?_) ?_
    (fun e _ => by rw [h.now]; rfl)
  · exact fun hj => absurd hj (hmade j)
  · cases hj with
    | attempt hj _ _ => exact hmade j hj
    | pause hover =>
      cases j with
      | zero => exact hclock hover.unreckoned
      | succ j =>
        obtain ⟨f, hf⟩ := hover.failed 0 (Nat.succ_pos j)
        exact hmade 0 hf.1
  · exact h.lastFailure fun f hf => hmade 0 hf.1

/-- A wait that crashes. -/
theorem follows_crashed {s : Schedule α} {l : Limits} {what : String} {patience k n : Nat}
    {t : Instant} {m : Moment s.world} (h : s.Crashes l k t)
    (hcalls : m.calls = (List.range n).map fun j => (s.start j, ()))
    (hmade : ∀ j, j < n ↔ s.Made l j) (hnow : m.now = t)
    (hpatience : l.endsAt = none → k < patience) : s.Follows l what patience (.crashed, m) := by
  refine ⟨fun j => s.finish_le_start (Nat.lt_succ_self j), ⟨n, hcalls, fun j => ⟨?_, ?_⟩⟩,
    ?_, ?_, ?_, ?_⟩
  · intro hj
    have hj := (hmade j).1 hj
    exact ⟨hj, fun hl => Nat.lt_of_le_of_lt (h.le hj) (hpatience hl)⟩
  · exact fun hj => (hmade j).2 hj.1
  · exact fun j r hj _ => absurd hj h.not_concludes
  · intro j t' hj _
    exact ⟨rfl, hnow.trans (h.unique hj).2⟩
  · exact fun _ hnone => absurd h (hnone k t)
  · exact fun _ hnone hl => absurd h (hnone k (hpatience hl) t)

/-- The pause of the attempt that is due cannot be reckoned. -/
theorem At.follows_of_overrun {s : Schedule α} {l : Limits} {what : String} {patience k : Nat}
    {last : Option Failure} {m : Moment s.world} (h : s.At l k last m)
    (hclock : after? (s.start k) s.pacing = none) (hpatience : l.endsAt = none → k < patience) :
    s.Follows l what patience (.crashed, m) := by
  have hover : s.Overruns l k := ⟨h.failed, h.live, hclock⟩
  exact follows_crashed (.pause hover) h.calls (fun j => ⟨h.made_of_lt, hover.lt⟩) h.now hpatience

/-- The attempt under way crashes in time. -/
theorem At.follows_of_crashed {s : Schedule α} {l : Limits} {what : String} {patience k : Nat}
    {last : Option Failure} {m : Moment s.world} (h : s.At l k last m) (hmade : s.Made l k)
    (hends : (s.attempts k).ends = .crashed) (hlive : l.endedBy (s.finish k) = false)
    (hpatience : l.endsAt = none → k < patience) :
    s.Follows l what patience (.crashed, { s.begun k m with now := s.finish k }) := by
  have hcrashes : s.Crashes l k (s.finish k) := .attempt hmade hends hlive
  refine follows_crashed hcrashes h.begun_calls (fun j => ⟨fun hj => ?_, fun hj => ?_⟩) rfl
    hpatience
  · exact hmade.of_le (Nat.le_of_lt_succ hj)
  · exact Nat.lt_succ_of_le (hcrashes.le hj)

/-- An observer gives up only on a wait that nothing ends. -/
theorem At.follows_of_exhausted {s : Schedule α} {l : Limits} {what : String} {patience k : Nat}
    {last : Option Failure} {m : Moment s.world} (h : s.At l k last m)
    (hk : k = attemptsUntil patience l.endsAt s.asked) :
    s.Follows l what patience (.stalled, m) := by
  cases hends : l.endsAt with
  | none =>
    have hk : k = patience := by simpa [attemptsUntil, hends] using hk
    subst hk
    refine ⟨fun j => s.finish_le_start (Nat.lt_succ_self j), ⟨k, h.calls, fun j => ⟨?_, ?_⟩⟩,
      ?_, ?_, ?_, ?_⟩
    · exact fun hj => ⟨h.made_of_lt hj, fun _ => hj⟩
    · exact fun hj => hj.2 hends
    · intro j r hj hlt
      exact (h.failed j (hlt hends)).elim fun _ hf => absurd hf hj.2.1.not_fails
    · intro j t hj hlt
      exact (h.failed j (hlt hends)).elim fun _ hf => absurd hf hj.not_fails
    · intro _ _ e he
      rw [hends] at he
      cases he
    · exact fun _ _ _ => rfl
  | some e =>
    have hk : k = patience + (e - s.asked + 1) := by simpa [attemptsUntil, hends] using hk
    have hlive := h.live (by omega)
    have hasked := s.asked_add_le_start k
    have hle : e ≤ s.start k := by lia
    simp [Limits.endedBy_iff.2 ⟨e, hends, hle⟩] at hlive

/-- What is left of a wait follows the schedule. The induction is on the attempts left; those made
and those left are as many as an observer has patience for. -/
theorem At.pollFrom_follows {s : Schedule α} {l : Limits} {what : String} {patience n k : Nat}
    {last : Option Failure} {m : Moment s.world} (h : s.At l k last m)
    (hn : n + k = attemptsUntil patience l.endsAt s.asked) :
    s.Follows l what patience
      (pollFrom s.world l s.pacing what probe n last m) := by
  induction n generalizing k last m with
  | zero => exact h.follows_of_exhausted (by omega)
  | succ n ih =>
    have hpatience : l.endsAt = none → k < patience := by
      intro hl
      simp only [attemptsUntil, hl, Option.map_none, Option.getD_none] at hn
      omega
    -- the pause is reckoned first, even if the wait has ended by then
    cases hclock : after? (s.start k) s.pacing with
    | none =>
      rw [pollFrom_of_overrun (h.now ▸ hclock)]
      exact h.follows_of_overrun hclock hpatience
    | some due =>
      have hreckoned : after? (s.start k) s.pacing ≠ none := by simp [hclock]
      cases hlive : l.endedBy (s.start k) with
      | true =>
        rw [pollFrom_of_endedBy (h.now ▸ hreckoned) (h.now ▸ hlive)]
        exact h.follows_of_ended hreckoned hlive
      | false =>
        have hmade := h.made hreckoned hlive
        rw [pollFrom_succ ⟨h.now ▸ after?_eq_some hreckoned, h.now ▸ hlive⟩, h.probe_run]
        cases hlate : l.endedBy (s.finish k) with
        | true => exact h.follows_of_unanswered hmade hpatience fun _ => hlate
        | false =>
          simp only [Bool.false_eq_true, if_false]
          cases hends : (s.attempts k).ends with
          | stalled => exact h.follows_of_unanswered hmade hpatience (absurd hends)
          | crashed => exact h.follows_of_crashed hmade hends hlate hpatience
          | returned r =>
            cases r with
            | ok a =>
              have hdecides : s.Decides k (.ok a) := ⟨hends, fun _ h => by cases h⟩
              exact follows_returned ⟨hmade, hdecides, hlate⟩ h.begun_calls rfl hpatience
            | error f =>
              simp only [afterAttempt]
              cases hf : f.retryable with
              | false =>
                exact follows_returned ⟨hmade, ⟨hends, by simpa using hf⟩, hlate⟩
                  h.begun_calls rfl hpatience
              | true =>
                have hfails : s.Fails l k f := ⟨hmade, ⟨hends, hf⟩, hlate⟩
                have hnext : max (s.finish k) (s.start k + s.pacing) = s.start (k + 1) :=
                  Nat.max_comm _ _
                simp only [if_true, h.now, hnext]
                cases hpause : l.endedBy (s.start (k + 1)) with
                | true => exact h.follows_of_paused hfails hpatience hpause
                | false => exact ih (h.next hfails hpause) (by omega)

/-- Every wait follows its schedule. An attempt is made if and only if all those before it failed in
a way that passes and it starts before the wait ends; no two overlap. The first to succeed or to
fail for good before the wait ends decides it. Otherwise the wait ends when its limits say, or at
once if they had ended it before, and reports the last failure. All this is so until an attempt
crashes, or one is due whose pause takes the clock beyond its end: there the wait crashes. -/
theorem run_follows_schedule (s : Schedule α) (l : Limits) (what : String) (patience : Nat) :
    s.Follows l what patience (s.run l what patience) := by
  rw [run, Procedure.run_poll, andThen_done]
  exact (At.asked s l).pollFrom_follows rfl

/-- A wait whose attempts never end. -/
def hanging : Schedule Nat where
  attempts _ := { ends := .stalled }
  pacing := 1000
  pacing_pos := by decide
  asked := 10

/-- A wait whose attempts succeed at once, with the longest pause that can be asked for. -/
def prompt : Schedule Nat where
  attempts _ := { ends := .returned (.ok 7) }
  pacing := 18446744073709551615 * 1000
  pacing_pos := by decide
  asked := 0

/-- A wait that is asked for when its limits have ended it already is told of the cancellation, even
if the deadline passed first. A wait of which the first attempt would succeed at once crashes before
it, if the clock cannot reckon its pause. -/
theorem off_schedule :
    let l : Limits := { cancelledAt := some 5, deadline := some 3 }
    (l.endsAt = some 3 ∧ (∀ k r, ¬ hanging.Concludes l k r) ∧
      (hanging.run l "probe" 0).1 =
        .returned (.error (.cancelled "probe" (.interrupted .nothingCompleted))) ∧
      (hanging.run l "probe" 0).2.now ≠ 3 ∧
      ∀ last, (hanging.run l "probe" 0).1 ≠
        .returned (.error (Interrupt.deadlineReached.failure "probe" last))) ∧
    prompt.Decides 0 (.ok 7) ∧ (prompt.run {} "probe" 1).1 = .crashed ∧
      (prompt.run {} "probe" 1).2.calls = [] := by
  intro l
  have hrun : hanging.run l "probe" 0 =
      (.returned (.error (.cancelled "probe" (.interrupted .nothingCompleted))),
        { now := 10, state := (0 : Nat) }) := by
    have hclock : after? 10 1000 ≠ none := by decide
    rw [run, Procedure.run_poll, andThen_done]
    exact pollFrom_of_endedBy hclock rfl
  have hcrashed : prompt.run {} "probe" 1 = (.crashed, { now := 0, state := (0 : Nat) }) := by
    rw [run, Procedure.run_poll, andThen_done]
    exact pollFrom_of_overrun (by decide)
  refine ⟨⟨rfl, ?_, by rw [hrun], by rw [hrun]; decide, ?_⟩, ⟨rfl, nofun⟩, by rw [hcrashed],
    by rw [hcrashed]; rfl⟩
  · intro k r h
    have hresult := h.2.1.1
    cases hresult
  · intro last
    rw [hrun]
    intro h
    simp [Interrupt.failure] at h

end Schedule

end Reachability.Wait
