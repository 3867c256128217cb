import Reachability.Proofs.Cluster.Account

namespace Reachability

instance exceptDecidableEq {ε α : Type} [DecidableEq ε] [DecidableEq α] : DecidableEq (Except ε α)
  | .error e, .error e' => decidable_of_iff (e = e') (by simp)
  | .ok a, .ok a' => decidable_of_iff (a = a') (by simp)
  | .error _, .ok _ => .isFalse (by simp)
  | .ok _, .error _ => .isFalse (by simp)

namespace Wait

/-- The same world, which keeps a record of the calls that were answered, the latest last. -/
def World.recorded (w : World clusterApi) : World clusterApi where
  State := w.State × List Exchange
  start := fun (s, exchanges) c =>
    let (s, course) := w.start s c
    ((s, exchanges), course.map fun (delay, finish) =>
      (delay, fun (s, exchanges) =>
        let (s, answer) := finish s
        ((s, exchanges ++ [⟨c, answer⟩]), answer)))
  choose := fun (s, exchanges) n =>
    let (s, i) := w.choose s n
    ((s, exchanges), i)

variable {w : World clusterApi} {α : Type}

namespace Moment

/-- The moment without the record. -/
def plain (m : Moment w.recorded) : Moment w := { m with state := m.state.1 }

/-- What has been answered so far. -/
def record (m : Moment w.recorded) : List Exchange := m.state.2

@[simp] theorem plain_now (m : Moment w.recorded) : m.plain.now = m.now := rfl

end Moment

/-- How a part ended, without the record. -/
def plain (u : Outcome α × Moment w.recorded) : Outcome α × Moment w := (u.1, u.2.plain)

theorem Probe.run_plain (limit : Option Instant) (probe : Probe clusterApi α)
    (m : Moment w.recorded) : probe.run w limit m.plain =
      ((probe.run w.recorded limit m).1, (probe.run w.recorded limit m).2.plain) := by
  induction probe generalizing m with
  | done r | crash => rfl
  | ask c next ih =>
    obtain ⟨now, ⟨s, exchanges⟩, started⟩ := m
    rcases hstart : w.start s c with ⟨s', _ | ⟨delay, finish⟩⟩
    · have hrecorded : w.recorded.start (s, exchanges) c = ((s', exchanges), none) := by
        simp only [World.recorded, hstart, Option.map_none]
      rw [run_ask_of_hanging hstart, run_ask_of_hanging hrecorded]
      rfl
    · have hrecorded : w.recorded.start (s, exchanges) c =
          ((s', exchanges), some (delay, fun s =>
            (((finish s.1).1, s.2 ++ [⟨c, (finish s.1).2⟩]), (finish s.1).2))) := by
        simp only [World.recorded, hstart, Option.map_some]
      by_cases hlate : ∃ e, limit = some e ∧ e ≤ now + delay
      · rw [run_ask_of_late hstart hlate, run_ask_of_late hrecorded hlate]
        rfl
      · have hearly : ∀ e, limit = some e → now + delay < e := fun e he =>
          Nat.lt_of_not_le fun hle => hlate ⟨e, he, hle⟩
        rw [run_ask_of_answered hstart hearly, run_ask_of_answered hrecorded hearly]
        exact ih (finish s').2 (Moment.answered (w := w.recorded) ⟨now, (s, exchanges), started⟩ c
          delay ((finish s').1, exchanges ++ [⟨c, (finish s').2⟩]))

theorem cutOff_plain (l : Limits) (what : String) (last : Option Failure) (m : Moment w.recorded) :
    cutOff (α := α) l what last m.plain = plain (cutOff l what last m) := by
  unfold cutOff
  cases l.endsAt <;> rfl

theorem raceOnce_plain (l : Limits) (what : String) (probe : Probe clusterApi α)
    (m : Moment w.recorded) :
    raceOnce w l what probe m.plain = plain (raceOnce w.recorded l what probe m) := by
  unfold raceOnce
  rw [Moment.plain_now, probe.run_plain]
  split
  · exact cutOff_plain ..
  · rcases probe.run w.recorded l.endsAt m with ⟨r | _ | _, m'⟩
    · rfl
    · exact cutOff_plain ..
    · rfl

theorem pollFrom_plain (l : Limits) (pacing : Nat) (what : String) (probe : Probe clusterApi α)
    (attempts : Nat) (last : Option Failure) (m : Moment w.recorded) :
    pollFrom w l pacing what probe attempts last m.plain =
      plain (pollFrom w.recorded l pacing what probe attempts last m) := by
  induction attempts generalizing last m with
  | zero => rfl
  | succ attempts ih =>
    simp only [pollFrom]
    rw [Moment.plain_now, probe.run_plain]
    cases after? m.now pacing with
    | none => rfl
    | some due =>
      dsimp only
      split
      · exact cutOff_plain ..
      · rcases probe.run w.recorded l.endsAt m with ⟨(f | a) | _ | _, m'⟩
        · dsimp only
          rw [Moment.plain_now]
          split
          · split
            · exact cutOff_plain ..
            · exact ih (some f) { m' with now := max m'.now due }
          · rfl
        · rfl
        · exact cutOff_plain ..
        · rfl

theorem andThen_plain {β : Type} (u : Outcome α × Moment w.recorded)
    {k : α → Moment w → Outcome β × Moment w}
    {k' : α → Moment w.recorded → Outcome β × Moment w.recorded}
    (hk : ∀ a m, k a m.plain = plain (k' a m)) : andThen (plain u) k = plain (andThen u k') := by
  obtain ⟨a | _ | _, m⟩ := u
  · exact hk a m
  · rfl
  · rfl

/-- Keeping a record changes nothing about a run. -/
theorem Procedure.run_plain (patience : Nat) (p : Procedure clusterApi α) (l : Limits)
    (m : Moment w.recorded) :
    p.run w patience l m.plain = plain (p.run w.recorded patience l m) := by
  induction p generalizing l m with
  | done a => rfl
  | race what probe next ih =>
    rw [run_race, run_race, raceOnce_plain]
    exact andThen_plain _ fun r m => ih r l m
  | poll pacing what probe next ih =>
    rw [run_poll, run_poll, Moment.plain_now, pollFrom_plain]
    exact andThen_plain _ fun r m => ih r l m
  | within timeout body next ihbody ihnext =>
    rw [run_within, run_within, Moment.plain_now]
    cases after? m.now timeout with
    | none => rfl
    | some d =>
      dsimp only
      rw [ihbody]
      exact andThen_plain _ fun b m => ihnext b l m
  | draw n next ih => exact ih _ l { m with state := (w.recorded.choose m.state n).1 }

/-- All that is answered in a run. -/
def Procedure.exchanges (w : World clusterApi) (p : Procedure clusterApi α) (patience : Nat)
    (l : Limits) (t : Instant) (s : w.State) : List Exchange :=
  (p.run w.recorded patience l ⟨t, (s, []), []⟩).2.record

/-- The record is what has been exchanged since some moment, after what had been before. -/
theorem recorded_keeps (w : World clusterApi) (before : List Exchange) :
    w.recorded.Keeps fun exchanges s => s.2 = before ++ exchanges where
  start := by
    rintro exchanges ⟨s, _⟩ c rfl
    rfl
  finish := by
    rintro exchanges ⟨s, _⟩ c ⟨s', exchanges'⟩ delay finish rfl hstart
    simp only [World.recorded] at hstart
    rcases hcourse : w.start s c with ⟨s₁, _ | ⟨delay₁, finish₁⟩⟩
    · simp only [hcourse] at hstart
      cases hstart
    · simp only [hcourse] at hstart
      cases hstart
      exact List.append_assoc ..
  choose := by
    rintro exchanges ⟨s, _⟩ n rfl
    rfl

/-- The exchanges of a part that returns come after those before. -/
theorem Procedure.exists_record_eq {p : Procedure clusterApi α} {patience : Nat} {l : Limits}
    {m m' : Moment w.recorded} {a : α}
    (h : p.run w.recorded patience l m = (.returned a, m')) :
    ∃ more, p.Admits more a ∧ m'.record = m.record ++ more := by
  obtain ⟨more, hadmits, hrecord⟩ :=
    p.run_accounted (recorded_keeps w m.record) h [] (List.append_nil m.record).symm
  exact ⟨more, hadmits, hrecord⟩

/-- The exchanges of a run that returns account for what it returns. -/
theorem Procedure.admits_exchanges {p : Procedure clusterApi α} {patience : Nat} {l : Limits}
    {t : Instant} {s : w.State} {a : α} {m : Moment w}
    (hrun : p.run w patience l ⟨t, s, []⟩ = (.returned a, m)) :
    p.Admits (p.exchanges w patience l t s) a := by
  have hplain := p.run_plain patience l (w := w) ⟨t, (s, []), []⟩
  rcases hrecorded : p.run w.recorded patience l ⟨t, (s, []), []⟩ with ⟨o, m'⟩
  rw [hrecorded] at hplain
  obtain ⟨rfl, _⟩ := Prod.mk.inj (hrun.symm.trans hplain)
  obtain ⟨exchanges, hadmits, hrecord⟩ :=
    p.run_accounted (recorded_keeps w []) hrecorded [] rfl
  have heq : p.exchanges w patience l t s = exchanges := by
    rw [Procedure.exchanges, hrecorded]
    exact hrecord
  rwa [heq]

end Wait

open Wait (Instant Limits Moment Outcome Procedure World)

/-- A run from the start, with the record that is kept of it. -/
theorem exists_recorded_run {α : Type} {w : World clusterApi} {p : Procedure clusterApi α}
    {patience : Nat} {l : Limits} {t : Instant} {s : w.State} {outcome : Outcome α} {m : Moment w}
    (hrun : p.run w patience l ⟨t, s, []⟩ = (outcome, m)) :
    ∃ m' : Moment w.recorded, p.run w.recorded patience l ⟨t, (s, []), []⟩ = (outcome, m') ∧
      m'.plain = m ∧ m'.record = p.exchanges w patience l t s := by
  have hplain := p.run_plain patience l (w := w) ⟨t, (s, []), []⟩
  obtain ⟨houtcome, hm⟩ := Prod.mk.inj (hrun.symm.trans hplain)
  exact ⟨_, Prod.ext houtcome.symm rfl, hm.symm, rfl⟩

end Reachability
