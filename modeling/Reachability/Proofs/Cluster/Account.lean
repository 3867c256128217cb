import Reachability.Proofs.Cluster.Transcript
import Reachability.Proofs.Wait.Cut

namespace Reachability

open Wait (Interrupted Limits Moment Outcome Procedure Probe World)

variable {α β γ : Type}

/-- The exchanges of two parts, the second of which depends on the result of the first. -/
def Followed (first : List Exchange → α → Prop) (next : α → List Exchange → β → Prop)
    (exchanges : List Exchange) (b : β) : Prop :=
  ∃ before after a, exchanges = before ++ after ∧ first before a ∧ next a after b

theorem Followed.assoc (first : List Exchange → α → Prop) (second : α → List Exchange → β → Prop)
    (third : β → List Exchange → γ → Prop) :
    Followed first (fun a => Followed (second a) third) =
      Followed (Followed first second) third := by
  funext exchanges c
  apply propext
  constructor
  · rintro ⟨l, _, a, rfl, ha, l', l'', b, rfl, hb, hc⟩
    exact ⟨l ++ l', l'', b, (List.append_assoc ..).symm, ⟨l, l', a, rfl, ha, hb⟩, hc⟩
  · rintro ⟨_, l'', b, rfl, ⟨l, l', a, rfl, ha, hb⟩, hc⟩
    exact ⟨l, l' ++ l'', a, List.append_assoc .., ha, l', l'', b, rfl, hb, hc⟩

namespace Wait

/-- The probe comes to a result by these exchanges. -/
def Probe.Admits : Probe clusterApi α → List Exchange → Except Failure α → Prop
  | .done r, exchanges, r' => exchanges = [] ∧ r' = r
  | .crash, _, _ => False
  | .ask c next, exchanges, r =>
    ∃ answer rest, exchanges = ⟨c, answer⟩ :: rest ∧ (next answer).Admits rest r

/-- The probe starts with these exchanges. -/
def Probe.Begins : Probe clusterApi α → List Exchange → Prop
  | _, [] => True
  | .done _, _ :: _ | .crash, _ :: _ => False
  | .ask c next, x :: rest => ∃ answer, x = ⟨c, answer⟩ ∧ (next answer).Begins rest

theorem Probe.begins_nil (probe : Probe clusterApi α) : probe.Begins [] := by
  cases probe <;> trivial

/-- An attempt comes to its result, or is interrupted. -/
def Probe.Tries (probe : Probe clusterApi α) (exchanges : List Exchange) (r : Except Failure α) :
    Prop :=
  probe.Admits exchanges r ∨ probe.Begins exchanges ∧ ∃ i, Interrupted i r

/-- Attempts that fail, and a last one with the result of them all. -/
inductive Probe.Retries (probe : Probe clusterApi α) : List Exchange → Except Failure α → Prop where
  | last {exchanges r} (h : probe.Tries exchanges r) : Retries probe exchanges r
  | again {exchanges rest f r} (h : probe.Admits exchanges (.error f))
      (hrest : Retries probe rest r) : Retries probe (exchanges ++ rest) r

/-- Attempts that succeed in the end do so with the last of them. -/
theorem Probe.Retries.of_ok {probe : Probe clusterApi α} {exchanges : List Exchange} {a : α}
    (h : probe.Retries exchanges (.ok a)) :
    ∃ failed last, exchanges = failed ++ last ∧ probe.Admits last (.ok a) := by
  generalize hr : (.ok a : Except Failure α) = r at h
  induction h with
  | last h =>
    subst hr
    rcases h with h | ⟨_, i, what, last, hinterrupted⟩
    · exact ⟨[], _, rfl, h⟩
    · cases hinterrupted
  | again h hrest ih =>
    obtain ⟨failed, last, rfl, hlast⟩ := ih hr
    exact ⟨_, last, (List.append_assoc ..).symm, hlast⟩

/-- The procedure comes to a result by these exchanges. -/
def Procedure.Admits {α : Type} : Procedure clusterApi α → List Exchange → α → Prop
  | .done a, exchanges, a' => exchanges = [] ∧ a' = a
  | .race _ probe next, exchanges, a => Followed probe.Tries (fun r => (next r).Admits) exchanges a
  | .poll _ _ probe next, exchanges, a =>
    Followed probe.Retries (fun r => (next r).Admits) exchanges a
  | .within _ body next, exchanges, a =>
    Followed body.Admits (fun b => (next b).Admits) exchanges a
  | .draw _ next, exchanges, a => ∃ i, (next i).Admits exchanges a

theorem Procedure.admits_bind (p : Procedure clusterApi α) (f : α → Procedure clusterApi β) :
    (p.bind f).Admits = Followed p.Admits fun a => (f a).Admits := by
  induction p with
  | done a =>
    funext exchanges b
    apply propext
    constructor
    · exact fun h => ⟨[], exchanges, a, rfl, ⟨rfl, rfl⟩, h⟩
    · rintro ⟨_, after, _, rfl, ⟨rfl, rfl⟩, h⟩
      exact h
  | race what probe next ih =>
    exact (congrArg (Followed probe.Tries) (funext fun r => ih r f)).trans (Followed.assoc ..)
  | poll pacing what probe next ih =>
    exact (congrArg (Followed probe.Retries) (funext fun r => ih r f)).trans (Followed.assoc ..)
  | within timeout body next _ ih =>
    exact (congrArg (Followed body.Admits) (funext fun b => ih b f)).trans (Followed.assoc ..)
  | draw n next ih =>
    funext exchanges b
    simp only [bind, Admits, ih]
    apply propext
    constructor
    · rintro ⟨i, before, after, a, heq, ha, hb⟩
      exact ⟨before, after, a, heq, ⟨i, ha⟩, hb⟩
    · rintro ⟨before, after, a, heq, ⟨i, ha⟩, hb⟩
      exact ⟨i, before, after, a, heq, ha, hb⟩

theorem Procedure.Admits.of_bind {p : Procedure clusterApi α} {f : α → Procedure clusterApi β}
    {exchanges : List Exchange} {b : β} (h : (p.bind f).Admits exchanges b) :
    Followed p.Admits (fun a => (f a).Admits) exchanges b := by
  rwa [admits_bind] at h

/-- A relation between what was exchanged and the state of the world that every call keeps. -/
structure World.Keeps (w : World clusterApi) (holds : List Exchange → w.State → Prop) : Prop where
  start {exchanges s} (c : Call) (h : holds exchanges s) : holds exchanges (w.start s c).1
  finish {exchanges s c s' delay finish} (h : holds exchanges s)
    (hstart : w.start s c = (s', some (delay, finish))) :
    holds (exchanges ++ [⟨c, (finish s').2⟩]) (finish s').1
  choose {exchanges s} (n : Nat) (h : holds exchanges s) : holds exchanges (w.choose s n).1

theorem World.Keeps.and {w : World clusterApi} {holds holds' : List Exchange → w.State → Prop}
    (h : w.Keeps holds) (h' : w.Keeps holds') :
    w.Keeps fun exchanges s => holds exchanges s ∧ holds' exchanges s where
  start c hs := ⟨h.start c hs.1, h'.start c hs.2⟩
  finish hs hstart := ⟨h.finish hs.1 hstart, h'.finish hs.2 hstart⟩
  choose n hs := ⟨h.choose n hs.1, h'.choose n hs.2⟩

section Runs

variable {w : World clusterApi} {holds : List Exchange → w.State → Prop}

/-- In a world that keeps the relation, a part that leads from one moment to another has exchanged
something that accounts for what it came to. -/
def Accounted (holds : List Exchange → w.State → Prop) (m m' : Moment w)
    (admits : List Exchange → Prop) : Prop :=
  ∀ exchanges, holds exchanges m.state →
    ∃ more, admits more ∧ holds (exchanges ++ more) m'.state

theorem Accounted.followed {first : List Exchange → α → Prop} {next : α → List Exchange → β → Prop}
    {m m' m'' : Moment w} {a : α} {b : β} (h : Accounted holds m m' (first · a))
    (h' : Accounted holds m' m'' (next a · b)) :
    Accounted holds m m'' (Followed first next · b) := by
  intro exchanges hm
  obtain ⟨before, hfirst, hm'⟩ := h exchanges hm
  obtain ⟨after, hnext, hm''⟩ := h' _ hm'
  exact ⟨before ++ after, ⟨before, after, a, rfl, hfirst, hnext⟩, by rwa [← List.append_assoc]⟩

theorem Accounted.of_state_eq {m m' : Moment w} {admits : List Exchange → Prop}
    (hstate : m'.state = m.state) (hadmits : admits []) : Accounted holds m m' admits := by
  intro exchanges hm
  refine ⟨[], hadmits, ?_⟩
  rwa [List.append_nil, hstate]

theorem Accounted.mono {m m' : Moment w} {admits admits' : List Exchange → Prop}
    (h : Accounted holds m m' admits)
    (hadmits : ∀ exchanges, admits exchanges → admits' exchanges) :
    Accounted holds m m' admits' := by
  intro exchanges hm
  obtain ⟨more, hmore, hm'⟩ := h exchanges hm
  exact ⟨more, hadmits more hmore, hm'⟩

theorem Probe.run_accounted (h : w.Keeps holds) (limit : Option Instant)
    (probe : Probe clusterApi α) {m m' : Moment w} {r : Outcome (Except Failure α)}
    (hrun : probe.run w limit m = (r, m')) :
    Accounted holds m m' fun exchanges =>
      probe.Begins exchanges ∧ ∀ r', r = .returned r' → probe.Admits exchanges r' := by
  induction probe generalizing m with
  | done r =>
    cases hrun
    exact .of_state_eq rfl ⟨trivial, fun r' h => ⟨rfl, (Outcome.returned.inj h).symm⟩⟩
  | crash =>
    cases hrun
    exact .of_state_eq rfl ⟨trivial, nofun⟩
  | ask c next ih =>
    -- A call that is cut off may have changed the state when it was started.
    intro exchanges hm
    rcases run_ask_cases limit c next m with hcut | ⟨s, delay, finish, hstart, hanswered⟩
    · cases hcut.symm.trans hrun
      refine ⟨[], ⟨trivial, nofun⟩, ?_⟩
      rw [List.append_nil]
      exact h.start c hm
    · rw [hanswered] at hrun
      obtain ⟨more, ⟨hbegins, hadmits⟩, hm'⟩ := ih _ hrun _ (h.finish hm hstart)
      refine ⟨⟨c, (finish s).2⟩ :: more, ⟨⟨_, rfl, hbegins⟩, fun r' hr' => ?_⟩, ?_⟩
      · exact ⟨_, more, rfl, hadmits r' hr'⟩
      · simpa using hm'

theorem cutOff_interrupted {l : Limits} {what : String} {last : Option Failure} {m m' : Moment w}
    {r : Except Failure α} (hcut : cutOff l what last m = (.returned r, m')) :
    m'.state = m.state ∧ ∃ i, Interrupted i r := by
  unfold cutOff at hcut
  split at hcut
  · cases hcut
    exact ⟨rfl, _, _, _, rfl⟩
  · cases hcut

/-- An attempt that is cut off. -/
theorem Accounted.cutOff {probe : Probe clusterApi α} {l : Limits} {what : String}
    {last : Option Failure} {m m' m'' : Moment w} {r : Except Failure α}
    (h : Accounted holds m m' probe.Begins)
    (hcut : Wait.cutOff l what last m' = (.returned r, m'')) :
    Accounted holds m m'' (probe.Tries · r) := by
  obtain ⟨hstate, i, hi⟩ := cutOff_interrupted hcut
  intro exchanges hm
  obtain ⟨more, hbegins, hm'⟩ := h exchanges hm
  exact ⟨more, .inr ⟨hbegins, i, hi⟩, hstate ▸ hm'⟩

theorem raceOnce_accounted (h : w.Keeps holds) {l : Limits} {what : String}
    {probe : Probe clusterApi α} {m m' : Moment w} {r : Except Failure α}
    (hrun : raceOnce w l what probe m = (.returned r, m')) :
    Accounted holds m m' (probe.Tries · r) := by
  unfold raceOnce at hrun
  split at hrun
  · exact .cutOff (.of_state_eq rfl probe.begins_nil) hrun
  · split at hrun
    next r' m₁ hprobe =>
      cases hrun
      exact (Probe.run_accounted h _ probe hprobe).mono fun _ hr => .inl (hr.2 r rfl)
    next m₁ hprobe =>
      exact .cutOff ((Probe.run_accounted h _ probe hprobe).mono fun _ hr => hr.1) hrun
    next => cases hrun

/-- An attempt that fails, and those after it. -/
theorem Accounted.again {probe : Probe clusterApi α} {m m' m₁ m₂ : Moment w} {f : Failure}
    {r : Except Failure α} (hfailed : Accounted holds m m₁ (probe.Admits · (.error f)))
    (hstate : m₂.state = m₁.state) (hrest : Accounted holds m₂ m' (probe.Retries · r)) :
    Accounted holds m m' (probe.Retries · r) := by
  intro exchanges hm
  obtain ⟨more, hmore, hm₁⟩ := hfailed exchanges hm
  obtain ⟨rest, hretries, hm'⟩ := hrest _ (hstate ▸ hm₁)
  exact ⟨more ++ rest, .again hmore hretries, by rwa [← List.append_assoc]⟩

theorem Polling.accounted (h : w.Keeps holds) {l : Limits} {pacing : Nat} {what : String}
    {probe : Probe clusterApi α} {m : Moment w} {u : Outcome (Except Failure α) × Moment w}
    (hpolling : Polling w l pacing what probe m u) {r : Except Failure α}
    (hreturned : u.1 = .returned r) : Accounted holds m u.2 (probe.Retries · r) := by
  induction hpolling with
  | unobserved | overrun | crashed => cases hreturned
  | @ended m last =>
    have hcut : Accounted holds m (cutOff l what last m).2 (probe.Tries · r) :=
      .cutOff (.of_state_eq rfl probe.begins_nil) (Prod.ext hreturned rfl)
    exact hcut.mono fun _ => .last
  | unanswered last _ hprobe =>
    have hbegins := (Probe.run_accounted h _ probe hprobe).mono fun _ hr => hr.1
    exact (hbegins.cutOff (Prod.ext hreturned rfl)).mono fun _ => .last
  | decided _ hprobe =>
    cases hreturned
    exact (Probe.run_accounted h _ probe hprobe).mono fun _ hr => .last (.inl (hr.2 r rfl))
  | @awaited m m' f _ hprobe =>
    have hfailed := (Probe.run_accounted h _ probe hprobe).mono fun _ hr => hr.2 _ rfl
    have hcut : Accounted holds m' (cutOff l what (some f) m').2 (probe.Tries · r) :=
      .cutOff (.of_state_eq rfl probe.begins_nil) (Prod.ext hreturned rfl)
    exact hfailed.again rfl (hcut.mono fun _ => .last)
  | again _ hprobe _ _ _ ih =>
    have hfailed := (Probe.run_accounted h _ probe hprobe).mono fun _ hr => hr.2 _ rfl
    exact hfailed.again rfl (ih hreturned)

theorem pollFrom_accounted (h : w.Keeps holds) {l : Limits} {pacing : Nat} {what : String}
    {probe : Probe clusterApi α} {attempts : Nat} {last : Option Failure} {m m' : Moment w}
    {r : Except Failure α}
    (hrun : pollFrom w l pacing what probe attempts last m = (.returned r, m')) :
    Accounted holds m m' (probe.Retries · r) := by
  have haccounted := (pollFrom_polling l pacing what probe attempts last m).accounted h
    (congrArg Prod.fst hrun)
  rwa [hrun] at haccounted

/-- The exchanges of a run that returns account for what it returns. -/
theorem Procedure.run_accounted (h : w.Keeps holds) {patience : Nat} {l : Limits}
    {p : Procedure clusterApi α} {m m' : Moment w} {a : α}
    (hrun : p.run w patience l m = (.returned a, m')) : Accounted holds m m' (p.Admits · a) := by
  induction p generalizing l m m' with
  | done b =>
    cases hrun
    exact .of_state_eq rfl ⟨rfl, rfl⟩
  | race what probe next ih =>
    rw [run_race] at hrun
    rcases hfirst : raceOnce w l what probe m with ⟨r | _ | _, m₁⟩ <;> rw [hfirst] at hrun
    · exact (raceOnce_accounted h hfirst).followed (ih r hrun)
    · cases hrun
    · cases hrun
  | poll pacing what probe next ih =>
    rw [run_poll] at hrun
    rcases hfirst : pollFrom w l pacing what probe (attemptsUntil patience l.endsAt m.now) none m
      with ⟨r | _ | _, m₁⟩ <;> rw [hfirst] at hrun
    · exact (pollFrom_accounted h hfirst).followed (ih r hrun)
    · cases hrun
    · cases hrun
  | within timeout body next ihbody ihnext =>
    rw [run_within] at hrun
    split at hrun
    · cases hrun
    next d _ =>
      rcases hfirst : body.run w patience (l.withDeadline d) m with ⟨b | _ | _, m₁⟩ <;>
        rw [hfirst] at hrun
      · exact (ihbody hfirst).followed (ihnext b hrun)
      · cases hrun
      · cases hrun
  | draw n next ih =>
    intro exchanges hm
    obtain ⟨more, hmore, hm'⟩ := ih _ hrun exchanges (h.choose n hm)
    exact ⟨more, ⟨_, hmore⟩, hm'⟩

end Runs

end Wait

end Reachability
