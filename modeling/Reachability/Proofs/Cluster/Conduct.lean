import Reachability.Proofs.Cluster.Requests

namespace Reachability

open Wait (Instant Limits Moment Outcome Probe Procedure World)

variable {α β γ : Type} {allowed : Call → Prop}

namespace Wait

/-- All calls of a procedure are allowed, whatever the answers are. -/
def Procedure.Confined (allowed : Call → Prop) {α : Type} : Procedure clusterApi α → Prop
  | .done _ => True
  | .race _ probe next => probe.Asks allowed ∧ ∀ r, (next r).Confined allowed
  | .poll _ _ probe next => probe.Asks allowed ∧ ∀ r, (next r).Confined allowed
  | .within _ body next => body.Confined allowed ∧ ∀ b, (next b).Confined allowed
  | .draw _ next => ∀ i, (next i).Confined allowed

theorem Procedure.Confined.bind {p : Procedure clusterApi α} {f : α → Procedure clusterApi β}
    (hp : p.Confined allowed) (hf : ∀ a, (f a).Confined allowed) :
    (p.bind f).Confined allowed := by
  induction p with
  | done a => exact hf a
  | race what probe next ih => exact ⟨hp.1, fun r => ih r (hp.2 r) hf⟩
  | poll pacing what probe next ih => exact ⟨hp.1, fun r => ih r (hp.2 r) hf⟩
  | within timeout body next _ ih => exact ⟨hp.1, fun b => ih b (hp.2 b) hf⟩
  | draw n next ih => exact fun i => ih i (hp i) hf

theorem Probe.Asks.mono {allowed' : Call → Prop} {probe : Probe clusterApi α}
    (hprobe : probe.Asks allowed) (h : ∀ c, allowed c → allowed' c) : probe.Asks allowed' := by
  induction probe with
  | done r | crash => exact trivial
  | ask c next ih => exact ⟨h c hprobe.1, fun answer => ih answer (hprobe.2 answer)⟩

theorem Procedure.Confined.mono {allowed' : Call → Prop} {p : Procedure clusterApi α}
    (hp : p.Confined allowed) (h : ∀ c, allowed c → allowed' c) : p.Confined allowed' := by
  induction p with
  | done a => exact trivial
  | race what probe next ih => exact ⟨hp.1.mono h, fun r => ih r (hp.2 r)⟩
  | poll pacing what probe next ih => exact ⟨hp.1.mono h, fun r => ih r (hp.2 r)⟩
  | within timeout body next ihbody ihnext => exact ⟨ihbody hp.1, fun b => ihnext b (hp.2 b)⟩
  | draw n next ih => exact fun i => ih i (hp i)

/-- The calls that account for a result are among those that are allowed. -/
theorem Procedure.Confined.asks {p : Procedure clusterApi α} (hp : p.Confined allowed) :
    p.Asks allowed := by
  induction p with
  | done a => exact .done a
  | race what probe next ih =>
    rintro exchanges a ⟨before, after, r, rfl, hbefore, hafter⟩
    exact List.forall_mem_append.2 ⟨hp.1.tries hbefore, ih r (hp.2 r) _ _ hafter⟩
  | poll pacing what probe next ih =>
    rintro exchanges a ⟨before, after, r, rfl, hbefore, hafter⟩
    exact List.forall_mem_append.2 ⟨hp.1.retries hbefore, ih r (hp.2 r) _ _ hafter⟩
  | within timeout body next ihbody ihnext =>
    rintro exchanges a ⟨before, after, b, rfl, hbefore, hafter⟩
    exact List.forall_mem_append.2 ⟨ihbody hp.1 _ _ hbefore, ihnext b (hp.2 b) _ _ hafter⟩
  | draw n next ih =>
    rintro exchanges a ⟨i, ha⟩
    exact ih i (hp i) _ _ ha

variable {w : World clusterApi}

theorem Moment.asked_begun (m : Moment w) (c : Call) (state : w.State) :
    (m.begun c state).asked = m.asked ++ [c] := by
  simp only [asked, calls, begun, List.reverse_cons]
  exact List.map_append

theorem Moment.asked_answered (m : Moment w) (c : Call) (delay : Nat) (state : w.State) :
    (m.answered c delay state).asked = m.asked ++ [c] :=
  m.asked_begun c state

theorem Moment.Precedes.asked {m m' : Moment w} (h : m.Precedes m') :
    ∃ rest, m'.asked = m.asked ++ rest := by
  obtain ⟨calls, hcalls, -⟩ := h.started
  refine ⟨calls.reverse.map Prod.snd, ?_⟩
  simp only [Moment.asked, Moment.calls, hcalls, List.reverse_append]
  exact List.map_append

/-- A wait that has not ended starts its call. -/
theorem raceOnce_call_precedes {l : Limits} {m : Moment w} (hlive : l.endedBy m.now = false)
    (what : String) (c : Call) :
    (m.begun c m.state).Precedes (raceOnce w l what (.call (A := clusterApi) c) m).2 := by
  have hbegun (s : w.State) : (m.begun c m.state).Precedes (m.begun c s) :=
    .of_started_eq (Nat.le_refl _) rfl
  unfold raceOnce Probe.call
  rw [hlive, if_neg Bool.false_ne_true]
  rcases Probe.run_ask_cases l.endsAt c .done m with hcut | ⟨s, delay, finish, -, hanswered⟩
  · rw [hcut]
    exact (hbegun _).trans (cutOff_precedes ..)
  · rw [hanswered]
    exact .of_started_eq (Nat.le_add_right _ _) rfl

/-- What holds of the moments of a run for good, as long as its calls are allowed: time passes,
calls start and are answered, and choices are made. -/
structure Lasts (allowed : Call → Prop) (holds : Moment w → Prop) : Prop where
  later {m : Moment w} {t : Instant} (h : holds m) (ht : m.now ≤ t) : holds { m with now := t }
  begun {m : Moment w} {c : Call} (hc : allowed c) (h : holds m) :
    holds (m.begun c (w.start m.state c).1)
  answered {m : Moment w} {c : Call} {s delay finish} (hc : allowed c) (h : holds m)
    (hstart : w.start m.state c = (s, some (delay, finish))) :
    holds (m.answered c delay (finish s).1)
  drawn {m : Moment w} (n : Nat) (h : holds m) : holds { m with state := (w.choose m.state n).1 }

namespace Lasts

variable {holds : Moment w → Prop} {m : Moment w}

theorem run_probe (hlasts : Lasts allowed holds) (limit : Option Instant)
    {probe : Probe clusterApi α} (hprobe : probe.Asks allowed) (hm : holds m) :
    holds (probe.run w limit m).2 := by
  induction probe generalizing m with
  | done r | crash => exact hm
  | ask c next ih =>
    rcases Probe.run_ask_cases limit c next m with hcut | ⟨s, delay, finish, hstart, hanswered⟩
    · rw [hcut]
      exact hlasts.begun hprobe.1 hm
    · rw [hanswered]
      exact ih _ (hprobe.2 _) (hlasts.answered hprobe.1 hm hstart)

theorem run_cutOff (hlasts : Lasts allowed holds) (l : Limits) (what : String)
    (last : Option Failure) (hm : holds m) : holds (cutOff (α := α) l what last m).2 := by
  unfold cutOff
  split
  · exact hlasts.later hm (Nat.le_max_right _ _)
  · exact hm

theorem run_raceOnce (hlasts : Lasts allowed holds) (l : Limits) (what : String)
    {probe : Probe clusterApi α} (hprobe : probe.Asks allowed) (hm : holds m) :
    holds (raceOnce w l what probe m).2 := by
  have hrun := hlasts.run_probe l.endsAt hprobe hm
  unfold raceOnce
  split
  · exact hlasts.run_cutOff l what none hm
  · rcases h : probe.run w l.endsAt m with ⟨r | _ | _, m'⟩ <;> rw [h] at hrun
    · exact hrun
    · exact hlasts.run_cutOff l what none hrun
    · exact hrun

theorem run_polling (hlasts : Lasts allowed holds) {l : Limits} {pacing : Nat} {what : String}
    {probe : Probe clusterApi α} {u : Outcome (Except Failure α) × Moment w}
    (h : Polling w l pacing what probe m u) (hprobe : probe.Asks allowed) (hm : holds m) :
    holds u.2 := by
  have hprobed {m m' : Moment w} {o : Outcome (Except Failure α)} (hm : holds m)
      (hrun : probe.run w l.endsAt m = (o, m')) : holds m' := by
    simpa only [hrun] using hlasts.run_probe l.endsAt hprobe hm
  induction h with
  | unobserved | overrun => exact hm
  | ended last => exact hlasts.run_cutOff l what last hm
  | unanswered last _ hrun => exact hlasts.run_cutOff l what last (hprobed hm hrun)
  | crashed _ hrun => exact hprobed hm hrun
  | decided _ hrun => exact hprobed hm hrun
  | awaited _ hrun => exact hlasts.run_cutOff l what _ (hprobed hm hrun)
  | again _ hrun _ _ _ ih => exact ih (hlasts.later (hprobed hm hrun) (Nat.le_max_left _ _))

theorem andThen (u : Outcome α × Moment w) {k : α → Moment w → Outcome β × Moment w}
    (hu : holds u.2) (hk : ∀ a m, holds m → holds (k a m).2) : holds (Wait.andThen u k).2 := by
  obtain ⟨a | _ | _, m⟩ := u
  · exact hk a m hu
  · exact hu
  · exact hu

/-- What lasts as long as calls are allowed lasts through every run whose calls are. -/
theorem run (hlasts : Lasts allowed holds) {p : Procedure clusterApi α} (hp : p.Confined allowed)
    (patience : Nat) (l : Limits) (hm : holds m) : holds (p.run w patience l m).2 := by
  induction p generalizing l m with
  | done a => exact hm
  | race what probe next ih =>
    rw [Procedure.run_race]
    exact andThen _ (hlasts.run_raceOnce l what hp.1 hm) fun r m hm => ih r (hp.2 r) l hm
  | poll pacing what probe next ih =>
    rw [Procedure.run_poll]
    exact andThen _ (hlasts.run_polling (pollFrom_polling ..) hp.1 hm)
      fun r m hm => ih r (hp.2 r) l hm
  | within timeout body next ihbody ihnext =>
    rw [Procedure.run_within]
    split
    · exact hm
    · exact andThen _ (ihbody hp.1 _ hm) fun b m hm => ihnext b (hp.2 b) l hm
  | draw n next ih => exact ih _ (hp _) l (hlasts.drawn n hm)

end Lasts

/-- The calls of a run whose calls are allowed are allowed, those that are never answered
included. -/
theorem Procedure.Confined.calls {p : Procedure clusterApi α} (hp : p.Confined allowed)
    (patience : Nat) (l : Limits) {m : Moment w} (hm : ∀ c ∈ m.asked, allowed c) :
    ∀ c ∈ (p.run w patience l m).2.asked, allowed c := by
  have hasked (m : Moment w) (c : Call) (state : w.State) (hc : allowed c)
      (hm : ∀ c ∈ m.asked, allowed c) : ∀ c' ∈ (m.begun c state).asked, allowed c' := by
    rw [Moment.asked_begun]
    exact List.forall_mem_append.2 ⟨hm, List.forall_mem_singleton.2 hc⟩
  have hlasts : Lasts (w := w) allowed fun m => ∀ c ∈ m.asked, allowed c :=
    ⟨fun h _ => h, fun hc h => hasked _ _ _ hc h,
      fun {m c s _ finish} hc h _ => hasked m c (finish s).1 hc h, fun _ h => h⟩
  exact hlasts.run hp patience l hm

end Wait

namespace Check

section Runs

variable {w : World clusterApi} (patience : Nat) (l : Limits) (m : Moment w)

/-- What follows a part that fails is left out. -/
theorem run_bind (c : Check α) (f : α → Check β) :
    (c >>= f).run.run w patience l m = Wait.andThen (c.run.run w patience l m) fun r m =>
      match r with
      | .ok a => (f a).run.run w patience l m
      | .error e => (.returned (.error e), m) := by
  refine (Procedure.run_bind c.run _).trans ?_
  congr 1
  funext r m
  cases r <;> rfl

theorem run_request (what : String) (cluster : Cluster) (r : Request) :
    (request what cluster r).run.run w patience l m =
      Wait.raceOnce w l what (probe cluster r) m :=
  Procedure.run_race.trans (Wait.andThen_done _ patience l)

theorem run_poll (pacing : Nat) (what : String) (probe : Probe clusterApi α) :
    (poll pacing what probe).run.run w patience l m =
      Wait.pollFrom w l pacing what probe (Wait.attemptsUntil patience l.endsAt m.now) none m :=
  Procedure.run_poll.trans (Wait.andThen_done _ patience l)

/-- A request, and what its answer calls for. -/
theorem run_attempt_bind (what : String) (cluster : Cluster) (r : Request)
    (f : Except Failure r.Answer → Check β) :
    (attempt (request what cluster r) >>= f).run.run w patience l m =
      Wait.andThen (Wait.raceOnce w l what (probe cluster r) m) fun answer m =>
        (f answer).run.run w patience l m := by
  have hattempt : (attempt (request what cluster r)).run.run w patience l m =
      Wait.andThen ((request what cluster r).run.run w patience l m) fun answer m =>
        (.returned (.ok answer), m) :=
    Procedure.run_bind (request what cluster r).run _
  rw [run_bind, hattempt, run_request, Wait.andThen_assoc]
  rfl

/-- A request that is made before the wait ends comes first among the calls that follow. -/
theorem run_attempt_bind_asked (what : String) (cluster : Cluster) (r : Request)
    (f : Except Failure r.Answer → Check β) (hlive : l.endedBy m.now = false) :
    ∃ rest, ((attempt (request what cluster r) >>= f).run.run w patience l m).2.asked =
      m.asked ++ ⟨cluster, r⟩ :: rest := by
  have hprec : (m.begun ⟨cluster, r⟩ m.state).Precedes
      ((attempt (request what cluster r) >>= f).run.run w patience l m).2 := by
    rw [run_attempt_bind]
    refine (Wait.raceOnce_call_precedes hlive what ⟨cluster, r⟩).trans ?_
    exact Wait.andThen_precedes fun answer m => Procedure.run_precedes ..
  obtain ⟨rest, hrest⟩ := hprec.asked
  refine ⟨rest, hrest.trans ?_⟩
  rw [Moment.asked_begun, List.append_assoc]
  rfl

end Runs

/-- All calls of a check are allowed, whatever the answers are. -/
structure Confined (allowed : Call → Prop) (c : Check α) : Prop where
  confined : c.run.Confined allowed

namespace Confined

theorem pure (a : α) : Confined allowed (Pure.pure a) := ⟨trivial⟩

theorem throw (f : Failure) : Confined allowed (MonadExcept.throw f : Check α) := ⟨trivial⟩

theorem bind {c : Check α} {f : α → Check β} (hc : c.Confined allowed)
    (hf : ∀ a, (f a).Confined allowed) : Confined allowed (c >>= f) := by
  refine ⟨Procedure.Confined.bind hc.confined ?_⟩
  rintro (e | a)
  · exact trivial
  · exact (hf a).confined

theorem request {cluster : Cluster} {r : Request} (h : allowed ⟨cluster, r⟩) (what : String) :
    (Check.request what cluster r).Confined allowed :=
  ⟨⟨h, fun _ => trivial⟩, fun _ => trivial⟩

theorem poll {probe : Probe clusterApi α} (h : probe.Asks allowed) (pacing : Nat) (what : String) :
    (Check.poll pacing what probe).Confined allowed :=
  ⟨h, fun _ => trivial⟩

theorem attempt {c : Check α} (hc : c.Confined allowed) : c.attempt.Confined allowed :=
  ⟨Procedure.Confined.bind hc.confined fun _ => trivial⟩

theorem forM {f : γ → Check Unit} {l : List γ} (hf : ∀ a ∈ l, (f a).Confined allowed) :
    (l.forM f).Confined allowed := by
  induction l with
  | nil => exact .pure ()
  | cons a l ih =>
    obtain ⟨ha, hl⟩ := List.forall_mem_cons.1 hf
    exact .bind ha fun _ => ih hl

theorem asks {c : Check α} (hc : c.Confined allowed) : c.Asks allowed := ⟨hc.confined.asks⟩

theorem mono {allowed' : Call → Prop} {c : Check α} (hc : c.Confined allowed)
    (h : ∀ call, allowed call → allowed' call) : c.Confined allowed' :=
  ⟨hc.confined.mono h⟩

end Confined

end Check

namespace Survey

/-- All calls of a survey are allowed, whatever inventory it starts from. -/
structure Confined (allowed : Call → Prop) (s : Survey α) : Prop where
  confined (i : Inventory) : (s.run.run i).Confined allowed

namespace Confined

theorem pure (a : α) : Confined allowed (Pure.pure a : Survey α) := ⟨fun _ => trivial⟩

theorem bind {s : Survey α} {f : α → Survey β} (hs : s.Confined allowed)
    (hf : ∀ a, (f a).Confined allowed) : Confined allowed (s >>= f) := by
  refine ⟨fun i => Procedure.Confined.bind (hs.confined i) ?_⟩
  rintro ⟨e | a, i'⟩
  · exact trivial
  · exact (hf a).confined i'

theorem check {c : Check α} (hc : c.Confined allowed) : (Survey.check c).Confined allowed :=
  ⟨fun _ => Procedure.Confined.bind hc.confined fun _ => trivial⟩

theorem asks {s : Survey α} (hs : s.Confined allowed) : s.Asks allowed :=
  ⟨fun i => (hs.confined i).asks⟩

theorem mono {allowed' : Call → Prop} {s : Survey α} (hs : s.Confined allowed)
    (h : ∀ call, allowed call → allowed' call) : s.Confined allowed' :=
  ⟨fun i => (hs.confined i).mono h⟩

theorem record (f : Inventory → Inventory) : (Survey.record f).Confined allowed :=
  ⟨fun _ => trivial⟩

theorem ofExcept (e : Except Failure α) : (Survey.ofExcept e).Confined allowed :=
  ⟨fun _ => trivial⟩

theorem attempt {c : Check α} (hc : c.Confined allowed) : (Survey.attempt c).Confined allowed :=
  .check hc.attempt

theorem forM {f : γ → Survey Unit} {l : List γ} (hf : ∀ a ∈ l, (f a).Confined allowed) :
    (l.forM f).Confined allowed := by
  induction l with
  | nil => exact .pure ()
  | cons a l ih =>
    obtain ⟨ha, hl⟩ := List.forall_mem_cons.1 hf
    exact .bind ha fun _ => ih hl

end Confined

end Survey

end Reachability
