import Reachability.Proofs.Simulation.Service

namespace Reachability

open Simulation
open Wait (Instant Limits Moment Probe Procedure World)

variable {α β γ : Type}

/-- In this world, clusters in memory answer every call at once. -/
structure AtOnce (w : World clusterApi) (machines : w.State → List Machine) : Prop
    extends Serves w machines where
  answers {s} (c : Call) (hquiet : Quiet (machines s)) :
    ∃ s' finish, w.start s c = (s', some (0, finish))

theorem atOnce_world : AtOnce (world false) machinesAt where
  toServes := serves_world
  answers _ hquiet := ⟨_, _, world_start_of_shown (withVantagePodHidden_false _) hquiet⟩

namespace Wait

theorem Limits.lt_of_not_endedBy {l : Limits} {t : Instant} (h : l.endedBy t = false) {e : Instant}
    (he : l.endsAt = some e) : t < e := by
  refine Nat.lt_of_not_le fun hle => ?_
  rw [Limits.endedBy_iff.2 ⟨e, he, hle⟩] at h
  cases h

/-- A part of a wait that has not ended and has some time of its own ends later. -/
theorem Limits.exists_endsAt_withDeadline {l : Limits} {t d : Instant} (h : l.endedBy t = false)
    (hd : t < d) : ∃ e, (l.withDeadline d).endsAt = some e ∧ t < e := by
  have hlimits : ∀ e, l.endsAt = some e → t < e := fun e => Limits.lt_of_not_endedBy h
  obtain ⟨_ | c, _ | d'⟩ := l
  · exact ⟨d, rfl, hd⟩
  · exact ⟨min d' d, rfl, Nat.lt_min.2 ⟨hlimits d' rfl, hd⟩⟩
  · exact ⟨min c d, rfl, Nat.lt_min.2 ⟨hlimits c rfl, hd⟩⟩
  · have hboth : t < min c d' := hlimits _ rfl
    refine ⟨min c (min d' d), rfl, ?_⟩
    lia

end Wait

section Calls

variable {w : World clusterApi} {machines : w.State → List Machine} {m : Moment w}

/-- A call is carried out at once, the same under all limits that have not ended. -/
theorem AtOnce.run_ask (h : AtOnce w machines) (hquiet : Quiet (machines m.state)) (c : Call) :
    ∃ m', m'.now = m.now ∧ machines m'.state = (answered (machines m.state) c).1 ∧
      ∀ {β : Type} (next : Except Failure c.request.Answer → Probe clusterApi β) {l : Limits},
        l.endedBy m.now = false → (Probe.ask (A := clusterApi) c next).run w l.endsAt m =
          (next (answered (machines m.state) c).2).run w l.endsAt m' := by
  obtain ⟨s, finish, hstart⟩ := h.answers c hquiet
  obtain ⟨hmachines, hanswer⟩ := h.finish hquiet hstart
  refine ⟨m.answered c 0 (finish s).1, rfl, hmachines, fun next l hl => ?_⟩
  refine (Probe.run_ask_of_answered hstart fun _ => Limits.lt_of_not_endedBy hl).trans ?_
  rw [hanswer]

theorem AtOnce.raceOnce (h : AtOnce w machines) (hquiet : Quiet (machines m.state)) (what : String)
    (c : Call) :
    ∃ m', m'.now = m.now ∧ machines m'.state = (answered (machines m.state) c).1 ∧
      ∀ {l : Limits}, l.endedBy m.now = false →
        Wait.raceOnce w l what (.call (A := clusterApi) c) m =
          (.returned (answered (machines m.state) c).2, m') := by
  obtain ⟨m', hnow, hmachines, hrun⟩ := h.run_ask hquiet c
  refine ⟨m', hnow, hmachines, fun {l} hl => ?_⟩
  have hcall : (Probe.call (A := clusterApi) c).run w l.endsAt m =
      (.returned (answered (machines m.state) c).2, m') := hrun .done hl
  rw [Wait.raceOnce, if_neg (Bool.eq_false_iff.1 hl), hcall]

end Calls

/-- Clusters in memory that answer at once, and waits that have not ended at some instant, from
which on the clock can reckon their pauses. -/
structure Standstill where
  world : World clusterApi
  machines : world.State → List Machine
  atOnce : AtOnce world machines
  now : Instant
  reckons : Wait.after? now Wait.endpointPacing ≠ none
  limits : Limits → Prop
  live {l : Limits} (hl : limits l) : l.endedBy now = false

namespace Standstill

variable (σ : Standstill)

/-- A moment at which the clock stands still and the clusters are in this state. -/
structure At (m : Moment σ.world) (machines : List Machine) : Prop where
  now : m.now = σ.now
  machines : σ.machines m.state = machines

/-- Waits that end sooner or later, but have not ended. -/
def timed : Standstill where
  world := σ.world
  machines := σ.machines
  atOnce := σ.atOnce
  now := σ.now
  reckons := σ.reckons
  limits l := ∃ e, l.endsAt = some e ∧ σ.now < e
  live := fun ⟨_, he, hlt⟩ => Wait.not_endedBy_of_endsAt he hlt

variable {σ} {machines : List Machine} {m : Moment σ.world} {l : Limits}

theorem At.ends (hm : σ.At m machines) (hl : σ.limits l) : l.endedBy m.now = false :=
  hm.now ▸ σ.live hl

theorem At.starts (hm : σ.At m machines) (hl : σ.limits l) {pacing : Nat}
    (hpacing : pacing ≤ Wait.endpointPacing) : Wait.Starts l pacing m :=
  .of_reckoned (Nat.add_le_add_left hpacing _) (hm.now ▸ σ.reckons) (hm.ends hl)

/-- A call is carried out and answered, and the judgement on the answer is the result. -/
theorem run_judged (hl : σ.limits l) (hm : σ.At m machines) (hquiet : Quiet machines) {c : Call}
    {judge : Except Failure c.request.Answer → Option (Except Failure β)} {r : Except Failure β}
    (hjudge : judge (answered machines c).2 = some r) :
    ∃ m', ((probe c.cluster c.request).judged judge).run σ.world l.endsAt m = (.returned r, m') ∧
      σ.At m' (answered machines c).1 := by
  obtain ⟨hnow, rfl⟩ := hm
  obtain ⟨m', hnow', hmachines, hrun⟩ := σ.atOnce.run_ask hquiet c
  refine ⟨m', ?_, hnow'.trans hnow, hmachines⟩
  refine (hrun (fun answer => .ofJudgement (judge answer)) (hnow ▸ σ.live hl)).trans ?_
  rw [hjudge]
  rfl

theorem raceOnce (hl : σ.limits l) (hm : σ.At m machines) (hquiet : Quiet machines) (what : String)
    (c : Call) : ∃ m', Wait.raceOnce σ.world l what (.call (A := clusterApi) c) m =
        (.returned (answered machines c).2, m') ∧ σ.At m' (answered machines c).1 := by
  obtain ⟨hnow, rfl⟩ := hm
  obtain ⟨m', hnow', hmachines, hrun⟩ := σ.atOnce.raceOnce hquiet what c
  exact ⟨m', hrun (hnow ▸ σ.live hl), hnow'.trans hnow, hmachines⟩

end Standstill

namespace Check

/-- Where time stands still, the check succeeds, and `post` holds of its result and the clusters. -/
structure Yields (σ : Standstill) (c : Check α) (machines : List Machine)
    (post : α → List Machine → Prop) : Prop where
  ends (patience : Nat) {l : Limits} {m : Moment σ.world} (hl : σ.limits l)
    (hm : σ.At m machines) :
    ∃ a m' machines', c.run.run σ.world patience l m = (.returned (.ok a), m') ∧
      σ.At m' machines' ∧ post a machines'

namespace Yields

variable {σ : Standstill} {machines : List Machine} {post : α → List Machine → Prop}

theorem pure {a : α} (h : post a machines) : Yields σ (Pure.pure a) machines post :=
  ⟨fun _ {_ m} _ hm => ⟨a, m, machines, rfl, hm, h⟩⟩

theorem mono {c : Check α} {post' : α → List Machine → Prop} (hc : c.Yields σ machines post)
    (hpost : ∀ a machines', post a machines' → post' a machines') :
    c.Yields σ machines post' := by
  refine ⟨fun patience {l m} hl hm => ?_⟩
  obtain ⟨a, m', machines', hrun, hm', ha⟩ := hc.ends patience hl hm
  exact ⟨a, m', machines', hrun, hm', hpost a machines' ha⟩

theorem bind {c : Check α} {f : α → Check β} {post' : β → List Machine → Prop}
    (hc : c.Yields σ machines post)
    (hf : ∀ a machines', post a machines' → (f a).Yields σ machines' post') :
    (c >>= f).Yields σ machines post' := by
  refine ⟨fun patience {l m} hl hm => ?_⟩
  obtain ⟨a, m', machines', hrun, hm', ha⟩ := hc.ends patience hl hm
  rw [run_bind, hrun]
  exact (hf a machines' ha).ends patience hl hm'

/-- A part with time of its own, of which it needs none. -/
theorem within {c : Check α} {timeout : Nat} (hc : c.Yields σ.timed machines post)
    (hpositive : 0 < timeout) (hfits : Wait.after? σ.now timeout ≠ none) :
    (Check.within timeout c).Yields σ machines post := by
  refine ⟨fun patience {l m} hl hm => ?_⟩
  obtain ⟨d, hd⟩ := Option.ne_none_iff_exists'.1 hfits
  have hlater : σ.now < d := by
    rw [Wait.eq_of_after?_eq_some hd]
    exact Nat.lt_add_of_pos_right hpositive
  obtain ⟨a, m', machines', hrun, hm', ha⟩ := hc.ends patience
    (Limits.exists_endsAt_withDeadline (σ.live hl) hlater) ⟨hm.now, hm.machines⟩
  refine ⟨a, m', machines', ?_, ⟨hm'.now, hm'.machines⟩, ha⟩
  refine Procedure.run_within.trans ?_
  rw [hm.now, hd]
  exact congrArg (Wait.andThen · _) hrun

theorem attempt (hquiet : Quiet machines) (what : String) (c : Call) :
    (Check.attempt (Check.request what c.cluster c.request)).Yields σ machines
      fun answer machines' =>
        answer = (answered machines c).2 ∧ machines' = (answered machines c).1 := by
  refine ⟨fun patience {l m} hl hm => ?_⟩
  obtain ⟨m', hrun, hm'⟩ := σ.raceOnce hl hm hquiet what c
  refine ⟨_, m', _, ?_, hm', rfl, rfl⟩
  refine (Procedure.run_bind (Check.request what c.cluster c.request).run _).trans ?_
  exact congrArg (Wait.andThen · _) ((run_request patience l m what c.cluster c.request).trans hrun)

theorem request (hquiet : Quiet machines) {what : String} {c : Call} {a : c.request.Answer}
    (hanswer : (answered machines c).2 = .ok a) :
    (Check.request what c.cluster c.request).Yields σ machines fun a' machines' =>
      a' = a ∧ machines' = (answered machines c).1 := by
  refine ⟨fun patience {l m} hl hm => ?_⟩
  obtain ⟨m', hrun, hm'⟩ := σ.raceOnce hl hm hquiet what c
  refine ⟨a, m', _, ?_, hm', rfl, rfl⟩
  exact (run_request patience l m what c.cluster c.request).trans (hanswer ▸ hrun)

/-- A wait for a good answer, which the first answer is. -/
theorem poll (hquiet : Quiet machines) {pacing : Nat} (hpacing : pacing ≤ Wait.endpointPacing)
    {what : String} {c : Call}
    {judge : Except Failure c.request.Answer → Option (Except Failure α)} {a : α}
    (hjudge : judge (answered machines c).2 = some (.ok a)) :
    (Check.poll pacing what ((probe c.cluster c.request).judged judge)).Yields σ.timed machines
      fun a' machines' => a' = a ∧ machines' = (answered machines c).1 := by
  refine ⟨fun patience {l m} hl hm => ?_⟩
  obtain ⟨m', hrun, hm'⟩ := σ.timed.run_judged hl hm hquiet hjudge
  obtain ⟨e, he, hlt⟩ := id hl
  have hattempts : Wait.attemptsUntil patience l.endsAt m.now =
      patience + (e - m.now) + 1 := by
    simp [Wait.attemptsUntil, he, Nat.add_assoc]
  refine ⟨a, m', _, ?_, hm', rfl, rfl⟩
  rw [run_poll, hattempts, Wait.pollFrom_succ (hm.starts hl hpacing), hrun]
  rfl

/-- Whichever element is chosen. -/
theorem choose? {l : List α} (hl : l ≠ []) : (Check.choose? l).Yields σ machines
    fun chosen machines' => (∃ a ∈ l, chosen = some a) ∧ machines' = machines := by
  cases l with
  | nil => exact absurd rfl hl
  | cons a rest =>
    refine ⟨fun patience {l m} _ hm => ?_⟩
    refine ⟨_, _, _, rfl, ⟨hm.now, ?_⟩, ⟨_, List.getElem_mem _, rfl⟩, rfl⟩
    exact (σ.atOnce.choose m.state rest.length).trans hm.machines

/-- Checks that leave the clusters alone. -/
theorem forM {f : γ → Check Unit} {l : List γ}
    (hf : ∀ a ∈ l, (f a).Yields σ machines fun _ machines' => machines' = machines) :
    (l.forM f).Yields σ machines fun _ machines' => machines' = machines := by
  induction l with
  | nil => exact pure rfl
  | cons a l ih =>
    obtain ⟨ha, hl⟩ := List.forall_mem_cons.1 hf
    refine .bind ha ?_
    rintro _ _ rfl
    exact ih hl

end Yields

end Check

namespace Survey

/-- Where time stands still, the survey succeeds, and `post` holds of its result, the inventory that
it leaves, and the clusters. -/
structure Yields (σ : Standstill) (s : Survey α) (i : Inventory) (machines : List Machine)
    (post : α → Inventory → List Machine → Prop) : Prop where
  ends (patience : Nat) {l : Limits} {m : Moment σ.world} (hl : σ.limits l)
    (hm : σ.At m machines) :
    ∃ a i' m' machines', (s.run.run i).run σ.world patience l m = (.returned (.ok a, i'), m') ∧
      σ.At m' machines' ∧ post a i' machines'

namespace Yields

variable {σ : Standstill} {i : Inventory} {machines : List Machine}
  {post : α → Inventory → List Machine → Prop}

theorem pure {a : α} (h : post a i machines) : Yields σ (Pure.pure a) i machines post :=
  ⟨fun _ {_ m} _ hm => ⟨a, i, m, machines, rfl, hm, h⟩⟩

theorem mono {s : Survey α} {post' : α → Inventory → List Machine → Prop}
    (hs : s.Yields σ i machines post)
    (hpost : ∀ a i' machines', post a i' machines' → post' a i' machines') :
    s.Yields σ i machines post' := by
  refine ⟨fun patience {l m} hl hm => ?_⟩
  obtain ⟨a, i', m', machines', hrun, hm', ha⟩ := hs.ends patience hl hm
  exact ⟨a, i', m', machines', hrun, hm', hpost a i' machines' ha⟩

theorem bind {s : Survey α} {f : α → Survey β} {post' : β → Inventory → List Machine → Prop}
    (hs : s.Yields σ i machines post)
    (hf : ∀ a i' machines', post a i' machines' → (f a).Yields σ i' machines' post') :
    (s >>= f).Yields σ i machines post' := by
  refine ⟨fun patience {l m} hl hm => ?_⟩
  obtain ⟨a, i', m', machines', hrun, hm', ha⟩ := hs.ends patience hl hm
  rw [run_bind, hrun]
  exact (hf a i' machines' ha).ends patience hl hm'

/-- A part that is left out under some condition. -/
theorem ite_bind {q : Prop} [Decidable q] {s : Survey Unit} {f : Unit → Survey β}
    {between : Inventory → List Machine → Prop} {post' : β → Inventory → List Machine → Prop}
    (hs : q → s.Yields σ i machines fun _ => between) (hskipped : ¬ q → between i machines)
    (hf : ∀ i' machines', between i' machines' → (f ()).Yields σ i' machines' post') :
    Yields σ (if q then s >>= f else f ()) i machines post' := by
  split
  next hq => exact (hs hq).bind fun _ => hf
  next hq => exact hf i machines (hskipped hq)

theorem check {c : Check α} {done : α → List Machine → Prop} (hc : c.Yields σ machines done) :
    (Survey.check c).Yields σ i machines fun a i' machines' => done a machines' ∧ i' = i := by
  refine ⟨fun patience {l m} hl hm => ?_⟩
  obtain ⟨a, m', machines', hrun, hm', ha⟩ := hc.ends patience hl hm
  refine ⟨a, i, m', machines', ?_, hm', ha, rfl⟩
  rw [run_check, hrun]
  rfl

theorem check_same {c : Check α}
    (hc : c.Yields σ machines fun _ machines' => machines' = machines) :
    (Survey.check c).Yields σ i machines fun _ i' machines' => i' = i ∧ machines' = machines :=
  (Yields.check hc).mono fun _ _ _ h => ⟨h.2, h.1⟩

theorem record (f : Inventory → Inventory) :
    (Survey.record f).Yields σ i machines fun _ i' machines' => i' = f i ∧ machines' = machines :=
  ⟨fun _ {_ m} _ hm => ⟨(), f i, m, machines, rfl, hm, rfl, rfl⟩⟩

theorem inventory_bind {f : Inventory → Survey α} (hf : (f i).Yields σ i machines post) :
    Yields σ (Survey.inventory >>= f) i machines post :=
  ⟨fun patience {_ _} hl hm => hf.ends patience hl hm⟩

theorem ofExcept {e : Except Failure α} {a : α} (h : e = .ok a) :
    (Survey.ofExcept e).Yields σ i machines fun a' i' machines' =>
      a' = a ∧ i' = i ∧ machines' = machines := by
  subst h
  exact ⟨fun _ {_ m} _ hm => ⟨a, i, m, machines, rfl, hm, rfl, rfl, rfl⟩⟩

/-- Surveys that leave the clusters alone and change the inventory step by step. -/
theorem forM {f : γ → Survey Unit} {step : Inventory → γ → Inventory} {l : List γ}
    (hf : ∀ a ∈ l, ∀ i, (f a).Yields σ i machines fun _ i' machines' =>
      i' = step i a ∧ machines' = machines) :
    (l.forM f).Yields σ i machines fun _ i' machines' =>
      i' = l.foldl step i ∧ machines' = machines := by
  induction l generalizing i with
  | nil => exact pure ⟨rfl, rfl⟩
  | cons a l ih =>
    obtain ⟨ha, hl⟩ := List.forall_mem_cons.1 hf
    refine .bind (ha i) ?_
    rintro _ _ _ ⟨rfl, rfl⟩
    exact ih hl

end Yields

end Survey

end Reachability
