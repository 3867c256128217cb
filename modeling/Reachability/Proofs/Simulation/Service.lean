import Reachability.Proofs.Cluster.Conduct
import Reachability.Proofs.Cluster.Record
import Reachability.Proofs.Provision.Resumption

namespace Reachability

open Simulation
open Wait (Moment Outcome Procedure World)

variable {α : Type}

/-- Calls are answered by the clusters alone. -/
def Quiet (machines : List Machine) : Prop := ∀ m ∈ machines, m.rules = []

/-- In this world, clusters in memory answer calls in their own time, or never. A call that is
answered is carried out, and nothing else changes the clusters. -/
structure Serves (w : World clusterApi) (machines : w.State → List Machine) : Prop where
  start {s} (c : Call) (hquiet : Quiet (machines s)) : machines (w.start s c).1 = machines s
  finish {s c s' delay finish} (hquiet : Quiet (machines s))
    (hstart : w.start s c = (s', some (delay, finish))) :
    machines (finish s').1 = (answered (machines s) c).1 ∧
      (finish s').2 = (answered (machines s) c).2
  choose (s) (n : Nat) : machines (w.choose s n).1 = machines s

theorem withVantagePodHidden_false (r : Request) : withVantagePodHidden false r = r := by
  cases r <;> rfl

/-- Clusters in memory that answer at once. -/
theorem serves_world : Serves (world false) machinesAt where
  start c hquiet := congrArg Prod.fst (world_start_of_shown (withVantagePodHidden_false _) hquiet)
  finish {_ c s' delay finish} hquiet hstart := by
    have hanswered := world_start_of_shown (c := c) (withVantagePodHidden_false _) hquiet
    obtain ⟨rfl, hcourse⟩ := Prod.mk.inj (hanswered.symm.trans hstart)
    obtain ⟨rfl, rfl⟩ := Prod.mk.inj (Option.some.inj hcourse)
    exact ⟨rfl, rfl⟩
  choose _ _ := rfl

/-- In this world, clusters in memory answer every call in their own time. -/
structure Attends (w : World clusterApi) (machines : w.State → List Machine) : Prop
    extends Serves w machines where
  answers {s} (c : Call) (hquiet : Quiet (machines s)) :
    ∃ s' delay finish, w.start s c = (s', some (delay, finish))

theorem attends_world : Attends (world false) machinesAt where
  toServes := serves_world
  answers _ hquiet := ⟨_, _, _, world_start_of_shown (withVantagePodHidden_false _) hquiet⟩

theorem answered_fst (machines : List Machine) (c : Call) : (answered machines c).1 =
    updateStore machines c.cluster.id fun s => (s.answer (shownPod c.request) c.request).1 := by
  cases hm : machines[c.cluster.id]? with
  | some m => rw [answered_of_getElem? hm]
  | none =>
    have hunchanged : updateStore machines c.cluster.id
        (fun s => (s.answer (shownPod c.request) c.request).1) = machines :=
      updateStore_eq_self fun m hm' => by rw [hm] at hm'; cases hm'
    rw [hunchanged, answered, answerFrom, hm]

/-- These exchanges take the clusters from one state to another. -/
def Follows : List Machine → List Exchange → List Machine → Prop
  | machines, [], machines' => machines' = machines
  | machines, x :: rest, machines' =>
    x.answer = (answered machines x.call).2 ∧ Follows (answered machines x.call).1 rest machines'

theorem follows_append {machines machines'' : List Machine} {exchanges exchanges' : List Exchange} :
    Follows machines (exchanges ++ exchanges') machines'' ↔ ∃ machines',
      Follows machines exchanges machines' ∧ Follows machines' exchanges' machines'' := by
  induction exchanges generalizing machines with
  | nil => simp [Follows]
  | cons x exchanges ih => simp [Follows, ih, and_assoc]

theorem Follows.quiet {machines machines' : List Machine} {exchanges : List Exchange}
    (h : Follows machines exchanges machines') (hquiet : Quiet machines) : Quiet machines' := by
  induction exchanges generalizing machines with
  | nil =>
    obtain rfl := h
    exact hquiet
  | cons x exchanges ih =>
    refine ih h.2 ?_
    rw [answered_fst]
    exact rules_updateStore hquiet

variable {w : World clusterApi} {machines : w.State → List Machine}

theorem Serves.keeps (h : Serves w machines) {initial : List Machine} (hquiet : Quiet initial) :
    w.Keeps fun exchanges s => Follows initial exchanges (machines s) where
  start c hs := by
    rw [h.start c (hs.quiet hquiet)]
    exact hs
  finish hs hstart := by
    obtain ⟨hmachines, hanswer⟩ := h.finish (hs.quiet hquiet) hstart
    refine follows_append.2 ⟨_, hs, ?_⟩
    exact ⟨hanswer, hmachines⟩
  choose n hs := by
    rw [h.choose]
    exact hs

/-- What a run exchanges accounts for its result and for what it leaves on the clusters. -/
theorem Serves.run_follows (h : Serves w machines) {p : Procedure clusterApi α} {patience : Nat}
    {l : Wait.Limits} {m m' : Moment w} {a : α} (hquiet : Quiet (machines m.state))
    (hrun : p.run w patience l m = (.returned a, m')) :
    ∃ exchanges, p.Admits exchanges a ∧
      Follows (machines m.state) exchanges (machines m'.state) := by
  obtain ⟨exchanges, hadmits, hfollows⟩ := p.run_accounted (h.keeps hquiet) hrun [] rfl
  exact ⟨exchanges, hadmits, hfollows⟩

theorem Serves.recorded (h : Serves w machines) : Serves w.recorded fun s => machines s.1 where
  start {s} c hquiet := h.start c hquiet
  finish {s c s' delay finish} hquiet hstart := by
    rcases hcourse : w.start s.1 c with ⟨s₁, _ | ⟨delay₁, finish₁⟩⟩ <;>
      simp only [World.recorded, hcourse, Option.map_none, Option.map_some] at hstart <;>
      cases hstart
    exact h.finish hquiet hcourse
  choose s n := h.choose s.1 n

theorem Attends.recorded (h : Attends w machines) :
    Attends w.recorded fun s => machines s.1 where
  toServes := h.toServes.recorded
  answers {s} c hquiet := by
    obtain ⟨s', delay, finish, hstart⟩ := h.answers c hquiet
    simp only [World.recorded, hstart, Option.map_some]
    exact ⟨_, _, _, rfl⟩

/-- What a run adds to the record accounts for its result and for what it leaves on the clusters. -/
theorem Serves.run_recorded (h : Serves w machines) {p : Procedure clusterApi α} {patience : Nat}
    {l : Wait.Limits} {m m' : Moment w.recorded} {a : α} (hquiet : Quiet (machines m.state.1))
    (hrun : p.run w.recorded patience l m = (.returned a, m')) :
    ∃ exchanges, p.Admits exchanges a ∧ m'.record = m.record ++ exchanges ∧
      Follows (machines m.state.1) exchanges (machines m'.state.1) := by
  have hkeeps := (Wait.recorded_keeps w m.record).and (h.recorded.keeps hquiet)
  obtain ⟨exchanges, hadmits, hrecord, hfollows⟩ :=
    p.run_accounted hkeeps hrun [] ⟨(List.append_nil _).symm, rfl⟩
  exact ⟨exchanges, hadmits, hrecord, hfollows⟩

/-- Calls that are given up are the only ones that are disturbed. -/
theorem Serves.disturbs (h : Serves w machines) : Disturbs w machines where
  start c hquiet := .inl (h.start c hquiet)
  finish hquiet hstart := .inl (h.finish hquiet hstart)
  choose := h.choose

/-- What holds whether an allowed call is carried out or not lasts as long as calls are allowed. -/
theorem Disturbs.lasts (h : Disturbs w machines) {allowed : Call → Prop}
    {holds : List Machine → Prop} (hquiet : ∀ {machines}, holds machines → Quiet machines)
    (hanswered : ∀ {machines c}, allowed c → holds machines → holds (answered machines c).1) :
    Wait.Lasts (w := w) allowed fun m => holds (machines m.state) where
  later hm _ := hm
  begun {m c} hc hm := by
    rcases h.start c (hquiet hm) with hsame | hdone
    · exact hsame.symm ▸ hm
    · exact hdone.symm ▸ hanswered hc hm
  answered {m c s delay finish} hc hm hstart := by
    have hends : machines (finish s).1 = machines m.state ∨
        machines (finish s).1 = (answered (machines m.state) c).1 :=
      (h.finish (hquiet hm) hstart).elim (fun hdone => .inr hdone.1) And.left
    rcases hends with hsame | hdone
    · exact hsame.symm ▸ hm
    · exact hdone.symm ▸ hanswered hc hm
  drawn {m} n hm := (h.choose m.state n).symm ▸ hm

/-- Where nothing ends it, a call of a probe is carried out and answered. -/
theorem Attends.run_ask (h : Attends w machines) (c : Call) {m : Moment w}
    (hquiet : Quiet (machines m.state)) :
    ∃ m', machines m'.state = (answered (machines m.state) c).1 ∧
      ∀ next : Except Failure c.request.Answer → Wait.Probe clusterApi α,
        (Wait.Probe.ask (A := clusterApi) c next).run w none m =
          (next (answered (machines m.state) c).2).run w none m' := by
  obtain ⟨s, delay, finish, hstart⟩ := h.answers c hquiet
  obtain ⟨hmachines, hanswer⟩ := h.finish hquiet hstart
  refine ⟨m.answered c delay (finish s).1, hmachines, fun next => ?_⟩
  refine (Wait.Probe.run_ask_of_answered hstart fun e he => by cases he).trans ?_
  rw [hanswer]

/-- Where nothing ends it, a request is carried out and answered. -/
theorem Attends.raceOnce (h : Attends w machines) (what : String) (c : Call) {m : Moment w}
    (hquiet : Quiet (machines m.state)) :
    ∃ m', Wait.raceOnce w {} what (.call (A := clusterApi) c) m =
        (.returned (answered (machines m.state) c).2, m') ∧
      machines m'.state = (answered (machines m.state) c).1 := by
  obtain ⟨s, delay, finish, hstart⟩ := h.answers c hquiet
  obtain ⟨hmachines, hanswer⟩ := h.finish hquiet hstart
  refine ⟨m.answered c delay (finish s).1, ?_, hmachines⟩
  rw [Wait.raceOnce_call_of_answered what hstart, hanswer]

/-- Clusters that answer every call, and nothing that ends the run. -/
def Attends.stage (h : Attends w machines) : Stage where
  world := w
  machines := machines
  limits l := l = {}
  disturbed := False
  request := by
    rintro what c patience _ m - rfl hquiet
    obtain ⟨m', hrun, hmachines⟩ := h.raceOnce what c hquiet
    exact ⟨_, m', (Check.run_request patience {} m what c.cluster c.request).trans hrun,
      .inl ⟨rfl, hmachines⟩⟩

end Reachability
