import Reachability.Proofs.Cluster.Interruption
import Reachability.Simulation.World

namespace Reachability

open Simulation
open Wait (Limits Moment Outcome)

/-- What may befall a call. -/
inductive Interference where
  /-- The cluster answers, after some time. -/
  | none (delay : Nat)
  /-- The call fails, but not for what is or is not on the cluster. It may have been carried out
  nevertheless. -/
  | fails (delay : Nat) (f : Failure) (carriedOut : Bool) (hmissing : f.isNotFound = false)
      (hthere : f.isAlreadyExists = false)
  /-- The call is not answered, whether it is carried out or not. -/
  | hangs (carriedOut : Bool)

/-- The machines after a call that may have been carried out. -/
def carryOut (c : Call) (carriedOut : Bool) (machines : List Machine) : List Machine :=
  if carriedOut then (answerFrom machines c.cluster.id (shownPod c.request) c.request).1
  else machines

/-- Clusters in memory whose calls are interfered with, each in its own way. -/
def disturbedWorld (interference : Nat → Interference) : Wait.World clusterApi where
  State := Nat × List Machine
  start := fun (n, machines) c =>
    match interference n with
    | .none delay =>
      ((n + 1, machines), some (delay, fun (n, machines) =>
        let (machines, answer) := answerFrom machines c.cluster.id (shownPod c.request) c.request
        ((n, machines), answer)))
    | .fails delay f carriedOut _ _ =>
      ((n + 1, machines), some (delay, fun (n, machines) =>
        ((n, carryOut c carriedOut machines), .error f)))
    | .hangs carriedOut => ((n + 1, carryOut c carriedOut machines), none)
  choose state _ := (state, ⟨0, Nat.succ_pos _⟩)

variable {interference : Nat → Interference} {α β : Type}

/-- The clusters at some point of a disturbed run. -/
def machinesIn (s : (disturbedWorld interference).State) : List Machine :=
  (show Nat × List Machine from s).2

/-- The state of the clusters and the answer if a call is not interfered with. -/
def answered (machines : List Machine) (c : Call) :
    List Machine × Except Failure c.request.Answer :=
  answerFrom machines c.cluster.id (shownPod c.request) c.request

/-- A failure that says nothing about what is on the cluster. -/
def Failure.Uninformative (f : Failure) : Prop := f.isNotFound = false ∧ f.isAlreadyExists = false

/-- A single call is cut off, before it starts or while it is under way, or it is answered. -/
theorem Wait.raceOnce_call {A : Wait.Api} (w : Wait.World A) (l : Limits) (what : String)
    (c : A.Call) (m : Moment w) :
    (∃ m', (m'.state = m.state ∨ m'.state = (w.start m.state c).1) ∧
      Wait.raceOnce w l what (.call c) m = Wait.cutOff l what none m') ∨
    ∃ s delay finish m', w.start m.state c = (s, some (delay, finish)) ∧
      Wait.raceOnce w l what (.call c) m = (.returned (finish s).2, m') ∧
      m'.state = (finish s).1 := by
  unfold Wait.raceOnce
  split
  · exact .inl ⟨m, .inl rfl, rfl⟩
  · unfold Wait.Probe.call
    rcases Wait.Probe.run_ask_cases l.endsAt c .done m with
      hcut | ⟨s, delay, finish, hstart, hanswered⟩
    · rw [hcut]
      exact .inl ⟨_, .inr rfl, rfl⟩
    · rw [hanswered]
      exact .inr ⟨s, delay, finish, m.answered c delay (finish s).1, hstart, rfl, rfl⟩

/-- Where nothing ends the wait, a call that is answered is waited for. -/
theorem Wait.raceOnce_call_of_answered {A : Wait.Api} {w : Wait.World A} (what : String)
    {c : A.Call} {m : Moment w} {s : w.State} {delay : Nat}
    {finish : w.State → w.State × Except Failure (A.Answer c)}
    (hstart : w.start m.state c = (s, some (delay, finish))) :
    Wait.raceOnce w {} what (.call c) m =
      (.returned (finish s).2, m.answered c delay (finish s).1) := by
  have hlive : ({} : Limits).endedBy m.now = false := rfl
  have hearly : ∀ e, ({} : Limits).endsAt = some e → m.now + delay < e := fun e he => by cases he
  unfold Wait.raceOnce Wait.Probe.call
  rw [hlive, if_neg Bool.false_ne_true, Wait.Probe.run_ask_of_answered hstart hearly]
  rfl

theorem Wait.cutOff_cases {w : Wait.World clusterApi} (l : Limits) (what : String)
    (m : Moment w) :
    (Wait.cutOff (α := α) l what none m).2.state = m.state ∧
      ∀ answer, (Wait.cutOff (α := α) l what none m).1 = .returned answer →
        ∃ f, answer = .error f ∧ f.Uninformative := by
  unfold Wait.cutOff
  split
  · refine ⟨rfl, fun answer h => ⟨_, (Outcome.returned.inj h).symm, ?_⟩⟩
    exact ⟨isNotFound_interrupt .., isAlreadyExists_interrupt ..⟩
  · exact ⟨rfl, nofun⟩

theorem carryOut_cases (c : Call) (carriedOut : Bool) (machines : List Machine) :
    carryOut c carriedOut machines = machines ∨
      carryOut c carriedOut machines = (answered machines c).1 := by
  cases carriedOut with
  | false => exact .inl rfl
  | true => exact .inr rfl

/-- When a disturbed call starts, it is carried out at once or not. -/
theorem machinesIn_start (s : (disturbedWorld interference).State) (c : Call) :
    machinesIn ((disturbedWorld interference).start s c).1 = machinesIn s ∨
      machinesIn ((disturbedWorld interference).start s c).1 = (answered (machinesIn s) c).1 := by
  obtain ⟨n, machines⟩ := s
  simp only [disturbedWorld]
  cases interference n with
  | none delay => exact .inl rfl
  | fails delay f carriedOut _ _ => exact .inl rfl
  | hangs carriedOut => exact carryOut_cases c carriedOut machines

/-- How a disturbed call may end: it is carried out and answered, or else it may or may not be
carried out, and fails in a way that says nothing about what is on the cluster. -/
theorem machinesIn_finish {s s' : (disturbedWorld interference).State} {c : Call} {delay : Nat}
    {finish : (disturbedWorld interference).State →
      (disturbedWorld interference).State × Except Failure c.request.Answer}
    (h : (disturbedWorld interference).start s c = (s', some (delay, finish))) :
    (machinesIn (finish s').1 = (answered (machinesIn s) c).1 ∧
        (finish s').2 = (answered (machinesIn s) c).2) ∨
      ((machinesIn (finish s').1 = machinesIn s ∨
          machinesIn (finish s').1 = (answered (machinesIn s) c).1) ∧
        ∃ f, (finish s').2 = .error f ∧ f.Uninformative) := by
  obtain ⟨n, machines⟩ := s
  simp only [disturbedWorld] at h
  cases hi : interference n with
  | none delay =>
    simp only [hi] at h
    cases h
    exact .inl ⟨rfl, rfl⟩
  | fails delay f carriedOut hmissing hthere =>
    simp only [hi] at h
    cases h
    exact .inr ⟨carryOut_cases c carriedOut machines, f, rfl, hmissing, hthere⟩
  | hangs carriedOut =>
    simp only [hi] at h
    cases h

/-- How a request may end: it is carried out and answered, or else it may or may not be carried out,
and its failure, if there is one, says nothing about what is on the cluster. -/
def RequestEnds (disturbed : Prop) (machines : List Machine) (c : Call)
    (outcome : Outcome (Except Failure c.request.Answer)) (machines' : List Machine) : Prop :=
  (outcome = .returned (answered machines c).2 ∧ machines' = (answered machines c).1) ∨
    (disturbed ∧ (machines' = machines ∨ machines' = (answered machines c).1) ∧
      ∀ answer, outcome = .returned answer → ∃ f, answer = .error f ∧ f.Uninformative)

/-- The requests that a deployment makes of its own accord. -/
def Request.Provisions : Request → Prop
  | .get .. | .create .. | .listNodes => True
  | _ => False

/-- Circumstances under which deployments run, disturbed or not. -/
structure Stage where
  world : Wait.World clusterApi
  machines : world.State → List Machine
  limits : Limits → Prop
  disturbed : Prop
  request : ∀ (what : String) (c : Call) (patience : Nat) (l : Limits) (m : Moment world),
    c.request.Provisions → limits l → (∀ machine ∈ machines m.state, machine.rules = []) →
    ∃ outcome m', (Check.request what c.cluster c.request).run.run world patience l m =
        (outcome, m') ∧
      RequestEnds disturbed (machines m.state) c outcome (machines m'.state)

section Runs

variable {w : Wait.World clusterApi} {machines : w.State → List Machine}

/-- In this world, calls to clusters in memory may be disturbed: they are carried out and answered,
or else they may or may not be carried out, and fail in a way that says nothing about what is on the
clusters, or are not answered at all. -/
structure Disturbs (w : Wait.World clusterApi) (machines : w.State → List Machine) : Prop where
  start {s} (c : Call) (hquiet : ∀ m ∈ machines s, m.rules = []) :
    machines (w.start s c).1 = machines s ∨ machines (w.start s c).1 = (answered (machines s) c).1
  finish {s c s' delay finish} (hquiet : ∀ m ∈ machines s, m.rules = [])
    (hstart : w.start s c = (s', some (delay, finish))) :
    (machines (finish s').1 = (answered (machines s) c).1 ∧
        (finish s').2 = (answered (machines s) c).2) ∨
      ((machines (finish s').1 = machines s ∨
          machines (finish s').1 = (answered (machines s) c).1) ∧
        ∃ f, (finish s').2 = .error f ∧ f.Uninformative)
  choose (s) (n : Nat) : machines (w.choose s n).1 = machines s

theorem disturbs_disturbedWorld (interference : Nat → Interference) :
    Disturbs (disturbedWorld interference) machinesIn where
  start c _ := machinesIn_start _ c
  finish _ hstart := machinesIn_finish hstart
  choose _ _ := rfl

theorem Disturbs.run_request (h : Disturbs w machines) (what : String) (c : Call) (patience : Nat)
    (l : Limits) (m : Moment w) (hquiet : ∀ machine ∈ machines m.state, machine.rules = []) :
    ∃ outcome m', (Check.request what c.cluster c.request).run.run w patience l m = (outcome, m') ∧
      RequestEnds True (machines m.state) c outcome (machines m'.state) := by
  have hrun : (Check.request what c.cluster c.request).run.run w patience l m =
      Wait.raceOnce w l what (.call c) m :=
    Wait.Procedure.run_race.trans (Wait.andThen_done _ patience l)
  rcases Wait.raceOnce_call w l what c m with
    ⟨m', hm', heq⟩ | ⟨s, delay, finish, m', hstart, heq, hm'⟩
  · obtain ⟨hstate, hanswer⟩ := Wait.cutOff_cases (α := clusterApi.Answer c) l what m'
    refine ⟨(Wait.cutOff l what none m').1, (Wait.cutOff l what none m').2, hrun.trans heq,
      .inr ⟨trivial, ?_, hanswer⟩⟩
    rw [hstate]
    rcases hm' with hm' | hm'
    · exact .inl (congrArg machines hm')
    · rw [hm']
      exact h.start c hquiet
  · refine ⟨.returned (finish s).2, m', hrun.trans heq, ?_⟩
    rw [hm']
    rcases h.finish hquiet hstart with ⟨hmachines, hanswer⟩ | ⟨hmachines, f, hanswer, hf⟩
    · exact .inl ⟨congrArg Outcome.returned hanswer, hmachines⟩
    · refine .inr ⟨trivial, hmachines, fun answer h => ⟨f, ?_, hf⟩⟩
      exact (Outcome.returned.inj h).symm.trans hanswer

/-- Clusters whose calls may be disturbed, under any limits. -/
def Disturbs.stage (h : Disturbs w machines) : Stage where
  world := w
  machines := machines
  limits _ := True
  disturbed := True
  request what c patience l m _ _ hquiet := h.run_request what c patience l m hquiet

end Runs

/-- The clusters at some point of an undisturbed run. -/
def machinesAt {hidesVantagePod : Bool} (s : (world hidesVantagePod).State) : List Machine := s

/-- Without rules, a call that shows what it is about is answered at once. -/
theorem world_start_of_shown {hidesVantagePod : Bool} {machines : List Machine} {c : Call}
    (hshown : withVantagePodHidden hidesVantagePod c.request = c.request)
    (hquiet : ∀ m ∈ machines, m.rules = []) :
    (world hidesVantagePod).start machines c =
      (machines, some (0, fun machines => answered machines c)) := by
  simp only [world, hshown]
  cases hm : machines[c.cluster.id]? with
  | none => rfl
  | some m =>
    have hrules : m.rules = [] := hquiet m (List.mem_of_getElem? hm)
    have hset : machines.set c.cluster.id { m with rules := [] } = machines := by
      obtain ⟨hlt, rfl⟩ := List.getElem?_eq_some_iff.1 hm
      rw [← hrules]
      exact List.set_getElem_self hlt
    simp only [hrules, takeRule, hset]
    rfl

theorem world_start_of_quiet (hidesVantagePod : Bool) {machines : List Machine} (c : Call)
    (hprovisions : c.request.Provisions) (hquiet : ∀ m ∈ machines, m.rules = []) :
    (world hidesVantagePod).start machines c =
      (machines, some (0, fun machines => answered machines c)) := by
  refine world_start_of_shown ?_ hquiet
  cases hr : c.request <;> rw [hr] at hprovisions <;> first | rfl | exact hprovisions.elim

theorem run_quiet_request {hidesVantagePod : Bool} (what : String) (c : Call) (patience : Nat)
    (m : Moment (world hidesVantagePod)) (hprovisions : c.request.Provisions)
    (hquiet : ∀ machine ∈ machinesAt m.state, machine.rules = []) :
    ∃ outcome m',
      (Check.request what c.cluster c.request).run.run (world hidesVantagePod) patience {} m =
        (outcome, m') ∧
      RequestEnds False (machinesAt m.state) c outcome (machinesAt m'.state) := by
  have hrun :
      (Check.request what c.cluster c.request).run.run (world hidesVantagePod) patience {} m =
        Wait.raceOnce (world hidesVantagePod) {} what (.call c) m :=
    Wait.Procedure.run_race.trans (Wait.andThen_done _ patience {})
  have hstart : (world hidesVantagePod).start m.state c =
      (m.state, some (0, fun s => answered (machinesAt s) c)) :=
    world_start_of_quiet hidesVantagePod c hprovisions hquiet
  exact ⟨_, _, hrun.trans (Wait.raceOnce_call_of_answered what hstart), .inl ⟨rfl, rfl⟩⟩

/-- Clusters that answer as they should, and nothing that ends the run. -/
def quietStage (hidesVantagePod : Bool) : Stage where
  world := world hidesVantagePod
  machines := machinesAt
  limits l := l = {}
  disturbed := False
  request := by
    rintro what c patience _ m hprovisions rfl hquiet
    exact run_quiet_request what c patience m hprovisions hquiet

end Reachability
