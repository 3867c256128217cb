import Reachability.Cluster.Checks
import Reachability.Cluster.Survey
import Reachability.Proofs.Wait.Interruption

namespace Reachability

open Wait (Interrupt Interrupted Procedure)

section Failures

variable (i : Interrupt) (what : String) (last : Option Failure)

@[simp] theorem isNotFound_interrupt : (i.failure what last).isNotFound = false := by
  cases i <;> rfl

@[simp] theorem isAlreadyExists_interrupt : (i.failure what last).isAlreadyExists = false := by
  cases i <;> rfl

@[simp] theorem endsWait_interrupt : (i.failure what last).endsWait = true := by
  cases i <;> rfl

end Failures

variable {α β : Type}

/-- What is recorded about an interrupted attempt. -/
def Swallowed (i : Interrupt) (r : Except Failure (Except Failure α)) : Prop :=
  ∃ answer, r = .ok answer ∧ Interrupted i answer

theorem Swallowed.interrupted {i : Interrupt} {answer : Except Failure α}
    (h : Swallowed i (.ok answer)) : Interrupted i answer := by
  obtain ⟨_, heq, h⟩ := h
  cases heq
  exact h

theorem not_swallowed_error {i : Interrupt} {e : Failure} :
    ¬ Swallowed (α := α) i (.error e) := by
  rintro ⟨_, h, _⟩
  cases h

namespace Check

/-- Interrupted before it starts, the check leaves what `stop` allows. -/
structure HaltsTo (i : Interrupt) (c : Check α) (stop : Except Failure α → Prop) : Prop where
  halts : Procedure.Halts i c.run stop

/-- Interrupted anywhere, the check leaves what `stop` allows. -/
structure HeedsTo (c : Check α) (stop : Interrupt → Except Failure α → Prop) : Prop where
  heeds : Procedure.Heeds c.run stop

/-- An interruption makes the check fail. -/
def Halts (i : Interrupt) (c : Check α) : Prop := c.HaltsTo i (Interrupted i)

def Heeds (c : Check α) : Prop := c.HeedsTo Interrupted

theorem HaltsTo.bind {i : Interrupt} {c : Check α} {f : α → Check β}
    {stopped : Except Failure α → Prop} {stop : Except Failure β → Prop}
    (hc : c.HaltsTo i stopped) (hf : ∀ a, stopped (.ok a) → (f a).HaltsTo i stop)
    (herror : ∀ e, stopped (.error e) → stop (.error e)) : HaltsTo i (c >>= f) stop := by
  refine ⟨Procedure.Halts.bind hc.halts ?_⟩
  rintro (e | a) hstopped
  · exact herror e hstopped
  · exact (hf a hstopped).halts

theorem HeedsTo.bind {c : Check α} {f : α → Check β} {stopped : Interrupt → Except Failure α → Prop}
    {stop : Interrupt → Except Failure β → Prop} (hc : c.HeedsTo stopped)
    (hf : ∀ a, (f a).HeedsTo stop) (hok : ∀ i a, stopped i (.ok a) → (f a).HaltsTo i (stop i))
    (herror : ∀ i e, stopped i (.error e) → stop i (.error e)) : HeedsTo (c >>= f) stop := by
  refine ⟨Procedure.Heeds.bind hc.heeds ?_ ?_⟩
  · rintro (e | a)
    · exact trivial
    · exact (hf a).heeds
  · rintro i (e | a) hstopped
    · exact herror i e hstopped
    · exact (hok i a hstopped).halts

theorem not_interrupted_ok {i : Interrupt} {a : α} : ¬ Interrupted i (.ok a) := by
  rintro ⟨_, _, h⟩
  cases h

theorem interrupted_error {i : Interrupt} {e : Failure} (h : Interrupted (α := α) i (.error e)) :
    Interrupted (α := β) i (.error e) := by
  obtain ⟨what, last, h⟩ := h
  cases h
  exact ⟨what, last, rfl⟩

namespace Heeds

theorem bind {c : Check α} {f : α → Check β} (hc : c.Heeds) (hf : ∀ a, (f a).Heeds) :
    (c >>= f).Heeds :=
  HeedsTo.bind hc hf (fun _ _ h => absurd h not_interrupted_ok) fun _ _ => interrupted_error

theorem pure (a : α) : Heeds (Pure.pure a : Check α) := ⟨trivial⟩

theorem throw (f : Failure) : Heeds (MonadExcept.throw f : Check α) := ⟨trivial⟩

theorem request (what : String) (cluster : Cluster) (r : Request) :
    (Check.request what cluster r).Heeds :=
  ⟨fun _ => trivial, fun _ _ h => h⟩

theorem poll {pacing : Nat} (hpacing : 0 < pacing) (what : String)
    (probe : Wait.Probe clusterApi α) : (Check.poll pacing what probe).Heeds :=
  ⟨hpacing, fun _ => trivial, fun _ _ h => h⟩

theorem within {c : Check α} (hc : c.Heeds) (timeout : Nat) : (Check.within timeout c).Heeds :=
  ⟨Interrupted, hc.heeds, fun _ => trivial, fun _ _ h => h⟩

theorem choose? (l : List α) : (Check.choose? l).Heeds := by
  cases l with
  | nil => exact ⟨trivial⟩
  | cons a rest => exact ⟨fun _ => trivial⟩

theorem forM {γ : Type} {f : γ → Check Unit} (hf : ∀ a, (f a).Heeds) :
    (l : List γ) → (l.forM f).Heeds
  | [] => .pure ()
  | a :: l => .bind (hf a) fun _ => forM hf l

end Heeds

/-- An attempt swallows the failure of the check, be it an interruption. -/
theorem Heeds.attempt {c : Check α} (hc : c.Heeds) : c.attempt.HeedsTo Swallowed :=
  ⟨Procedure.Heeds.bind hc.heeds (fun _ => trivial) fun _ r hr => ⟨r, rfl, hr⟩⟩

theorem Halts.request (i : Interrupt) (what : String) (cluster : Cluster) (r : Request) :
    (Check.request what cluster r).Halts i :=
  ⟨what, none, rfl⟩

theorem Halts.throw {i : Interrupt} {f : Failure} (h : Interrupted (α := α) i (.error f)) :
    Halts i (MonadExcept.throw f : Check α) :=
  ⟨h⟩

theorem Halts.attempt {i : Interrupt} {c : Check α} (hc : c.Halts i) :
    c.attempt.HaltsTo i (Swallowed i) :=
  ⟨Procedure.Halts.bind hc.halts fun r hr => ⟨r, rfl, hr⟩⟩

/-- An attempt whose failures are told apart afterwards, if interruptions are not among those that
are passed over. -/
theorem Heeds.attempt_bind {c : Check α} {f : Except Failure α → Check β} (hc : c.Heeds)
    (hf : ∀ r, (f r).Heeds) (hstop : ∀ i r, Interrupted i r → (f r).Halts i) :
    (c.attempt >>= f).Heeds :=
  HeedsTo.bind hc.attempt hf (fun i r h => hstop i r h.interrupted)
    fun _ _ h => absurd h not_swallowed_error

theorem Halts.attempt_bind {i : Interrupt} {c : Check α} {f : Except Failure α → Check β}
    (hc : c.Halts i) (hstop : ∀ r, Interrupted i r → (f r).Halts i) :
    (c.attempt >>= f).Halts i :=
  HaltsTo.bind hc.attempt (fun r h => hstop r h.interrupted)
    fun _ h => absurd h not_swallowed_error

/-- The outcome of checks whose failures are passed over, interruptions included. -/
def PassedOver (_ : Interrupt) (r : Except Failure Unit) : Prop := r = .ok ()

theorem HaltsTo.passOver {i : Interrupt} {c : Check α} (hc : c.Halts i) :
    HaltsTo i (do let _ ← c.attempt) (PassedOver i) :=
  HaltsTo.bind hc.attempt (fun _ _ => ⟨rfl⟩) fun _ h => absurd h not_swallowed_error

theorem HeedsTo.passOver {c : Check α} (hc : c.Heeds) :
    HeedsTo (do let _ ← c.attempt) PassedOver :=
  HeedsTo.bind hc.attempt (fun _ => ⟨trivial⟩) (fun _ _ _ => ⟨rfl⟩)
    fun _ _ h => absurd h not_swallowed_error

theorem HaltsTo.forM_passedOver {γ : Type} {i : Interrupt} {f : γ → Check Unit}
    (hf : ∀ a, (f a).HaltsTo i (PassedOver i)) :
    (l : List γ) → (l.forM f).HaltsTo i (PassedOver i)
  | [] => ⟨rfl⟩
  | a :: l => .bind (hf a) (fun _ _ => forM_passedOver hf l) fun _ h => nomatch h

theorem HeedsTo.forM_passedOver {γ : Type} {f : γ → Check Unit}
    (hf : ∀ a, (f a).HeedsTo PassedOver) (hhalts : ∀ i a, (f a).HaltsTo i (PassedOver i)) :
    (l : List γ) → (l.forM f).HeedsTo PassedOver
  | [] => ⟨trivial⟩
  | a :: l =>
    .bind (hf a) (fun _ => forM_passedOver hf hhalts l)
      (fun i _ _ => .forM_passedOver (hhalts i) l) fun _ _ h => nomatch h

theorem deployments_heeds (cluster : Cluster) (ns : String) (names : List String) (timeout : Nat) :
    (deployments cluster ns names timeout).Heeds :=
  .within (.forM (fun _ => .poll (by decide) _ _) names) timeout

theorem endpoint_heeds (cluster : Cluster) (pod : ObjectKey) (timeout : Nat) :
    (endpoint cluster pod timeout).Heeds :=
  .within (.poll (by decide) _ _) timeout

theorem podNames_heeds (source target : Pod) : (podNames source target).Heeds :=
  .bind (.poll (by decide) _ _) fun _ => .pure ()

theorem clusterNames_heeds (pod : Pod) : (clusterNames pod).Heeds :=
  .bind (.poll (by decide) _ _) fun _ => .pure ()

theorem vantagePod_heeds (i : Inventory) : (vantagePod i).Heeds := by
  refine .bind (.choose? _) fun pod => ?_
  cases pod with
  | none => exact .throw _
  | some pod => exact .pure pod

theorem service_heeds (i : Inventory) (s : Manifest.Service) (timeout : Nat) :
    (service i s timeout).Heeds :=
  .bind (vantagePod_heeds i) fun _ => .within (.poll (by decide) _ _) timeout

theorem nodePorts_heeds (i : Inventory) (nodeIP : String) (s : Manifest.Service) (timeout : Nat) :
    (nodePorts i nodeIP s timeout).Heeds := by
  refine .bind (vantagePod_heeds i) fun pod => .within (.forM (fun port => ?_) _) timeout
  exact .bind (.poll (by decide) _ _) fun _ => .pure ()

theorem identities_heeds (agent : Pod) (container : String) (i : Inventory) :
    (identities agent container i).Heeds :=
  .poll (by decide) _ _

end Check

namespace Survey

/-- Interrupted before it starts, the survey leaves what `stop` allows. -/
structure HaltsTo (i : Interrupt) (s : Survey α) (stop : Except Failure α → Prop) : Prop where
  halts : ∀ inventory, Procedure.Halts i (s.run.run inventory) fun r => stop r.1

/-- Interrupted anywhere, the survey leaves what `stop` allows. -/
structure HeedsTo (s : Survey α) (stop : Interrupt → Except Failure α → Prop) : Prop where
  heeds : ∀ inventory, Procedure.Heeds (s.run.run inventory) fun i r => stop i r.1

/-- An interruption makes the survey fail. -/
def Halts (i : Interrupt) (s : Survey α) : Prop := s.HaltsTo i (Interrupted i)

def Heeds (s : Survey α) : Prop := s.HeedsTo Interrupted

theorem HaltsTo.bind {i : Interrupt} {s : Survey α} {f : α → Survey β}
    {stopped : Except Failure α → Prop} {stop : Except Failure β → Prop}
    (hs : s.HaltsTo i stopped) (hf : ∀ a, stopped (.ok a) → (f a).HaltsTo i stop)
    (herror : ∀ e, stopped (.error e) → stop (.error e)) : HaltsTo i (s >>= f) stop := by
  refine ⟨fun inventory => Procedure.Halts.bind (hs.halts inventory) ?_⟩
  rintro ⟨e | a, inventory⟩ hstopped
  · exact herror e hstopped
  · exact (hf a hstopped).halts inventory

theorem HeedsTo.bind {s : Survey α} {f : α → Survey β}
    {stopped : Interrupt → Except Failure α → Prop} {stop : Interrupt → Except Failure β → Prop}
    (hs : s.HeedsTo stopped) (hf : ∀ a, (f a).HeedsTo stop)
    (hok : ∀ i a, stopped i (.ok a) → (f a).HaltsTo i (stop i))
    (herror : ∀ i e, stopped i (.error e) → stop i (.error e)) : HeedsTo (s >>= f) stop := by
  refine ⟨fun inventory => Procedure.Heeds.bind (hs.heeds inventory) ?_ ?_⟩
  · rintro ⟨e | a, inventory⟩
    · exact trivial
    · exact (hf a).heeds inventory
  · rintro i ⟨e | a, inventory⟩ hstopped
    · exact herror i e hstopped
    · exact (hok i a hstopped).halts inventory

theorem HeedsTo.check {c : Check α} {stop : Interrupt → Except Failure α → Prop}
    (hc : c.HeedsTo stop) : (Survey.check c).HeedsTo stop :=
  ⟨fun _ => Procedure.Heeds.bind hc.heeds (fun _ => trivial) fun _ _ h => h⟩

theorem HaltsTo.check {i : Interrupt} {c : Check α} {stop : Except Failure α → Prop}
    (hc : c.HaltsTo i stop) : (Survey.check c).HaltsTo i stop :=
  ⟨fun _ => Procedure.Halts.bind hc.halts fun _ h => h⟩

namespace Heeds

theorem bind {s : Survey α} {f : α → Survey β} (hs : s.Heeds) (hf : ∀ a, (f a).Heeds) :
    (s >>= f).Heeds :=
  HeedsTo.bind hs hf (fun _ _ h => absurd h Check.not_interrupted_ok)
    fun _ _ => Check.interrupted_error

/-- A part that is left out under some condition. -/
theorem ite_bind {p : Prop} [Decidable p] {s : Survey Unit} {f : Unit → Survey β}
    (hs : s.Heeds) (hf : ∀ a, (f a).Heeds) : Heeds (if p then s >>= f else f ()) := by
  split
  · exact hs.bind hf
  · exact hf ()

theorem pure (a : α) : Heeds (Pure.pure a : Survey α) := ⟨fun _ => trivial⟩

theorem ite {p : Prop} [Decidable p] {s : Survey Unit} (hs : s.Heeds) :
    Heeds (if p then s else Pure.pure ()) := by
  split
  · exact hs
  · exact pure ()

theorem map {s : Survey α} (hs : s.Heeds) (f : α → β) : (f <$> s).Heeds :=
  .bind hs fun a => .pure (f a)

theorem throw (f : Failure) : Heeds (MonadExcept.throw f : Survey α) := ⟨fun _ => trivial⟩

theorem check {c : Check α} (hc : c.Heeds) : (Survey.check c).Heeds := HeedsTo.check hc

theorem inventory : Survey.inventory.Heeds := ⟨fun _ => trivial⟩

theorem record (f : Inventory → Inventory) : (Survey.record f).Heeds :=
  ⟨fun _ => trivial⟩

theorem ofExcept (e : Except Failure α) : (Survey.ofExcept e).Heeds :=
  ⟨fun _ => trivial⟩

theorem request (what : String) (cluster : Cluster) (r : Request) :
    (Survey.request what cluster r).Heeds :=
  .check (.request what cluster r)

theorem forM {γ : Type} {f : γ → Survey Unit} (hf : ∀ a, (f a).Heeds) :
    (l : List γ) → (l.forM f).Heeds
  | [] => .pure ()
  | a :: l => .bind (hf a) fun _ => forM hf l

end Heeds

/-- An attempt whose failures are told apart afterwards, if interruptions are not among those that
are passed over. -/
theorem Heeds.attempt_bind {c : Check α} {f : Except Failure α → Survey β} (hc : c.Heeds)
    (hf : ∀ r, (f r).Heeds) (hstop : ∀ i r, Interrupted i r → (f r).Halts i) :
    (attempt c >>= f).Heeds :=
  HeedsTo.bind (HeedsTo.check hc.attempt) hf (fun i r h => hstop i r h.interrupted)
    fun _ _ h => absurd h not_swallowed_error

theorem Halts.bind {i : Interrupt} {s : Survey α} {f : α → Survey β} (hs : s.Halts i) :
    (s >>= f).Halts i :=
  HaltsTo.bind hs (fun _ h => absurd h Check.not_interrupted_ok) fun _ => Check.interrupted_error

theorem Halts.ofExcept {i : Interrupt} {e : Except Failure α} (h : Interrupted i e) :
    (Survey.ofExcept e).Halts i :=
  ⟨fun _ => h⟩

theorem Halts.throw {i : Interrupt} {f : Failure} (h : Interrupted (α := α) i (.error f)) :
    Halts i (MonadExcept.throw f : Survey α) :=
  ⟨fun _ => h⟩

theorem Halts.check {i : Interrupt} {c : Check α} (hc : c.Halts i) : (Survey.check c).Halts i :=
  HaltsTo.check hc

theorem Halts.forM_cons {γ : Type} {i : Interrupt} {f : γ → Survey Unit} {a : γ} {l : List γ}
    (ha : (f a).Halts i) : ((a :: l).forM f).Halts i :=
  .bind ha

theorem Halts.request (i : Interrupt) (what : String) (cluster : Cluster) (r : Request) :
    (Survey.request what cluster r).Halts i :=
  .check (.request i what cluster r)

theorem Halts.attempt_bind {i : Interrupt} {c : Check α} {f : Except Failure α → Survey β}
    (hc : c.Halts i) (hstop : ∀ r, Interrupted i r → (f r).Halts i) :
    (attempt c >>= f).Halts i :=
  HaltsTo.bind (HaltsTo.check hc.attempt) (fun r h => hstop r h.interrupted)
    fun _ h => absurd h not_swallowed_error

end Survey

end Reachability
