import Reachability.Cluster.Survey
import Reachability.Proofs.Wait.Bind

namespace Reachability

open Wait (Instant Moment Procedure)

/-- A call with its answer. -/
structure Exchange where
  call : Call
  answer : Except Failure call.request.Answer

/-- Clusters that answer every call after some time, as they see fit after all that was asked and
answered before. -/
structure Respondent where
  delay : List Exchange → Call → Nat
  answer : List Exchange → (c : Call) → Except Failure c.request.Answer

namespace Respondent

/-- The respondent as a world whose state is the transcript, the latest exchange last. -/
def world (p : Respondent) : Wait.World clusterApi where
  State := List Exchange
  start transcript c :=
    (transcript, some (p.delay transcript c, fun transcript =>
      (transcript ++ [⟨c, p.answer transcript c⟩], p.answer transcript c)))
  choose transcript _ := (transcript, ⟨0, Nat.succ_pos _⟩)

/-- These exchanges can follow what was asked and answered before. -/
def Gives (p : Respondent) : List Exchange → List Exchange → Prop
  | _, [] => True
  | before, x :: rest => x.answer = p.answer before x.call ∧ p.Gives (before ++ [x]) rest

theorem Gives.append {p : Respondent} {before exchanges exchanges' : List Exchange}
    (h : p.Gives before exchanges) (h' : p.Gives (before ++ exchanges) exchanges') :
    p.Gives before (exchanges ++ exchanges') := by
  induction exchanges generalizing before with
  | nil => simpa using h'
  | cons x exchanges ih =>
    obtain ⟨hx, h⟩ := h
    exact ⟨hx, ih h (by simpa using h')⟩

theorem Gives.of_append {p : Respondent} {before exchanges exchanges' : List Exchange}
    (h : p.Gives before (exchanges ++ exchanges')) :
    p.Gives before exchanges ∧ p.Gives (before ++ exchanges) exchanges' := by
  induction exchanges generalizing before with
  | nil => exact ⟨trivial, by simpa using h⟩
  | cons x exchanges ih =>
    obtain ⟨hx, h⟩ := h
    obtain ⟨hfirst, hsecond⟩ := ih h
    exact ⟨⟨hx, hfirst⟩, by simpa using hsecond⟩

end Respondent

/-- The calls started so far, without their instants. -/
def Wait.Moment.asked {w : Wait.World clusterApi} (m : Moment w) : List Call :=
  m.calls.map fun c => c.2

variable {p : Respondent} {α β : Type}

/-- All that was asked and answered so far. -/
def Respondent.transcript (m : Moment p.world) : List Exchange := m.state

/-- The second moment comes later in a run, after these exchanges. -/
structure Exchanged (m m' : Moment p.world) (exchanges : List Exchange) : Prop where
  transcript : Respondent.transcript m' = Respondent.transcript m ++ exchanges
  asked : m'.asked = m.asked ++ exchanges.map (·.call)
  gives : p.Gives (Respondent.transcript m) exchanges

theorem Exchanged.refl (m : Moment p.world) : Exchanged m m [] := ⟨by simp, by simp, trivial⟩

theorem Exchanged.trans {m m' m'' : Moment p.world} {exchanges exchanges' : List Exchange}
    (h : Exchanged m m' exchanges) (h' : Exchanged m' m'' exchanges') :
    Exchanged m m'' (exchanges ++ exchanges') :=
  ⟨by rw [h'.transcript, h.transcript, List.append_assoc],
    by rw [h'.asked, h.asked, List.append_assoc, List.map_append],
    h.gives.append (h.transcript ▸ h'.gives)⟩

/-- Where nothing ends it, a request is asked once and answered. -/
theorem run_request (what : String) (cluster : Cluster) (r : Request) (patience : Nat)
    (m : Moment p.world) :
    ∃ m' answer, (Check.request what cluster r).run.run p.world patience {} m =
        (.returned answer, m') ∧
      Exchanged m m' [⟨⟨cluster, r⟩, answer⟩] := by
  refine ⟨_, p.answer m.state ⟨cluster, r⟩, rfl, rfl, ?_, rfl, trivial⟩
  simp only [Wait.Moment.asked, Wait.Moment.calls, Wait.Moment.begun, List.reverse_cons]
  exact List.map_append

namespace Survey

/-- What follows a part that fails is left out. -/
theorem run_bind {w : Wait.World clusterApi} (s : Survey α) (f : α → Survey β)
    (inventory : Inventory) (patience : Nat) (l : Wait.Limits) (m : Moment w) :
    ((s >>= f).run.run inventory).run w patience l m =
      Wait.andThen ((s.run.run inventory).run w patience l m) fun r m =>
        match r with
        | (.ok a, inventory) => ((f a).run.run inventory).run w patience l m
        | (.error e, inventory) => (.returned (.error e, inventory), m) := by
  refine (Procedure.run_bind (s.run.run inventory) _).trans ?_
  congr 1
  funext ⟨r, inventory⟩ m
  cases r <;> rfl

/-- A survey that succeeds does so part by part. -/
theorem run_bind_ok {w : Wait.World clusterApi} {s : Survey α} {f : α → Survey β}
    {i i'' : Inventory} {patience : Nat} {l : Wait.Limits} {m m'' : Moment w} {b : β}
    (h : ((s >>= f).run.run i).run w patience l m = (.returned (.ok b, i''), m'')) :
    ∃ a i' m', (s.run.run i).run w patience l m = (.returned (.ok a, i'), m') ∧
      ((f a).run.run i').run w patience l m' = (.returned (.ok b, i''), m'') := by
  rw [run_bind] at h
  rcases hfirst : (s.run.run i).run w patience l m with ⟨⟨e | a, i'⟩ | _ | _, m'⟩ <;>
    rw [hfirst] at h
  · cases h
  · exact ⟨a, i', m', rfl, h⟩
  · cases h
  · cases h

theorem run_check {w : Wait.World clusterApi} (c : Check α) (inventory : Inventory)
    (patience : Nat) (l : Wait.Limits) (m : Moment w) :
    ((check c).run.run inventory).run w patience l m =
      Wait.andThen (c.run.run w patience l m) fun r m => (.returned (r, inventory), m) :=
  Procedure.run_bind c.run _

theorem run_attempt {w : Wait.World clusterApi} (c : Check α) (inventory : Inventory)
    (patience : Nat) (l : Wait.Limits) (m : Moment w) :
    ((attempt c).run.run inventory).run w patience l m =
      Wait.andThen (c.run.run w patience l m) fun r m => (.returned (.ok r, inventory), m) := by
  have hattempt : c.attempt.run.run w patience l m =
      Wait.andThen (c.run.run w patience l m) fun r m => (.returned (.ok r), m) :=
    Procedure.run_bind c.run _
  rw [attempt, run_check, hattempt, Wait.andThen_assoc]
  rfl

/-- An attempt whose outcome is taken for the result is no different from the check. -/
theorem run_attempt_bind_ofExcept {w : Wait.World clusterApi} (c : Check α)
    (inventory : Inventory) (patience : Nat) (l : Wait.Limits) (m : Moment w) :
    ((attempt c >>= ofExcept).run.run inventory).run w patience l m =
      ((check c).run.run inventory).run w patience l m := by
  rw [run_bind, run_attempt, Wait.andThen_assoc, run_check]
  rfl

/-- Where nothing ends it, the survey comes to its end, and `allowed` holds of its exchanges and its
result. -/
def Exchanges (p : Respondent) (s : Survey α)
    (allowed : List Exchange → Except Failure α → Prop) : Prop :=
  ∀ patience inventory (m : Moment p.world), ∃ r inventory' m' exchanges,
    (s.run.run inventory).run p.world patience {} m = (.returned (r, inventory'), m') ∧
      Exchanged m m' exchanges ∧ allowed exchanges r

namespace Exchanges

theorem mono {s : Survey α} {allowed allowed' : List Exchange → Except Failure α → Prop}
    (h : s.Exchanges p allowed)
    (hallowed : ∀ exchanges r, allowed exchanges r → allowed' exchanges r) :
    s.Exchanges p allowed' := by
  intro patience inventory m
  obtain ⟨r, inventory', m', exchanges, hrun, hm, hr⟩ := h patience inventory m
  exact ⟨r, inventory', m', exchanges, hrun, hm, hallowed exchanges r hr⟩

theorem pure (a : α) : Exchanges p (Pure.pure a) fun exchanges r => exchanges = [] ∧ r = .ok a :=
  fun _ _ m => ⟨_, _, m, [], rfl, .refl m, rfl, rfl⟩

theorem ofExcept (e : Except Failure α) :
    Exchanges p (Survey.ofExcept e) fun exchanges r => exchanges = [] ∧ r = e :=
  fun _ _ m => ⟨_, _, m, [], rfl, .refl m, rfl, rfl⟩

theorem record (f : Inventory → Inventory) :
    Exchanges p (Survey.record f) fun exchanges r => exchanges = [] ∧ r = .ok () :=
  fun _ _ m => ⟨_, _, m, [], rfl, .refl m, rfl, rfl⟩

theorem ite {q : Prop} [Decidable q] {s t : Survey α}
    {allowed : List Exchange → Except Failure α → Prop} (hs : s.Exchanges p allowed)
    (ht : t.Exchanges p allowed) : Exchanges p (if q then s else t) allowed := by
  split
  · exact hs
  · exact ht

/-- What follows a part that succeeds; a part that fails is not followed by anything. -/
theorem bind {s : Survey α} {f : α → Survey β} {allowed : List Exchange → Except Failure α → Prop}
    {allowed' : α → List Exchange → Except Failure β → Prop} (hs : s.Exchanges p allowed)
    (hf : ∀ a, (f a).Exchanges p (allowed' a)) :
    Exchanges p (s >>= f) fun exchanges r =>
      (∃ e, allowed exchanges (.error e) ∧ r = .error e) ∨
      ∃ a before after,
        allowed before (.ok a) ∧ allowed' a after r ∧ exchanges = before ++ after := by
  intro patience inventory m
  obtain ⟨r, inventory', m', exchanges, hrun, hm, hr⟩ := hs patience inventory m
  rw [run_bind, hrun]
  cases r with
  | error e => exact ⟨.error e, inventory', m', exchanges, rfl, hm, .inl ⟨e, hr, rfl⟩⟩
  | ok a =>
    obtain ⟨r', inventory'', m'', exchanges', hrun', hm', hr'⟩ := hf a patience inventory' m'
    exact ⟨r', inventory'', m'', exchanges ++ exchanges', hrun', hm.trans hm',
      .inr ⟨a, exchanges, exchanges', hr, hr', rfl⟩⟩

theorem map {s : Survey α} {allowed : List Exchange → Except Failure α → Prop}
    (hs : s.Exchanges p allowed) (f : α → β) :
    Exchanges p (f <$> s) fun exchanges r => ∃ r', allowed exchanges r' ∧ r = r'.map f := by
  refine mono (bind hs fun a => pure (f a)) ?_
  rintro exchanges r (⟨e, he, rfl⟩ | ⟨a, before, _, ha, ⟨rfl, rfl⟩, rfl⟩)
  · exact ⟨.error e, he, rfl⟩
  · exact ⟨.ok a, by rwa [List.append_nil], rfl⟩

theorem request (what : String) (cluster : Cluster) (r : Request) :
    Exchanges p (Survey.request what cluster r) fun exchanges answer =>
      exchanges = [⟨⟨cluster, r⟩, answer⟩] := by
  intro patience inventory m
  obtain ⟨m', answer, hrun, hm⟩ := run_request what cluster r patience m
  refine ⟨answer, inventory, m', _, ?_, hm, rfl⟩
  rw [Survey.request, run_check, hrun]
  rfl

/-- An attempt at a request, followed by what its answer calls for. -/
theorem attempt_bind (what : String) (cluster : Cluster) (r : Request)
    {f : Except Failure r.Answer → Survey β}
    {allowed : Except Failure r.Answer → List Exchange → Except Failure β → Prop}
    (hf : ∀ answer, (f answer).Exchanges p (allowed answer)) :
    Exchanges p (attempt (Check.request what cluster r) >>= f) fun exchanges result =>
      ∃ answer rest, exchanges = ⟨⟨cluster, r⟩, answer⟩ :: rest ∧ allowed answer rest result := by
  intro patience inventory m
  obtain ⟨m', answer, hrun, hm⟩ := run_request what cluster r patience m
  obtain ⟨result, inventory', m'', exchanges, hrun', hm', hr⟩ :=
    hf answer patience inventory m'
  refine ⟨result, inventory', m'', ⟨⟨cluster, r⟩, answer⟩ :: exchanges, ?_, hm.trans hm',
    answer, exchanges, rfl, hr⟩
  rw [run_bind, run_attempt, hrun]
  exact hrun'

end Exchanges

end Survey

end Reachability
