import Reachability.Cluster.Checks
import Reachability.Proofs.Cluster.Account

namespace Reachability

open Wait (Probe Procedure)

variable {α β γ : Type} {allowed : Call → Prop}

namespace Wait

/-- All calls of a probe are allowed. -/
def Probe.Asks (allowed : Call → Prop) : Probe clusterApi α → Prop
  | .done _ | .crash => True
  | .ask c next => allowed c ∧ ∀ answer, (next answer).Asks allowed

/-- All calls that a procedure makes on the way to its result are allowed. -/
def Procedure.Asks (allowed : Call → Prop) (p : Procedure clusterApi α) : Prop :=
  ∀ exchanges a, p.Admits exchanges a → ∀ x ∈ exchanges, allowed x.call

theorem Probe.Asks.admits {probe : Probe clusterApi α} (h : probe.Asks allowed)
    {exchanges : List Exchange} {r : Except Failure α} (hr : probe.Admits exchanges r) :
    ∀ x ∈ exchanges, allowed x.call := by
  induction probe generalizing exchanges with
  | done _ =>
    obtain ⟨rfl, -⟩ := hr
    exact List.forall_mem_nil _
  | crash => exact hr.elim
  | ask c next ih =>
    obtain ⟨answer, rest, rfl, hr⟩ := hr
    exact List.forall_mem_cons.2 ⟨h.1, ih answer (h.2 answer) hr⟩

theorem Probe.Asks.begins {probe : Probe clusterApi α} (h : probe.Asks allowed)
    {exchanges : List Exchange} (hbegins : probe.Begins exchanges) :
    ∀ x ∈ exchanges, allowed x.call := by
  induction probe generalizing exchanges with
  | done _ | crash =>
    cases exchanges with
    | nil => exact List.forall_mem_nil _
    | cons _ _ => exact hbegins.elim
  | ask c next ih =>
    cases exchanges with
    | nil => exact List.forall_mem_nil _
    | cons _ rest =>
      obtain ⟨answer, rfl, hbegins⟩ := hbegins
      exact List.forall_mem_cons.2 ⟨h.1, ih answer (h.2 answer) hbegins⟩

theorem Probe.Asks.tries {probe : Probe clusterApi α} (h : probe.Asks allowed)
    {exchanges : List Exchange} {r : Except Failure α} (hr : probe.Tries exchanges r) :
    ∀ x ∈ exchanges, allowed x.call :=
  hr.elim h.admits fun hbegins => h.begins hbegins.1

theorem Probe.Asks.retries {probe : Probe clusterApi α} (h : probe.Asks allowed)
    {exchanges : List Exchange} {r : Except Failure α} (hr : probe.Retries exchanges r) :
    ∀ x ∈ exchanges, allowed x.call := by
  induction hr with
  | last htries => exact h.tries htries
  | again hadmits _ ih => exact List.forall_mem_append.2 ⟨h.admits hadmits, ih⟩

namespace Procedure.Asks

theorem done (a : α) : (Procedure.done a).Asks allowed := by
  rintro exchanges _ ⟨rfl, -⟩
  exact List.forall_mem_nil _

theorem bind {p : Procedure clusterApi α} {f : α → Procedure clusterApi β} (hp : p.Asks allowed)
    (hf : ∀ a, (f a).Asks allowed) : (p.bind f).Asks allowed := by
  intro exchanges b h
  obtain ⟨before, after, a, rfl, ha, hb⟩ := h.of_bind
  exact List.forall_mem_append.2 ⟨hp _ _ ha, hf _ _ _ hb⟩

end Procedure.Asks

end Wait

/-- The only call of a judged request. -/
theorem asks_call {cluster : Cluster} {r : Request} (h : allowed ⟨cluster, r⟩)
    (judge : Except Failure r.Answer → Option (Except Failure α)) :
    ((probe cluster r).judged judge).Asks allowed := by
  refine ⟨h, fun answer => ?_⟩
  change (Probe.ofJudgement (judge answer)).Asks allowed
  cases judge answer <;> trivial

namespace Check

/-- All calls of a check are allowed. -/
structure Asks (allowed : Call → Prop) (c : Check α) : Prop where
  asks : c.run.Asks allowed

namespace Asks

theorem pure (a : α) : Asks allowed (Pure.pure a) := ⟨.done _⟩

theorem throw (f : Failure) : Asks allowed (MonadExcept.throw f : Check α) := ⟨.done _⟩

theorem bind {c : Check α} {f : α → Check β} (hc : c.Asks allowed) (hf : ∀ a, (f a).Asks allowed) :
    Asks allowed (c >>= f) := by
  refine ⟨Procedure.Asks.bind hc.asks ?_⟩
  rintro (e | a)
  · exact .done _
  · exact (hf a).asks

theorem within {c : Check α} (hc : c.Asks allowed) (timeout : Nat) :
    (Check.within timeout c).Asks allowed := by
  refine ⟨?_⟩
  rintro exchanges a ⟨inner, _, b, rfl, hb, rfl, -⟩
  rw [List.append_nil]
  exact hc.asks _ _ hb

theorem request {cluster : Cluster} {r : Request} (h : allowed ⟨cluster, r⟩) (what : String) :
    (Check.request what cluster r).Asks allowed := by
  refine ⟨?_⟩
  rintro exchanges a ⟨tried, _, answer, rfl, htried, rfl, -⟩
  rw [List.append_nil]
  exact (asks_call h some).tries htried

theorem poll {probe : Probe clusterApi α} (h : probe.Asks allowed) (pacing : Nat) (what : String) :
    (Check.poll pacing what probe).Asks allowed := by
  refine ⟨?_⟩
  rintro exchanges a ⟨tried, _, r, rfl, htried, rfl, -⟩
  rw [List.append_nil]
  exact h.retries htried

theorem choose? (l : List α) : (Check.choose? l).Asks allowed := by
  cases l with
  | nil => exact pure none
  | cons a rest =>
    refine ⟨?_⟩
    rintro exchanges _ ⟨i, rfl, -⟩
    exact List.forall_mem_nil _

theorem attempt {c : Check α} (hc : c.Asks allowed) : c.attempt.Asks allowed :=
  ⟨Procedure.Asks.bind hc.asks fun _ => .done _⟩

theorem forM {f : γ → Check Unit} {l : List γ} (hf : ∀ a ∈ l, (f a).Asks allowed) :
    (l.forM f).Asks allowed := by
  induction l with
  | nil => exact .pure ()
  | cons a l ih =>
    obtain ⟨ha, hl⟩ := List.forall_mem_cons.1 hf
    exact .bind ha fun _ => ih hl

end Asks

end Check

/-- The requests about one thing that change nothing: all that checks ask. -/
def Request.Queries : Request → Prop
  | .get .. | .getEndpoint _ | .exec .. => True
  | _ => False

namespace Check

theorem Asks.mono {allowed' : Call → Prop} {c : Check α} (hc : c.Asks allowed)
    (h : ∀ call, allowed call → allowed' call) : c.Asks allowed' :=
  ⟨fun exchanges a ha x hx => h _ (hc.asks exchanges a ha x hx)⟩

/-- A call that is judged, again and again. -/
theorem poll_asks {cluster : Cluster} {r : Request} (h : r.Queries) (pacing : Nat) (what : String)
    (judge : Except Failure r.Answer → Option (Except Failure α)) :
    (poll pacing what ((probe cluster r).judged judge)).Asks (·.request.Queries) :=
  .poll (asks_call h judge) pacing what

theorem deployments_asks (cluster : Cluster) (ns : String) (names : List String) (timeout : Nat) :
    (deployments cluster ns names timeout).Asks (·.request.Queries) :=
  .within (.forM fun _ _ => poll_asks (by trivial) _ _ _) timeout

theorem endpoint_asks (cluster : Cluster) (pod : ObjectKey) (timeout : Nat) :
    (endpoint cluster pod timeout).Asks (·.request.Queries) :=
  .within (poll_asks (by trivial) _ _ some) timeout

theorem command_asks (pacing : Nat) (what : String) (pod : Pod) (container : String)
    (words : List String) : Asks (·.request.Queries)
      (do let _ ← poll pacing what (command pod container words)) :=
  .bind (poll_asks (by trivial) _ _ some) fun _ => .pure ()

theorem podNames_asks (source target : Pod) : (podNames source target).Asks (·.request.Queries) :=
  command_asks ..

theorem clusterNames_asks (pod : Pod) : (clusterNames pod).Asks (·.request.Queries) :=
  command_asks ..

theorem vantagePod_asks (i : Inventory) : (vantagePod i).Asks (·.request.Queries) := by
  refine .bind (.choose? _) fun pod => ?_
  cases pod with
  | none => exact .throw _
  | some pod => exact .pure pod

theorem service_asks (i : Inventory) (s : Manifest.Service) (timeout : Nat) :
    (service i s timeout).Asks (·.request.Queries) :=
  .bind (vantagePod_asks i) fun _ => .within (poll_asks (by trivial) _ _ _) timeout

theorem nodePorts_asks (i : Inventory) (nodeIP : String) (s : Manifest.Service) (timeout : Nat) :
    (nodePorts i nodeIP s timeout).Asks (·.request.Queries) :=
  .bind (vantagePod_asks i) fun _ => .within (.forM fun _ _ => command_asks ..) timeout

theorem identities_asks (agent : Pod) (container : String) (i : Inventory) :
    (identities agent container i).Asks (·.request.Queries) :=
  poll_asks (by trivial) _ _ _

end Check

namespace Survey

/-- All calls of a survey are allowed, whatever inventory it starts from. -/
structure Asks (allowed : Call → Prop) (s : Survey α) : Prop where
  asks (i : Inventory) : (s.run.run i).Asks allowed

namespace Asks

theorem mono {allowed' : Call → Prop} {s : Survey α} (hs : s.Asks allowed)
    (h : ∀ call, allowed call → allowed' call) : s.Asks allowed' :=
  ⟨fun i exchanges a ha x hx => h _ (hs.asks i exchanges a ha x hx)⟩

theorem pure (a : α) : Asks allowed (Pure.pure a) := ⟨fun _ => .done _⟩

theorem throw (f : Failure) : Asks allowed (MonadExcept.throw f : Survey α) := ⟨fun _ => .done _⟩

theorem bind {s : Survey α} {f : α → Survey β} (hs : s.Asks allowed)
    (hf : ∀ a, (f a).Asks allowed) : Asks allowed (s >>= f) := by
  refine ⟨fun i => Procedure.Asks.bind (hs.asks i) ?_⟩
  rintro ⟨e | a, i'⟩
  · exact .done _
  · exact (hf a).asks i'

/-- A part that is left out under some condition. -/
theorem ite_bind {p : Prop} [Decidable p] {s : Survey Unit} {f : Unit → Survey β}
    (hs : p → s.Asks allowed) (hf : ∀ a, (f a).Asks allowed) :
    Asks allowed (if p then s >>= f else f ()) := by
  split
  next hp => exact (hs hp).bind hf
  next => exact hf ()

theorem check {c : Check α} (hc : c.Asks allowed) : (Survey.check c).Asks allowed :=
  ⟨fun _ => Procedure.Asks.bind hc.asks fun _ => .done _⟩

theorem inventory : Survey.inventory.Asks allowed := ⟨fun _ => .done _⟩

theorem record (f : Inventory → Inventory) : (Survey.record f).Asks allowed := ⟨fun _ => .done _⟩

theorem request {cluster : Cluster} {r : Request} (h : allowed ⟨cluster, r⟩) (what : String) :
    (Survey.request what cluster r).Asks allowed :=
  .check (.request h what)

theorem attempt {c : Check α} (hc : c.Asks allowed) : (Survey.attempt c).Asks allowed :=
  .check hc.attempt

theorem forM {f : γ → Survey Unit} {l : List γ} (hf : ∀ a ∈ l, (f a).Asks allowed) :
    (l.forM f).Asks allowed := by
  induction l with
  | nil => exact .pure ()
  | cons a l ih =>
    obtain ⟨ha, hl⟩ := List.forall_mem_cons.1 hf
    exact .bind ha fun _ => ih hl

end Asks

end Survey

end Reachability
