import Mathlib.Logic.Basic
import Mathlib.Logic.Relation
import Reachability.Proofs.Wait.Timeouts
import Reachability.Wait.Script

namespace Reachability.Wait

/-- How a context was made. -/
inductive Origin where
  | root
  | child (of : Nat) (made : Instant) (timeout : Nat)
  | clone (of : Nat)
  /-- From the token of another context. -/
  | bare (of : Nat)

/-- The origins of all contexts, in the order in which they were made, and the contexts on which
cancellation was called, the latest first. It knows nothing of tokens. -/
structure History where
  origins : List Origin := []
  cancelled : List Nat := []

namespace History

def made (h : History) (o : Origin) : History := { h with origins := h.origins ++ [o] }

def cancel (h : History) (i : Nat) : History := { h with cancelled := i :: h.cancelled }

/-- What an action adds to the history. -/
def act (h : History) (now : Instant) : Action α → History
  | .new => h.made .root
  | .child i timeout => if (after? now timeout).isSome then h.made (.child i now timeout) else h
  | .clone i => h.made (.clone i)
  | .fromToken i => h.made (.bare i)
  | .cancel i => h.cancel i
  | .sleep _ | .done .. | .race .. | .poll .. => h

/-- What a step adds to the history: the cancellation that falls into it comes after its action. -/
def perform (h : History) (s : Session) (step : Step α) : History :=
  let acted := h.act s.now step.action
  match step.cancellation with
  | some (i, delay) =>
    if s.now + delay ≤ (s.act step.cancellation step.action).1.now then acted.cancel i else acted
  | none => acted

/-- The deadlines that were set on the way to a context, since it was last made without one. -/
inductive Deadlines (h : History) : Nat → List Instant → Prop where
  | root {k : Nat} (hk : h.origins[k]? = some .root) : h.Deadlines k []
  | bare {k j : Nat} (hk : h.origins[k]? = some (.bare j)) : h.Deadlines k []
  | clone {k j : Nat} {ds : List Instant} (hk : h.origins[k]? = some (.clone j))
      (hj : h.Deadlines j ds) : h.Deadlines k ds
  | child {k j : Nat} {made : Instant} {timeout : Nat} {ds : List Instant}
      (hk : h.origins[k]? = some (.child j made timeout)) (hj : h.Deadlines j ds) :
      h.Deadlines k ((made + timeout) :: ds)

/-- There is but one way to a context. -/
theorem Deadlines.unique {h : History} {k : Nat} {ds ds' : List Instant} (hds : h.Deadlines k ds)
    (hds' : h.Deadlines k ds') : ds = ds' := by
  induction hds generalizing ds' with
  | root hk => cases hds' <;> simp_all
  | bare hk => cases hds' <;> simp_all
  | clone hk _ ih =>
    cases hds' with
    | clone hk' hj' =>
      cases hk.symm.trans hk'
      exact ih hj'
    | root hk' | bare hk' | child hk' => cases hk.symm.trans hk'
  | child hk _ ih =>
    cases hds' with
    | child hk' hj' =>
      cases hk.symm.trans hk'
      rw [ih hj']
    | root hk' | bare hk' | clone hk' => cases hk.symm.trans hk'

/-- One context was made from another with a timeout. -/
def ChildOf (h : History) (k j : Nat) : Prop :=
  ∃ made timeout, h.origins[k]? = some (.child j made timeout)

/-- One context was made from another, or from its token. -/
def CopyOf (h : History) (k j : Nat) : Prop :=
  h.origins[k]? = some (.clone j) ∨ h.origins[k]? = some (.bare j)

/-- The cancellation of one context passes on to the other. -/
def Passes (h : History) (j k : Nat) : Prop := h.ChildOf k j ∨ h.CopyOf k j ∨ h.CopyOf j k

/-- The cancellation of one context reaches the other, over any number of contexts. -/
def Reaches (h : History) : Nat → Nat → Prop := Relation.ReflTransGen h.Passes

theorem CopyOf.reaches {h : History} {k j : Nat} (hcopy : h.CopyOf k j) : h.Reaches j k :=
  .single (.inr (.inl hcopy))

theorem CopyOf.reached {h : History} {k j : Nat} (hcopy : h.CopyOf k j) : h.Reaches k j :=
  .single (.inr (.inr hcopy))

end History

/-- The contexts that an action names. -/
def Action.names : Action α → List Nat
  | .new | .sleep _ => []
  | .child i _ | .clone i | .fromToken i | .cancel i | .done i _ | .race i .. | .poll i .. => [i]

/-- The contexts that a step names. -/
def Step.names (step : Step α) : List Nat :=
  step.action.names ++ (step.cancellation.map Prod.fst).toList

namespace Session

/-- The step names no contexts but those that have been made. -/
def Knows (s : Session) (step : Step α) : Prop := ∀ i ∈ step.names, i < s.contexts.length

/-- Carries out the steps of a script, of which the history is kept. -/
def play (s : Session) (h : History) : List (Step α) → Session × History
  | [] => (s, h)
  | step :: steps => (s.perform step).1.play (h.perform s step) steps

/-- Every step names no contexts but those that have been made before. -/
def KnowsAll (s : Session) : List (Step α) → Prop
  | [] => True
  | step :: steps => s.Knows step ∧ (s.perform step).1.KnowsAll steps

instance decidableKnows (s : Session) (step : Step α) : Decidable (s.Knows step) :=
  inferInstanceAs (Decidable (∀ i ∈ step.names, i < s.contexts.length))

instance decidableKnowsAll (s : Session) : (steps : List (Step α)) → Decidable (s.KnowsAll steps)
  | [] => .isTrue trivial
  | _ :: steps => @instDecidableAnd _ _ _ (decidableKnowsAll _ steps)

end Session

/-- A token that none of the contexts before holds, or has above its own. -/
def Context.New (c : Context) (before : List Context) : Prop :=
  ∀ c' ∈ before, ∀ token ∈ c'.lineage, token < c.token

/-- What a context is like that was made after some others. -/
inductive Origin.Makes (before : List Context) (c : Context) : Origin → Prop where
  | root (hnew : c.New before) (habove : c.above = []) (hdeadline : c.deadline = none) :
      Makes before c .root
  | child {j : Nat} {made : Instant} {timeout : Nat} {parent : Context}
      (hj : before[j]? = some parent) (hnew : c.New before) (habove : c.above = parent.lineage)
      (hdeadline : c.deadline =
        some ((parent.deadline.map (min · (made + timeout))).getD (made + timeout))) :
      Makes before c (.child j made timeout)
  | clone {j : Nat} (hj : before[j]? = some c) : Makes before c (.clone j)
  | bare {j : Nat} {copied : Context} (hj : before[j]? = some copied)
      (hc : c = copied.withoutDeadline) : Makes before c (.bare j)

/-- The contexts and tokens of a session are those that its history makes. -/
structure Tracks (s : Session) (h : History) : Prop where
  length_eq : s.contexts.length = h.origins.length
  makes {k : Nat} {c : Context} {o : Origin} (hc : s.contexts[k]? = some c)
    (ho : h.origins[k]? = some o) : o.Makes (s.contexts.take k) c
  token_lt : ∀ c ∈ s.contexts, ∀ token ∈ c.lineage, token < s.tokens.next
  cancelled_lt : ∀ j ∈ h.cancelled, j < h.origins.length
  cancelled_eq : s.tokens.cancelled = h.cancelled.map fun j => (s.context j).token

theorem Session.contexts_concluded {α β : Type} (s : Session) (m : Moment (attemptWorld α))
    (u : Outcome β × (β → Report α)) : (s.concluded m u).1.contexts = s.contexts := by
  obtain ⟨o, tell⟩ := u
  cases o <;> rfl

theorem Session.tokens_concluded {α β : Type} (s : Session) (m : Moment (attemptWorld α))
    (u : Outcome β × (β → Report α)) : (s.concluded m u).1.tokens = s.tokens := by
  obtain ⟨o, tell⟩ := u
  cases o <;> rfl

/-- Contexts that have been made stay as they are. -/
theorem Session.contexts_prefix_act (s : Session) (cancellation : Option (Nat × Nat))
    (action : Action α) : s.contexts <+: (s.act cancellation action).1.contexts := by
  cases action with
  | new | clone | fromToken => exact List.prefix_append ..
  | child i timeout =>
    simp only [Session.act]
    split
    · exact List.prefix_append ..
    · exact List.prefix_rfl
  | cancel | sleep => exact List.prefix_rfl
  | done i within =>
    simp only [Session.act]
    split
    · split <;> exact List.prefix_rfl
    · exact List.prefix_rfl
  | race | poll => exact (s.contexts_concluded ..).symm ▸ List.prefix_rfl

theorem Session.context_act {s : Session} {i : Nat} (hi : i < s.contexts.length)
    (cancellation : Option (Nat × Nat)) (action : Action α) :
    (s.act cancellation action).1.context i = s.context i := by
  obtain ⟨more, hmore⟩ := s.contexts_prefix_act cancellation action
  simp [Session.context, ← hmore, List.getElem?_append_left hi, hi]

theorem Session.context_eq {s : Session} {k : Nat} {c : Context} (h : s.contexts[k]? = some c) :
    s.context k = c := by
  simp [Session.context, h]

namespace Tracks

variable {s s' : Session} {h : History}

theorem start (t : Instant) : Tracks { now := t } {} where
  length_eq := rfl
  makes hc := by simp at hc
  token_lt := nofun
  cancelled_lt := nofun
  cancelled_eq := rfl

/-- Time alone changes nothing about contexts. -/
theorem of_eq (hs : Tracks s h) (hcontexts : s'.contexts = s.contexts)
    (htokens : s'.tokens = s.tokens) : Tracks s' h := by
  obtain ⟨now, tokens, contexts⟩ := s
  obtain ⟨now', tokens', contexts'⟩ := s'
  obtain rfl := hcontexts
  obtain rfl := htokens
  exact ⟨hs.length_eq, hs.makes, hs.token_lt, hs.cancelled_lt, hs.cancelled_eq⟩

theorem getElem?_of_lt (hs : Tracks s h) {k : Nat} (hk : k < h.origins.length) :
    s.contexts[k]? = some (s.context k) := by
  have hlt : k < s.contexts.length := hs.length_eq ▸ hk
  simp [Session.context, hlt]

theorem cancel (hs : Tracks s h) {i : Nat} (hi : i < h.origins.length) :
    Tracks { s with tokens := s.tokens.cancel (s.context i) } (h.cancel i) where
  length_eq := hs.length_eq
  makes := hs.makes
  token_lt := hs.token_lt
  cancelled_lt := List.forall_mem_cons.2 ⟨hi, hs.cancelled_lt⟩
  cancelled_eq := congrArg ((s.context i).token :: ·) hs.cancelled_eq

/-- A context is made after all others. -/
theorem made (hs : Tracks s h) {c : Context} {tokens : Tokens} {o : Origin}
    (hmakes : o.Makes s.contexts c) (hnext : s.tokens.next ≤ tokens.next)
    (htoken : ∀ token ∈ c.lineage, token < tokens.next)
    (hcancelled : tokens.cancelled = s.tokens.cancelled) :
    Tracks (s.withContext (c, tokens)) (h.made o) where
  length_eq := by simp [Session.withContext, History.made, hs.length_eq]
  makes {k c' o'} hc' ho' := by
    simp only [Session.withContext, History.made] at hc' ho' ⊢
    rcases Nat.lt_trichotomy k s.contexts.length with hlt | rfl | hgt
    · rw [List.getElem?_append_left hlt] at hc'
      rw [List.getElem?_append_left (hs.length_eq ▸ hlt)] at ho'
      rw [List.take_append_of_le_length (Nat.le_of_lt hlt)]
      exact hs.makes hc' ho'
    · rw [hs.length_eq] at ho'
      simp only [List.getElem?_concat_length, Option.some.injEq] at hc' ho'
      obtain rfl := hc'
      obtain rfl := ho'
      rwa [List.take_left']
      rfl
    · have hnone : (s.contexts ++ [c])[k]? = none :=
        List.getElem?_eq_none (by simpa [Nat.succ_le_iff] using hgt)
      rw [hnone] at hc'
      cases hc'
  token_lt := by
    simp only [Session.withContext, List.forall_mem_append, List.forall_mem_singleton]
    refine ⟨fun c hc token htoken => ?_, htoken⟩
    exact Nat.lt_of_lt_of_le (hs.token_lt c hc token htoken) hnext
  cancelled_lt j hj := by
    have hlt := hs.cancelled_lt j hj
    simp only [History.made, List.length_append, List.length_singleton]
    lia
  cancelled_eq := by
    have hcontext : ∀ j ∈ h.cancelled,
        ((s.withContext (c, tokens)).context j).token = (s.context j).token := by
      intro j hj
      have hlt := hs.length_eq ▸ hs.cancelled_lt j hj
      simp [Session.context, Session.withContext, List.getElem?_append_left hlt, hlt]
    simp only [Session.withContext, hcancelled, hs.cancelled_eq]
    exact (List.map_congr_left hcontext).symm

/-- The token of a new context is new. -/
theorem new_of_next (hs : Tracks s h) {above : List Nat} {deadline : Option Instant} :
    ({ token := s.tokens.next, above, deadline } : Context).New s.contexts :=
  fun c hc token htoken => hs.token_lt c hc token htoken

/-- What an action does to the contexts is what it adds to their history. -/
theorem act (hs : Tracks s h) (cancellation : Option (Nat × Nat)) {action : Action α}
    (hknows : ∀ i ∈ action.names, i < s.contexts.length) :
    Tracks (s.act cancellation action).1 (h.act s.now action) := by
  have hexists {i : Nat} (hi : i < s.contexts.length) : s.contexts[i]? = some (s.context i) :=
    hs.getElem?_of_lt (hs.length_eq ▸ hi)
  have hlineage {i : Nat} (hi : i < s.contexts.length) :
      ∀ token ∈ (s.context i).lineage, token < s.tokens.next :=
    hs.token_lt _ (List.mem_of_getElem? (hexists hi))
  cases action with
  | new =>
    refine hs.made (.root hs.new_of_next rfl rfl) (Nat.le_succ _) ?_ rfl
    simp [Context.lineage]
  | child i timeout =>
    have hi := hknows i List.mem_cons_self
    cases hclock : after? s.now timeout with
    | none => simpa [Session.act, History.act, hclock] using hs
    | some d =>
      obtain rfl := eq_of_after?_eq_some hclock
      simp only [Session.act, History.act, hclock, Option.isSome_some, if_true]
      refine hs.made (.child (hexists hi) hs.new_of_next rfl rfl) (Nat.le_succ _) ?_ rfl
      refine List.forall_mem_cons.2 ⟨Nat.lt_succ_self _, fun token htoken => ?_⟩
      exact Nat.lt_succ_of_lt (hlineage hi token htoken)
  | clone i =>
    have hi := hknows i List.mem_cons_self
    exact hs.made (.clone (hexists hi)) (Nat.le_refl _) (hlineage hi) rfl
  | fromToken i =>
    have hi := hknows i List.mem_cons_self
    exact hs.made (.bare (hexists hi) rfl) (Nat.le_refl _) (hlineage hi) rfl
  | cancel i => exact hs.cancel (hs.length_eq ▸ hknows i List.mem_cons_self)
  | sleep duration => exact hs.of_eq rfl rfl
  | done i within =>
    unfold Session.act
    dsimp only
    split
    · split <;> exact hs.of_eq rfl rfl
    · exact hs.of_eq rfl rfl
  | race i what attempt => exact hs.of_eq (s.contexts_concluded ..) (s.tokens_concluded ..)
  | poll i what pacing attempts => exact hs.of_eq (s.contexts_concluded ..) (s.tokens_concluded ..)

/-- The same for a whole step, with the cancellation that falls into it. -/
theorem perform (hs : Tracks s h) {step : Step α} (hknows : s.Knows step) :
    Tracks (s.perform step).1 (h.perform s step) := by
  obtain ⟨action, cancellation⟩ := step
  obtain ⟨haction, hcancellation⟩ := List.forall_mem_append.1 hknows
  have hacted := hs.act cancellation haction
  cases cancellation with
  | none => exact hacted
  | some c =>
    obtain ⟨i, delay⟩ := c
    simp only [Session.perform, History.perform]
    split
    · have hi : i < s.contexts.length := hcancellation i (by simp)
      have hlt : i < (h.act s.now action).origins.length :=
        hacted.length_eq ▸ Nat.lt_of_lt_of_le hi (s.contexts_prefix_act ..).length_le
      rw [← Session.context_act hi (some (i, delay)) action]
      exact hacted.cancel hlt
    · exact hacted

/-- Contexts are tracked over a whole script. -/
theorem play (hs : Tracks s h) {steps : List (Step α)} (hknows : s.KnowsAll steps) :
    Tracks (s.play h steps).1 (s.play h steps).2 := by
  induction steps generalizing s h with
  | nil => exact hs
  | cons step steps ih => exact ih (hs.perform hknows.1) hknows.2

end Tracks

theorem mem_lineage (c : Context) : c.token ∈ c.lineage := List.mem_cons_self

theorem isCancelled_iff {t : Tokens} {c : Context} :
    t.isCancelled c = true ↔ ∃ token ∈ t.cancelled, token ∈ c.lineage := by
  simp only [Tokens.isCancelled, List.any_eq_true, List.contains_iff_mem]
  exact exists_congr fun token => and_comm

/-- What `cancel` makes of the tokens. -/
theorem isCancelled_cancel_iff {t : Tokens} {c c' : Context} :
    (t.cancel c).isCancelled c' = true ↔ c.token ∈ c'.lineage ∨ t.isCancelled c' = true := by
  simp [isCancelled_iff, Tokens.cancel]

/-- What does not get to a context leaves it as it was. -/
theorem isCancelled_cancel_of_not_mem {t : Tokens} {c c' : Context}
    (hmem : c.token ∉ c'.lineage) : (t.cancel c).isCancelled c' = t.isCancelled c' := by
  rw [Bool.eq_iff_iff, isCancelled_cancel_iff]
  simp [hmem]

namespace Tracks

variable {s : Session} {h : History} (hs : Tracks s h)
include hs

theorem makes_context {k : Nat} {o : Origin} (ho : h.origins[k]? = some o) :
    o.Makes (s.contexts.take k) (s.context k) :=
  hs.makes (hs.getElem?_of_lt (List.getElem?_eq_some_iff.1 ho).1) ho

/-- A context that was there before another is still there. -/
theorem context_of_take {j k : Nat} {c : Context} (hj : (s.contexts.take k)[j]? = some c) :
    j < k ∧ j < h.origins.length ∧ s.context j = c := by
  rw [List.getElem?_take] at hj
  split at hj
  next hlt =>
    exact ⟨hlt, hs.length_eq ▸ (List.getElem?_eq_some_iff.1 hj).1, s.context_eq hj⟩
  next => cases hj

/-- The deadline of a context is the earliest that was set on the way to it. -/
theorem exists_deadlines {k : Nat} (hk : k < h.origins.length) :
    ∃ ds, h.Deadlines k ds ∧ (s.context k).deadline = ds.min? := by
  induction k using Nat.strongRecOn with
  | ind k ih =>
    have ho := List.getElem?_eq_getElem hk
    generalize h.origins[k] = o at ho
    cases hs.makes_context ho with
    | root hnew habove hdeadline => exact ⟨[], .root ho, hdeadline⟩
    | bare hj hc => exact ⟨[], .bare ho, by rw [hc]; rfl⟩
    | clone hj =>
      obtain ⟨hlt, hlength, heq⟩ := hs.context_of_take hj
      obtain ⟨ds, hds, hmin⟩ := ih _ hlt hlength
      exact ⟨ds, .clone ho hds, heq ▸ hmin⟩
    | @child j made timeout parent hj hnew habove hdeadline =>
      obtain ⟨hlt, hlength, heq⟩ := hs.context_of_take hj
      obtain ⟨ds, hds, hmin⟩ := ih _ hlt hlength
      refine ⟨_, .child ho hds, ?_⟩
      rw [hdeadline, List.min?_cons, ← hmin, heq]
      cases parent.deadline <;> simp [Nat.min_comm]

/-- Copies hold the same token, below the same others. -/
theorem lineage_eq_of_copyOf {k j : Nat} (hcopy : h.CopyOf k j) :
    (s.context k).lineage = (s.context j).lineage := by
  rcases hcopy with ho | ho
  · cases hs.makes_context ho with
    | clone hj => rw [(hs.context_of_take hj).2.2]
  · cases hs.makes_context ho with
    | bare hj hc =>
      rw [hc, (hs.context_of_take hj).2.2]
      rfl

theorem lineage_eq_of_childOf {k j : Nat} (hchild : h.ChildOf k j) :
    (s.context k).lineage = (s.context k).token :: (s.context j).lineage := by
  obtain ⟨made, timeout, ho⟩ := hchild
  cases hs.makes_context ho with
  | child hj hnew habove =>
    rw [(hs.context_of_take hj).2.2, ← habove]
    rfl

/-- The tokens that cancel a context also cancel those to which its cancellation gets. -/
theorem lineage_subset_of_reaches {j k : Nat} (hreaches : h.Reaches j k) :
    (s.context j).lineage ⊆ (s.context k).lineage := by
  induction hreaches with
  | refl => exact fun _ htoken => htoken
  | tail _ hpass ih =>
    refine List.Subset.trans ih fun token htoken => ?_
    rcases hpass with hchild | hcopy | hcopy
    · rw [hs.lineage_eq_of_childOf hchild]
      exact List.mem_cons_of_mem _ htoken
    · rwa [hs.lineage_eq_of_copyOf hcopy]
    · rwa [← hs.lineage_eq_of_copyOf hcopy]

/-- No context that was there before holds a new token, or is below it. -/
theorem token_lt_of_new {j k : Nat} (hnew : (s.context k).New (s.contexts.take k)) (hlt : j < k)
    (hk : k < h.origins.length) : ∀ token ∈ (s.context j).lineage, token < (s.context k).token := by
  refine hnew _ (List.mem_of_getElem? (i := j) ?_)
  rw [List.getElem?_take_of_lt hlt]
  exact hs.getElem?_of_lt (Nat.lt_trans hlt hk)

/-- A context has no parent, or is a child, or is a copy. -/
theorem root_or_childOf_or_copyOf {k : Nat} (hk : k < h.origins.length) :
    (s.context k).above = [] ∧ (s.context k).New (s.contexts.take k) ∨
      (∃ j < k, h.ChildOf k j ∧ (s.context k).New (s.contexts.take k)) ∨
      ∃ j < k, h.CopyOf k j := by
  have ho := List.getElem?_eq_getElem hk
  generalize h.origins[k] = o at ho
  cases hs.makes_context ho with
  | root hnew habove => exact .inl ⟨habove, hnew⟩
  | child hj hnew => exact .inr (.inl ⟨_, (hs.context_of_take hj).1, ⟨_, _, ho⟩, hnew⟩)
  | clone hj => exact .inr (.inr ⟨_, (hs.context_of_take hj).1, .inl ho⟩)
  | bare hj => exact .inr (.inr ⟨_, (hs.context_of_take hj).1, .inr ho⟩)

/-- A context has a new token, unless it is a copy. -/
theorem new_or_copyOf {k : Nat} (hk : k < h.origins.length) :
    (s.context k).New (s.contexts.take k) ∨ ∃ j < k, h.CopyOf k j := by
  rcases hs.root_or_childOf_or_copyOf hk with ⟨-, hnew⟩ | ⟨-, -, -, hnew⟩ | hcopy
  · exact .inl hnew
  · exact .inl hnew
  · exact .inr hcopy

/-- Contexts that hold the same token are copies of one another. -/
theorem reaches_of_token_eq {j k : Nat} (hj : j < h.origins.length) (hk : k < h.origins.length)
    (heq : (s.context j).token = (s.context k).token) : h.Reaches j k := by
  have htoken {i i' : Nat} (hcopy : h.CopyOf i i') :
      (s.context i').token = (s.context i).token := by
    have hlineage := hs.lineage_eq_of_copyOf hcopy
    exact (List.cons.inj hlineage).1.symm
  induction hn : j + k using Nat.strongRecOn generalizing j k with
  | ind n ih =>
    subst hn
    rcases hs.new_or_copyOf hk with hknew | ⟨i, hlt, hcopy⟩
    · rcases hs.new_or_copyOf hj with hjnew | ⟨i, hlt, hcopy⟩
      · rcases Nat.lt_trichotomy j k with hlt | rfl | hlt
        · have := hs.token_lt_of_new hknew hlt hk _ (mem_lineage _)
          omega
        · exact .refl
        · have := hs.token_lt_of_new hjnew hlt hj _ (mem_lineage _)
          omega
      · have hrest := ih (i + k) (by omega) (Nat.lt_trans hlt hj) hk ((htoken hcopy).trans heq) rfl
        exact hcopy.reached.trans hrest
    · have hrest := ih (j + i) (by omega) hj (Nat.lt_trans hlt hk)
        (heq.trans (htoken hcopy).symm) rfl
      exact hrest.trans hcopy.reaches

/-- A context whose token is another's own, or above it, is one whose cancellation gets there. -/
theorem reaches_of_mem_lineage {j k : Nat} (hj : j < h.origins.length) (hk : k < h.origins.length)
    (hmem : (s.context j).token ∈ (s.context k).lineage) : h.Reaches j k := by
  induction k using Nat.strongRecOn with
  | ind k ih =>
    rcases hs.root_or_childOf_or_copyOf hk with ⟨habove, -⟩ | ⟨i, hlt, hchild, -⟩ | ⟨i, hlt, hcopy⟩
    · have heq : (s.context j).token = (s.context k).token := by
        simpa [Context.lineage, habove] using hmem
      exact hs.reaches_of_token_eq hj hk heq
    · rw [hs.lineage_eq_of_childOf hchild] at hmem
      rcases List.mem_cons.1 hmem with heq | hmem
      · exact hs.reaches_of_token_eq hj hk heq
      · exact (ih i hlt (Nat.lt_trans hlt hk) hmem).tail (.inl hchild)
    · rw [hs.lineage_eq_of_copyOf hcopy] at hmem
      exact (ih i hlt (Nat.lt_trans hlt hk) hmem).trans hcopy.reaches

theorem mem_lineage_iff_reaches {j k : Nat} (hj : j < h.origins.length)
    (hk : k < h.origins.length) : (s.context j).token ∈ (s.context k).lineage ↔ h.Reaches j k :=
  ⟨hs.reaches_of_mem_lineage hj hk, fun hreaches =>
    hs.lineage_subset_of_reaches hreaches (mem_lineage _)⟩

/-- A context is cancelled just if cancellation was called on one from which it gets there. -/
theorem isCancelled_context_iff {k : Nat} (hk : k < h.origins.length) :
    s.tokens.isCancelled (s.context k) = true ↔ ∃ j ∈ h.cancelled, h.Reaches j k := by
  simp only [isCancelled_iff, hs.cancelled_eq, List.mem_map, exists_exists_and_eq_and]
  exact exists_congr fun j => and_congr_right fun hj =>
    hs.mem_lineage_iff_reaches (hs.cancelled_lt j hj) hk

/-- A child is made after its parent, with a new token. -/
theorem new_of_childOf {k j : Nat} (hchild : h.ChildOf k j) :
    j < k ∧ k < h.origins.length ∧ (s.context k).New (s.contexts.take k) := by
  obtain ⟨made, timeout, ho⟩ := hchild
  cases hs.makes_context ho with
  | child hj hnew =>
    exact ⟨(hs.context_of_take hj).1, (List.getElem?_eq_some_iff.1 ho).1, hnew⟩

/-- The token of a child is none of those that cancel its parent. -/
theorem token_not_mem_of_childOf {k j : Nat} (hchild : h.ChildOf k j) :
    (s.context k).token ∉ (s.context j).lineage := by
  obtain ⟨hlt, hk, hnew⟩ := hs.new_of_childOf hchild
  intro hmem
  exact Nat.lt_irrefl _ (hs.token_lt_of_new hnew hlt hk _ hmem)

/-- The token of a child is none of those that cancel another child of its parent, or of a copy of
its parent. -/
theorem token_not_mem_of_siblings {k k' j j' : Nat} (hchild : h.ChildOf k j)
    (hchild' : h.ChildOf k' j') (hreaches : h.Reaches j' j) (hne : k ≠ k') :
    (s.context k).token ∉ (s.context k').lineage := by
  obtain ⟨-, hk, hnew⟩ := hs.new_of_childOf hchild
  obtain ⟨-, hk', hnew'⟩ := hs.new_of_childOf hchild'
  rw [hs.lineage_eq_of_childOf hchild', List.mem_cons, not_or]
  constructor
  · rcases Nat.lt_or_gt_of_ne hne with hlt | hlt
    · have := hs.token_lt_of_new hnew' hlt hk' _ (mem_lineage _)
      omega
    · have := hs.token_lt_of_new hnew hlt hk _ (mem_lineage _)
      omega
  · intro hmem
    exact hs.token_not_mem_of_childOf hchild (hs.lineage_subset_of_reaches hreaches hmem)

end Tracks

namespace History

/-- In a step that starts at `now`, and into which a cancellation may fall, a context is cancelled
by `t`. -/
def CancelledBy (h : History) (now : Instant) (cancellation : Option (Nat × Nat)) (i : Nat)
    (t : Instant) : Prop :=
  (∃ j ∈ h.cancelled, h.Reaches j i) ∨
    ∃ c ∈ cancellation, h.Reaches c.1 i ∧ now + c.2 ≤ t

end History

/-- What a wait for the end of a context tells, and when: it starts at `now` and gives up at
`last`. -/
inductive Done (cancelled : Instant → Prop) (deadline : Option Instant) (now last : Instant) :
    Instant → Report α → Prop where
  /-- At the first instant at which the context has been cancelled or its deadline has come. -/
  | ended {t : Instant} {interrupt : Interrupt} (hnow : now ≤ t) (hlast : t ≤ last)
      (hended : cancelled t ∨ ∃ d, deadline = some d ∧ d ≤ t)
      (hfirst : ∀ t', now ≤ t' → t' < t → ¬ (cancelled t' ∨ ∃ d, deadline = some d ∧ d ≤ t'))
      (hinterrupt : interrupt = .cancelled ↔ cancelled t) :
      Done cancelled deadline now last t (.ended interrupt)
  /-- There is no such instant. -/
  | pending (hnever : ∀ t, now ≤ t → t ≤ last →
      ¬ (cancelled t ∨ ∃ d, deadline = some d ∧ d ≤ t)) :
      Done cancelled deadline now last last .pending

/-- The wait ends with whichever of the two comes first. -/
theorem Limits.exists_endsAt_le_iff {l : Limits} {t : Instant} :
    (∃ e, l.endsAt = some e ∧ e ≤ t) ↔
      (∃ c, l.cancelledAt = some c ∧ c ≤ t) ∨ ∃ d, l.deadline = some d ∧ d ≤ t := by
  obtain ⟨c, d⟩ := l
  cases c <;> cases d <;> simp only [Limits.endsAt, Option.some.injEq, exists_eq_left',
    reduceCtorEq, false_and, exists_false, false_or, or_false]
  lia

/-- A cancellation that falls into a step changes neither what the step tells nor how long it takes.
-/
theorem Session.perform_eq (s : Session) (step : Step α) :
    (s.perform step).1.now = (s.act step.cancellation step.action).1.now ∧
      (s.perform step).2 = (s.act step.cancellation step.action).2 := by
  unfold Session.perform
  dsimp only
  split
  · split <;> exact ⟨rfl, rfl⟩
  · exact ⟨rfl, rfl⟩

/-- A wait for the end of a context under limits. -/
theorem Session.act_done (s : Session) (i within : Nat) (cancellation : Option (Nat × Nat)) :
    let l := s.limits (s.context i) cancellation
    let after := s.act (α := α) cancellation (.done i within)
    Done (fun t => ∃ c, l.cancelledAt = some c ∧ c ≤ t) (s.context i).deadline s.now
      (s.now + within) after.1.now after.2 := by
  intro l after
  have hended (t : Instant) :
      (∃ c, l.cancelledAt = some c ∧ c ≤ t) ∨ (∃ d, (s.context i).deadline = some d ∧ d ≤ t) ↔
        ∃ e, l.endsAt = some e ∧ e ≤ t :=
    Limits.exists_endsAt_le_iff.symm
  by_cases hlate : ∃ e, l.endsAt = some e ∧ e ≤ s.now + within
  · obtain ⟨e, he, hle⟩ := hlate
    have hafter : after = ({ s with now := max e s.now }, .ended (l.interrupt (max e s.now))) := by
      simp [after, l, Session.act, he, hle]
    rw [hafter]
    refine .ended (Nat.le_max_right _ _) (Nat.max_le.2 ⟨hle, Nat.le_add_right _ _⟩) ?_ ?_
      Limits.interrupt_eq_cancelled_iff
    · exact (hended _).2 ⟨e, he, Nat.le_max_left _ _⟩
    · intro t hnow hlt hdone
      obtain ⟨e', he', hle'⟩ := (hended t).1 hdone
      rw [he] at he'
      cases he'
      lia
  · have hafter : after = ({ s with now := s.now + within }, .pending) := by
      cases he : l.endsAt with
      | none => simp [after, l, Session.act, he]
      | some e =>
        have hle : ¬ e ≤ s.now + within := fun hle => hlate ⟨e, he, hle⟩
        simp [after, l, Session.act, he, hle]
    rw [hafter]
    refine .pending fun t _ hle hdone => hlate ?_
    obtain ⟨e, he, hle'⟩ := (hended t).1 hdone
    exact ⟨e, he, Nat.le_trans hle' hle⟩

namespace Tracks

variable {s : Session} {h : History} (hs : Tracks s h)
include hs

/-- The limits of a step know of its cancellation, and of those before. -/
theorem cancelledAt_limits_iff {i : Nat} {cancellation : Option (Nat × Nat)}
    (hi : i < h.origins.length) (hcancellation : ∀ c ∈ cancellation, c.1 < h.origins.length)
    {t : Instant} :
    (∃ c, (s.limits (s.context i) cancellation).cancelledAt = some c ∧ c ≤ t) ↔
      h.CancelledBy s.now cancellation i t := by
  rw [History.CancelledBy, ← hs.isCancelled_context_iff hi]
  cases hcancelled : s.tokens.isCancelled (s.context i) with
  | true => simp [Session.limits, hcancelled]
  | false =>
    match cancellation with
    | none => simp [Session.limits, hcancelled]
    | some (j, delay) =>
      have hiff := hs.mem_lineage_iff_reaches (hcancellation _ rfl) hi
      by_cases hmem : (s.context j).token ∈ (s.context i).lineage
      · simp [Session.limits, hcancelled, hmem, hiff.1 hmem]
      · simp [Session.limits, hcancelled, hmem, mt hiff.2 hmem]

/-- A wait for the end of a context is over when the context is. -/
theorem perform_done {i within : Nat} {cancellation : Option (Nat × Nat)}
    (hknows : s.Knows (⟨.done i within, cancellation⟩ : Step α)) :
    let after := s.perform (⟨.done i within, cancellation⟩ : Step α)
    Done (h.CancelledBy s.now cancellation i) (s.context i).deadline s.now (s.now + within)
      after.1.now after.2 := by
  obtain ⟨hi, hcancellation⟩ := List.forall_mem_append.1 hknows
  have hcancelled : (fun t => ∃ c, (s.limits (s.context i) cancellation).cancelledAt = some c ∧
      c ≤ t) = h.CancelledBy s.now cancellation i := by
    funext t
    refine propext (hs.cancelledAt_limits_iff (hs.length_eq ▸ hi i List.mem_cons_self) ?_)
    intro c hc
    obtain rfl := Option.mem_def.1 hc
    exact hs.length_eq ▸ hcancellation c.1 (by simp)
  obtain ⟨hnow, hreport⟩ := s.perform_eq (⟨.done i within, cancellation⟩ : Step α)
  intro after
  rw [hnow, hreport, ← hcancelled]
  exact s.act_done i within cancellation

end Tracks

/-- The contexts of a session are as their history demands, and so is a wait for the end of one. -/
structure Session.Follows (s : Session) (h : History) (α : Type) : Prop where
  length_eq : s.contexts.length = h.origins.length
  /-- The deadline of a context is the earliest of those that were set on the way to it since a
  context without one was made, if any was set. -/
  exists_deadlines {k : Nat} (hk : k < h.origins.length) : ∃ ds, h.Deadlines k ds
  deadline {k : Nat} {ds : List Instant} (hk : h.Deadlines k ds) : (s.context k).deadline = ds.min?
  /-- No child has a later deadline than its parent. -/
  child_deadline {k j : Nat} (hchild : h.ChildOf k j) :
    ∃ d, (s.context k).deadline = some d ∧ ∀ d', (s.context j).deadline = some d' → d ≤ d'
  /-- A context is cancelled if cancellation was called on it or its copies, on those from which
  they were made as children, or on copies of these, and so on, and only then. -/
  cancelled {k : Nat} (hk : k < h.origins.length) :
    s.tokens.isCancelled (s.context k) = true ↔ ∃ j ∈ h.cancelled, h.Reaches j k
  /-- To cancel a child makes no difference to its parent. -/
  parent_spared {k j : Nat} (hchild : h.ChildOf k j) :
    (s.tokens.cancel (s.context k)).isCancelled (s.context j) = s.tokens.isCancelled (s.context j)
  /-- Nor does it to other children of its parent, or of copies of its parent. -/
  siblings_spared {k k' j j' : Nat} (hchild : h.ChildOf k j) (hchild' : h.ChildOf k' j')
    (hreaches : h.Reaches j' j) (hne : k ≠ k') :
    (s.tokens.cancel (s.context k)).isCancelled (s.context k') =
      s.tokens.isCancelled (s.context k')
  /-- Copies are cancelled together. -/
  copies_together {k j : Nat} (hcopy : h.CopyOf k j) :
    s.tokens.isCancelled (s.context k) = s.tokens.isCancelled (s.context j) ∧
      s.tokens.cancel (s.context k) = s.tokens.cancel (s.context j)
  /-- A wait for the end of a context is over at its cancellation or at its deadline, whichever
  comes first, and tells of the cancellation if both come at once. -/
  done {i within : Nat} {cancellation : Option (Nat × Nat)}
    (hknows : s.Knows (⟨.done i within, cancellation⟩ : Step α)) :
    let after := s.perform (⟨.done i within, cancellation⟩ : Step α)
    Done (h.CancelledBy s.now cancellation i) (s.context i).deadline s.now (s.now + within)
      after.1.now after.2

theorem Tracks.child_deadline_le {s : Session} {h : History} (hs : Tracks s h) {k j : Nat}
    (hchild : h.ChildOf k j) :
    ∃ d, (s.context k).deadline = some d ∧ ∀ d', (s.context j).deadline = some d' → d ≤ d' := by
  obtain ⟨made, timeout, ho⟩ := hchild
  cases hs.makes_context ho with
  | child hj hnew habove hdeadline =>
    refine ⟨_, hdeadline, fun d' hd' => ?_⟩
    rw [(hs.context_of_take hj).2.2] at hd'
    rw [hd']
    exact Nat.min_le_left _ _

theorem Tracks.follows {s : Session} {h : History} (hs : Tracks s h) (α : Type) :
    s.Follows h α where
  length_eq := hs.length_eq
  exists_deadlines hk := by
    obtain ⟨ds, hds, -⟩ := hs.exists_deadlines hk
    exact ⟨ds, hds⟩
  deadline {k ds} hk := by
    have hlt : k < h.origins.length := by
      cases hk <;> exact (List.getElem?_eq_some_iff.1 (by assumption)).1
    obtain ⟨ds', hds', hmin⟩ := hs.exists_deadlines hlt
    rwa [hk.unique hds']
  child_deadline hchild := hs.child_deadline_le hchild
  cancelled hk := hs.isCancelled_context_iff hk
  parent_spared hchild := isCancelled_cancel_of_not_mem (hs.token_not_mem_of_childOf hchild)
  siblings_spared hchild hchild' hreaches hne :=
    isCancelled_cancel_of_not_mem (hs.token_not_mem_of_siblings hchild hchild' hreaches hne)
  copies_together hcopy := by
    have hlineage := hs.lineage_eq_of_copyOf hcopy
    rw [Tokens.isCancelled, Tokens.isCancelled, hlineage]
    exact ⟨rfl, by rw [Tokens.cancel, Tokens.cancel, (List.cons.inj hlineage).1]⟩
  done hknows := hs.perform_done hknows

/-- Whatever a script does with contexts, and whenever it starts, they are as its history demands:
of each the history tells the deadline and whether it is cancelled, and waits for its end are over
when it is. -/
theorem contexts_follow_history {α : Type} (t : Instant) (steps : List (Step α))
    (hknows : ({ now := t } : Session).KnowsAll steps) :
    let after := ({ now := t } : Session).play {} steps
    after.1.Follows after.2 α :=
  ((Tracks.start t).play hknows).follows α

/-- A context, its child, a context from the child's token, and another child; the third of them is
cancelled while the script waits for the end of the second. -/
def sharedToken : List (Step Unit) :=
  [⟨.new, none⟩, ⟨.child 0 5000, none⟩, ⟨.fromToken 1, none⟩, ⟨.child 0 300, none⟩,
    ⟨.done 1 9000, some (2, 100)⟩]

/-- That ends the second and the third, but neither the first nor the fourth. -/
theorem sharedToken_follows_history :
    let after := ({ now := 7 } : Session).play {} sharedToken
    after.1.Follows after.2 Unit ∧ after.1.now = 107 ∧
      after.1.contexts.map after.1.tokens.isCancelled = [false, true, true, false] :=
  ⟨contexts_follow_history 7 sharedToken (by decide), by decide, by decide⟩

end Reachability.Wait
