import Reachability.Proofs.Teardown.Success

namespace Reachability

open Manifest (Kind)
open Simulation
open Wait (Instant Limits Moment Outcome Procedure World)

variable {ns : String}

namespace Simulation.Store

variable (s : Store)

theorem get_space (ns : String) : s.get .space ⟨"", ns⟩ =
    if s.has .space ⟨"", ns⟩ then .ok () else .error (.notFound Kind.space.label ns) :=
  rfl

/-- The deletion of a namespace is rejected, which it will be less often, or there is no namespace
any more. -/
theorem deleteSpace_progress (ns : String) :
    (s.deleteSpace ns).1.has .space ⟨"", ns⟩ = false ∨
      (s.deleteSpace ns).1.rejections < s.rejections := by
  unfold deleteSpace
  dsimp only
  split
  next hrejected => exact .inr (Nat.sub_lt hrejected Nat.one_pos)
  next =>
    left
    split
    · have hdropped : ((s.withoutSpace ns).objects.get? ⟨.space, ⟨"", ns⟩⟩) = none :=
        Dict.get?_filter_of_dropped _ fun _ => by simp
      exact congrArg Option.isSome hdropped
    next hmissing => exact Bool.eq_false_iff.2 hmissing

/-- No answer to a teardown makes rejections more numerous. -/
theorem rejections_answer_le {r : Request} (hr : r.TearsDown ns) (shown : ObjectKey) :
    (s.answer shown r).1.rejections ≤ s.rejections := by
  cases r with
  | get kind key => exact Nat.le_refl _
  | delete kind key =>
    simp only [answer, delete]
    split
    · unfold deleteSpace
      dsimp only
      split
      · exact Nat.sub_le _ _
      · split <;> exact Nat.le_refl _
    · split
      · dsimp only
        split <;> exact Nat.le_refl _
      · exact Nat.le_refl _
  | _ => exact hr.elim

end Simulation.Store

/-- Nothing stands in a place on a machine. -/
def Vacant (id : Nat) (p : Place) (machines : List Machine) : Prop :=
  ∀ m, machines[id]? = some m → m.store.objects.get? p = none

theorem Vacant.removes {id : Nat} {p : Place} {machines machines' : List Machine}
    (h : Vacant id p machines) (hremoves : Across (Store.Removes ns) machines machines') :
    Vacant id p machines' := by
  intro m' hm'
  have hlt : id < machines.length := by
    rw [← hremoves.length_eq]
    exact (List.getElem?_eq_some_iff.1 hm').1
  have hm := List.getElem?_eq_getElem hlt
  exact (hremoves.related hm hm').shrinks.objects p (h _ hm)

/-- What a deletion is about is gone when it has been carried out. -/
theorem vacant_answered_deletion (machines : List Machine) (cluster : Cluster) (ns : String)
    {subject : Kind × String} (hkind : subject.1 ≠ .space) :
    Vacant cluster.id ⟨subject.1, subject.1.keyIn ns subject.2⟩
      (answered machines (deletionOf cluster ns subject)).1 := by
  intro machine hmachine
  rw [answered_fst, getElem?_updateStore] at hmachine
  obtain ⟨machine₀, -, rfl⟩ := Option.map_eq_some_iff.1 hmachine
  rw [if_pos (show (deletionOf cluster ns subject).cluster.id = cluster.id from rfl)]
  exact machine₀.store.get?_delete hkind _

section Runs

variable {w : World clusterApi} {machines : w.State → List Machine} {cluster : Cluster}
  {patience : Nat} {m : Moment w}

/-- After its deletions, nothing of the sort stands on the cluster. -/
theorem Attends.run_deletions (h : Attends w machines) (cluster : Cluster) (patience : Nat)
    {subjects : List (Kind × String)} (hsubjects : subjects ⊆ everything ns)
    (hquiet : Quiet (machines m.state)) :
    ∃ m', (deletions cluster ns subjects).run.run w patience {} m = (.returned (.ok ()), m') ∧
      ∀ subject ∈ subjects, subject.1 ≠ .space →
        Vacant cluster.id ⟨subject.1, subject.1.keyIn ns subject.2⟩ (machines m'.state) := by
  induction subjects generalizing m with
  | nil => exact ⟨m, rfl, List.forall_mem_nil _⟩
  | cons subject subjects ih =>
    obtain ⟨-, hsubjects⟩ := List.cons_subset.1 hsubjects
    obtain ⟨m₁, hfirst, hmachines⟩ :=
      h.raceOnce (subject.1.phrase ++ " deletion") (deletionOf cluster ns subject) hquiet
    have hquiet₁ : Quiet (machines m₁.state) := by
      rw [hmachines, answered_fst]
      exact rules_updateStore hquiet
    obtain ⟨m', hrest, hvacant⟩ := ih hsubjects hquiet₁
    refine ⟨m', ?_, List.forall_mem_cons.2 ⟨fun hkind => ?_, hvacant⟩⟩
    · rw [deletions_cons, Check.run_bind, passDeletion, Check.run_attempt_bind]
      refine (congrArg (Wait.andThen · _) (congrArg (Wait.andThen · _) hfirst)).trans ?_
      exact hrest
    · obtain ⟨-, hremoves⟩ := h.run_removes hquiet₁ (deletions_confined hsubjects).asks.asks
        (fun _ hc => answer_removes hc.2.tearsDown) hrest
      rw [hmachines] at hremoves
      exact (vacant_answered_deletion _ cluster ns hkind).removes hremoves

/-- One more attempt at the deletion of the namespace. -/
theorem Attends.run_namespaceGone (h : Attends w machines) (ns : String)
    (hquiet : Quiet (machines m.state)) {machine : Machine}
    (hmachine : (machines m.state)[cluster.id]? = some machine) :
    ∃ r m', (namespaceGone cluster ns).run w none m = (.returned r, m') ∧
      machines m'.state =
        updateStore (machines m.state) cluster.id (fun s => (s.deleteSpace ns).1) ∧
      (r = .ok () ∨ r = .error (.notReady (.namespacePresent ns)) ∧
        (machine.store.deleteSpace ns).1.rejections < machine.store.rejections) := by
  obtain ⟨m₁, hmachines₁, hdelete⟩ := h.run_ask ⟨cluster, .delete .space ⟨"", ns⟩⟩ hquiet
  rw [answered_fst] at hmachines₁
  have hquiet₁ : Quiet (machines m₁.state) := by
    rw [hmachines₁]
    exact rules_updateStore hquiet
  have hmachine₁ : (machines m₁.state)[cluster.id]? =
      some { machine with store := (machine.store.deleteSpace ns).1 } := by
    rw [hmachines₁, getElem?_updateStore, hmachine]
    exact congrArg some (if_pos rfl)
  obtain ⟨m', hmachines', hlookup⟩ := h.run_ask (spaceLookup cluster ns) hquiet₁
  refine ⟨_, m', (hdelete _).trans (hlookup _), ?_, ?_⟩
  · rw [hmachines', answered_fst]
    exact (updateStore_eq_self fun _ _ => rfl).trans hmachines₁
  · rw [answered_of_getElem? (c := spaceLookup cluster ns) hmachine₁]
    simp only [spaceLookup, Store.answer, Store.get_space]
    cases hhas : (machine.store.deleteSpace ns).1.has .space ⟨"", ns⟩ with
    | false => exact .inl rfl
    | true =>
      exact .inr ⟨rfl, (machine.store.deleteSpace_progress ns).resolve_left (by simp [hhas])⟩

/-- The wait for the namespace to go succeeds within as many attempts as are rejected and one
more, unless it goes beyond the clock. -/
theorem Attends.pollFrom_namespaceGone (h : Attends w machines) (pacing : Nat) (what : String)
    {attempts : Nat} {last : Option Failure} (hquiet : Quiet (machines m.state))
    {machine : Machine} (hmachine : (machines m.state)[cluster.id]? = some machine)
    (hattempts : machine.store.rejections < attempts)
    (hclock : Wait.after? (Wait.pollFrom w {} pacing what (namespaceGone cluster ns) attempts last
      m).2.now pacing ≠ none) :
    ∃ m', Wait.pollFrom w {} pacing what (namespaceGone cluster ns) attempts last m =
      (.returned (.ok ()), m') := by
  induction attempts generalizing last m machine with
  | zero => exact absurd hattempts (Nat.not_lt_zero _)
  | succ attempts ih =>
    obtain ⟨r, m₁, hrun, hmachines, hr⟩ := h.run_namespaceGone ns hquiet hmachine
    have hstarts : Wait.Starts {} pacing m := by
      refine ⟨Wait.after?_eq_some fun hover => hclock ?_, rfl⟩
      rwa [Wait.pollFrom_of_overrun hover]
    rw [Wait.pollFrom_succ hstarts, show ({} : Limits).endsAt = none from rfl, hrun] at hclock ⊢
    rcases hr with rfl | ⟨rfl, hfewer⟩
    · exact ⟨m₁, rfl⟩
    · have hquiet₁ : Quiet (machines m₁.state) := by
        rw [hmachines]
        exact rules_updateStore hquiet
      have hmachine₁ : (machines m₁.state)[cluster.id]? =
          some { machine with store := (machine.store.deleteSpace ns).1 } := by
        rw [hmachines, getElem?_updateStore, hmachine]
        simp
      exact ih (m := { m₁ with now := max m₁.now (m.now + pacing) }) hquiet₁ hmachine₁
        (Nat.lt_of_lt_of_le hfewer (Nat.le_of_lt_succ hattempts)) hclock

theorem Attends.run_awaitGone (h : Attends w machines) (ns : String)
    (hquiet : Quiet (machines m.state)) {machine : Machine}
    (hmachine : (machines m.state)[cluster.id]? = some machine)
    (hpatience : machine.store.rejections < patience)
    (hclock : Wait.after? ((awaitGone cluster ns).run.run w patience {} m).2.now
      Wait.defaultPacing ≠ none) :
    ∃ m', (awaitGone cluster ns).run.run w patience {} m = (.returned (.ok ()), m') := by
  obtain ⟨m₁, hlookup, hmachines⟩ := h.raceOnce "namespace lookup" (spaceLookup cluster ns) hquiet
  rw [answered_fst] at hmachines
  have hsame : machines m₁.state = machines m.state :=
    hmachines.trans (updateStore_eq_self fun _ _ => rfl)
  have hanswer : (answered (machines m.state) (spaceLookup cluster ns)).2 =
      machine.store.get .space ⟨"", ns⟩ := by
    rw [answered_of_getElem? (c := spaceLookup cluster ns) hmachine]
    rfl
  rw [hanswer, Store.get_space] at hlookup
  cases hhas : machine.store.has .space ⟨"", ns⟩ with
  | false =>
    rw [hhas, if_neg Bool.false_ne_true] at hlookup
    rw [awaitGone, Check.run_attempt_bind]
    exact ⟨m₁, congrArg (Wait.andThen · _) hlookup⟩
  | true =>
    rw [hhas, if_pos rfl] at hlookup
    have hrun : (awaitGone cluster ns).run.run w patience {} m =
        Wait.pollFrom w {} Wait.defaultPacing ("namespace " ++ ns ++ " deletion")
          (namespaceGone cluster ns) patience none m₁ := by
      rw [awaitGone, Check.run_attempt_bind]
      refine (congrArg (Wait.andThen · _) hlookup).trans ?_
      exact Check.run_poll patience {} m₁ _ _ _
    rw [hrun] at hclock ⊢
    exact h.pollFrom_namespaceGone Wait.defaultPacing _ (hsame ▸ hquiet) (hsame ▸ hmachine)
      hpatience hclock

/-- The observer has patience for all rejections. -/
def Patient (patience : Nat) (machines : List Machine) : Prop :=
  ∀ machine ∈ machines, machine.store.rejections < patience

theorem Patient.across {machines machines' : List Machine} (h : Patient patience machines)
    (hfewer : Across (fun s s' => s'.rejections ≤ s.rejections) machines machines') :
    Patient patience machines' := by
  intro machine' hmachine'
  obtain ⟨id, hid⟩ := List.mem_iff_getElem?.1 hmachine'
  have hlt : id < machines.length := by
    rw [← hfewer.length_eq]
    exact (List.getElem?_eq_some_iff.1 hid).1
  have hmachine := List.getElem?_eq_getElem hlt
  exact Nat.lt_of_le_of_lt (hfewer.related hmachine hid) (h _ (List.mem_of_getElem? hmachine))

/-- What calls of a teardown keep up, whatever they remove. -/
theorem Attends.run_patient (h : Attends w machines) (hquiet : Quiet (machines m.state))
    (hpatient : Patient patience (machines m.state)) {c : Check Unit}
    (hc : c.Confined (Call.Clears cluster ns)) {patience' : Nat} {r : Except Failure Unit}
    {m' : Moment w} (hrun : c.run.run w patience' {} m = (.returned r, m')) :
    Quiet (machines m'.state) ∧ Patient patience (machines m'.state) ∧
      Across (Store.Removes ns) (machines m.state) (machines m'.state) := by
  obtain ⟨hquiet', hremoves⟩ := h.run_removes hquiet hc.asks.asks
    (fun _ hc => answer_removes hc.2.tearsDown) hrun
  obtain ⟨-, hfewer⟩ := h.run_across hquiet hc.asks.asks
    (R := fun s s' => s'.rejections ≤ s.rejections) (fun _ => Nat.le_refl _)
    (fun _ _ _ h h' => Nat.le_trans h' h)
    (fun _ hc s shown => s.rejections_answer_le hc.2.tearsDown shown) hrun
  exact ⟨hquiet', hpatient.across hfewer, hremoves⟩

/-- Nothing that a teardown deletes stands on the cluster. -/
def Cleared (ns : String) (cluster : Cluster) (machines : List Machine) : Prop :=
  ∀ subject ∈ everything ns,
    Vacant cluster.id ⟨subject.1, subject.1.keyIn ns subject.2⟩ machines

theorem Attends.run_teardown (h : Attends w machines) (ns : String)
    (hquiet : Quiet (machines m.state)) (hthere : cluster.id < (machines m.state).length)
    (hpatient : Patient patience (machines m.state))
    (hclock : Wait.after? ((teardown cluster ns).run.run w patience {} m).2.now
      Wait.defaultPacing ≠ none) :
    ∃ m', (teardown cluster ns).run.run w patience {} m = (.returned (.ok ()), m') ∧
      Cleared ns cluster (machines m'.state) := by
  obtain ⟨m₁, hdeletions, hvacant⟩ :=
    h.run_deletions cluster patience (fun _ hx => hx) hquiet
  obtain ⟨hquiet₁, hpatient₁, hremoves₁⟩ := h.run_patient hquiet hpatient
    (deletions_confined fun _ hx => hx) hdeletions
  have hmachine₁ := List.getElem?_eq_getElem (hremoves₁.length_eq.symm ▸ hthere)
  have hrest : (teardown cluster ns).run.run w patience {} m =
      (awaitGone cluster ns).run.run w patience {} m₁ := by
    rw [teardown_eq, Check.run_bind, hdeletions]
    rfl
  obtain ⟨m', hgone⟩ := h.run_awaitGone ns hquiet₁ hmachine₁
    (hpatient₁ _ (List.mem_of_getElem? hmachine₁)) (hrest ▸ hclock)
  have hrun : (teardown cluster ns).run.run w patience {} m = (.returned (.ok ()), m') :=
    hrest.trans hgone
  refine ⟨m', hrun, fun subject hsubject => ?_⟩
  obtain ⟨-, -, hremoves'⟩ := h.run_patient hquiet₁ hpatient₁ (awaitGone_confined cluster ns) hgone
  by_cases hkind : subject.1 = .space
  · obtain ⟨kind, name⟩ := subject
    obtain rfl : kind = .space := hkind
    obtain rfl := mem_everything_space.1 hsubject
    intro machine hmachine
    have hhas := (h.toServes.run_teardown hquiet hrun).gone List.mem_cons_self machine hmachine
    rw [Store.has, Dict.contains, Option.isSome_eq_false_iff] at hhas
    exact Option.isNone_iff_eq_none.1 hhas
  · exact (hvacant subject hsubject hkind).removes hremoves'

/-- Teardowns of several clusters, one after the other. -/
theorem Attends.run_teardowns (h : Attends w machines) (ns : String) {clusters : List Cluster}
    (hquiet : Quiet (machines m.state))
    (hthere : ∀ cluster ∈ clusters, cluster.id < (machines m.state).length)
    (hpatient : Patient patience (machines m.state)) (i : Inventory)
    (hclock : Wait.after? (((clusters.forM fun cluster =>
      Survey.check (teardown cluster ns)).run.run i).run w patience {} m).2.now
        Wait.defaultPacing ≠ none) :
    ∃ m', ((clusters.forM fun cluster => Survey.check (teardown cluster ns)).run.run i).run
        w patience {} m = (.returned (.ok (), i), m') ∧
      ∀ cluster ∈ clusters, Cleared ns cluster (machines m'.state) := by
  induction clusters generalizing m with
  | nil => exact ⟨m, rfl, List.forall_mem_nil _⟩
  | cons cluster clusters ih =>
    obtain ⟨hcluster, hclusters⟩ := List.forall_mem_cons.1 hthere
    have hsooner : ((teardown cluster ns).run.run w patience {} m).2.now ≤
        ((((cluster :: clusters).forM fun cluster =>
          Survey.check (teardown cluster ns)).run.run i).run w patience {} m).2.now :=
      Nat.le_trans (Procedure.now_run_le_bind (teardown cluster ns).run _)
        (Procedure.now_run_le_bind ((Survey.check (teardown cluster ns)).run.run i) _)
    obtain ⟨m₁, hfirst, hcleared⟩ := h.run_teardown ns hquiet hcluster hpatient
      (Wait.after?_ne_none_of_le (Nat.add_le_add_right hsooner _) hclock)
    have hwhole : (((cluster :: clusters).forM fun cluster =>
        Survey.check (teardown cluster ns)).run.run i).run w patience {} m =
          ((clusters.forM fun cluster => Survey.check (teardown cluster ns)).run.run i).run
            w patience {} m₁ := by
      refine (Survey.run_bind _ _ i patience {} m).trans ?_
      rw [Survey.run_check, hfirst]
      rfl
    obtain ⟨hquiet₁, hpatient₁, hremoves₁⟩ := h.run_patient hquiet hpatient
      (teardown_confined cluster ns) hfirst
    obtain ⟨m', hrest, hothers⟩ := ih hquiet₁ (hremoves₁.length_eq.symm ▸ hclusters) hpatient₁
      (hwhole ▸ hclock)
    refine ⟨m', ?_, List.forall_mem_cons.2 ⟨fun subject hsubject => ?_, hothers⟩⟩
    · exact hwhole.trans hrest
    · exact (hcleared subject hsubject).removes (h.toServes.run_teardowns hquiet₁ hrest).removes

end Runs

end Reachability
