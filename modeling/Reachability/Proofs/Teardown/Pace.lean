import Reachability.Proofs.Provision.Standstill
import Reachability.Proofs.Wait.Schedule

namespace Reachability

open Manifest (Kind)
open Simulation
open Wait (Instant Limits Moment World)

variable {ns : String} {rejections deletes : Nat}

namespace Simulation.Store

/-- The namespace is there. So many deletions of it have been asked for, and so many more will be
rejected. -/
structure Guarded (ns : String) (rejections deletes : Nat) (s : Store) : Prop where
  present : s.has .space ⟨"", ns⟩ = true
  rejections : s.rejections = rejections
  deletes : s.spaceDeletes = deletes

/-- The namespace is gone with all that was in it, after so many deletions. -/
structure Freed (ns : String) (deletes : Nat) (s : Store) : Prop where
  lacks : s.Lacks ns
  deletes : s.spaceDeletes = deletes

variable {s : Store}

theorem Freed.has (h : s.Freed ns deletes) : s.has .space ⟨"", ns⟩ = false :=
  congrArg Option.isSome (h.lacks.objects ⟨.space, ⟨"", ns⟩⟩ rfl)

/-- The counts are about namespaces alone. -/
theorem Guarded.delete (h : s.Guarded ns rejections deletes) {kind : Kind} (hkind : kind ≠ .space)
    (key : ObjectKey) : (s.delete kind key).1.Guarded ns rejections deletes := by
  have hcounts : (s.delete kind key).1.rejections = s.rejections ∧
      (s.delete kind key).1.spaceDeletes = s.spaceDeletes := by
    unfold Store.delete
    rw [if_neg hkind]
    split
    · dsimp only
      split <;> exact ⟨rfl, rfl⟩
    · exact ⟨rfl, rfl⟩
  refine ⟨?_, hcounts.1.trans h.rejections, hcounts.2.trans h.deletes⟩
  rw [← h.present]
  exact congrArg Option.isSome
    (get?_delete_of_ne s hkind fun heq => hkind (congrArg Place.kind heq).symm)

theorem Guarded.deleteAll (h : s.Guarded ns rejections deletes) {subjects : List (Kind × String)}
    (hkinds : ∀ subject ∈ subjects, subject.1 ≠ .space) :
    (s.deleteAll ns subjects).Guarded ns rejections deletes := by
  induction subjects generalizing s with
  | nil => exact h
  | cons subject subjects ih =>
    obtain ⟨hkind, hkinds⟩ := List.forall_mem_cons.1 hkinds
    exact ih (h.delete hkind _) hkinds

theorem Guarded.deleteSpace (h : s.Guarded ns (rejections + 1) deletes) :
    (s.deleteSpace ns).1.Guarded ns rejections (deletes + 1) := by
  have hrejected : 0 < s.rejections := h.rejections ▸ Nat.succ_pos _
  have hstore : (s.deleteSpace ns).1 =
      { s with spaceDeletes := s.spaceDeletes + 1, rejections := s.rejections - 1 } :=
    congrArg Prod.fst (if_pos hrejected)
  rw [hstore]
  exact ⟨h.present, by simp [h.rejections], congrArg (· + 1) h.deletes⟩

theorem Guarded.deleteSpace_last (h : s.Guarded ns 0 deletes) :
    (s.deleteSpace ns).1.Freed ns (deletes + 1) := by
  have hstore : (s.deleteSpace ns).1 =
      { s with spaceDeletes := s.spaceDeletes + 1 }.withoutSpace ns := by
    unfold Store.deleteSpace
    dsimp only
    rw [if_neg (by simp [h.rejections])]
    exact congrArg Prod.fst (if_pos h.present)
  rw [hstore]
  refine ⟨?_, congrArg (· + 1) h.deletes⟩
  refine ((withoutSpace_removes _ ns).whole ?_).resolve_left ?_
  · exact congrArg Option.isSome (Dict.get?_filter_of_dropped _ fun _ => by simp)
  · exact fun hgone => Bool.noConfusion (h.present.symm.trans hgone)

theorem ne_space_of_mem_everyObject : ∀ subject ∈ everyObject, subject.1 ≠ .space := by
  rintro ⟨_, name⟩ hsubject rfl
  simp [everyObject] at hsubject

/-- The deletion of the namespace comes last. -/
theorem deleteAll_everything (s : Store) (ns : String) :
    s.deleteAll ns (everything ns) = ((s.deleteAll ns everyObject).deleteSpace ns).1 := by
  have hlast : s.deleteAll ns (everything ns) =
      ((s.deleteAll ns everyObject).delete .space ⟨"", ns⟩).1 :=
    List.foldl_append
  rw [hlast, Store.delete, if_pos rfl]

end Simulation.Store

/-- The clusters answer by themselves, and this holds of one of them. -/
structure OnCluster (id : Nat) (holds : Store → Prop) (machines : List Machine) : Prop where
  quiet : Quiet machines
  store : ∃ machine, machines[id]? = some machine ∧ holds machine.store

namespace OnCluster

variable {id : Nat} {holds holds' : Store → Prop} {machines : List Machine}

theorem mono (h : OnCluster id holds machines) (himp : ∀ s, holds s → holds' s) :
    OnCluster id holds' machines :=
  ⟨h.quiet, h.store.imp fun _ => And.imp_right (himp _)⟩

theorem updateStore (h : OnCluster id holds machines) {f : Store → Store}
    (hf : ∀ s, holds s → holds' (f s)) : OnCluster id holds' (updateStore machines id f) := by
  obtain ⟨machine, hmachine, hstore⟩ := h.store
  refine ⟨rules_updateStore h.quiet, { machine with store := f machine.store }, ?_, hf _ hstore⟩
  rw [getElem?_updateStore, hmachine]
  exact congrArg some (if_pos rfl)

/-- A look-up tells whether the namespace is there. -/
theorem answered_spaceLookup {cluster : Cluster} {there : Bool}
    (h : OnCluster cluster.id (fun s => s.has .space ⟨"", ns⟩ = there) machines) :
    answered machines (spaceLookup cluster ns) =
      (machines, if there then .ok () else .error (.notFound Kind.space.label ns)) := by
  obtain ⟨machine, hmachine, rfl⟩ := h.store
  rw [answered_of_getElem? (c := spaceLookup cluster ns) hmachine]
  exact congrArg (·, _) (updateStore_eq_self fun _ _ => rfl)

end OnCluster

section Runs

variable {w : World clusterApi} {machines : w.State → List Machine} {cluster : Cluster}
  {m : Moment w}

/-- Deletions take no time, and are carried out whatever limits there are, unless they have
ended. -/
theorem AtOnce.run_deletions (h : AtOnce w machines) (cluster : Cluster) (ns : String)
    (subjects : List (Kind × String)) (hquiet : Quiet (machines m.state)) :
    ∃ m', m'.now = m.now ∧
      machines m'.state =
        updateStore (machines m.state) cluster.id (Store.deleteAll ns subjects) ∧
      ∀ (patience : Nat) {l : Limits}, l.endedBy m.now = false →
        (deletions cluster ns subjects).run.run w patience l m = (.returned (.ok ()), m') := by
  induction subjects generalizing m with
  | nil => exact ⟨m, rfl, (updateStore_eq_self fun _ _ => rfl).symm, fun _ _ _ => rfl⟩
  | cons subject subjects ih =>
    obtain ⟨m₁, hnow₁, hmachines₁, hfirst⟩ :=
      h.raceOnce hquiet (subject.1.phrase ++ " deletion") (deletionOf cluster ns subject)
    rw [answered_fst] at hmachines₁
    obtain ⟨m', hnow, hmachines, hrest⟩ := ih (hmachines₁ ▸ rules_updateStore hquiet)
    refine ⟨m', hnow.trans hnow₁, ?_, fun patience l hl => ?_⟩
    · rw [hmachines, hmachines₁]
      exact updateStore_updateStore
    · rw [deletions_cons, Check.run_bind, passDeletion, Check.run_attempt_bind]
      refine (congrArg (Wait.andThen · _) (congrArg (Wait.andThen · _) (hfirst hl))).trans ?_
      exact hrest patience (hnow₁ ▸ hl)

/-- One attempt deletes the namespace once more, and tells whether it is still there. -/
theorem AtOnce.run_namespaceGone (h : AtOnce w machines) {there : Bool}
    (hquiet : Quiet (machines m.state))
    (hlookup : OnCluster cluster.id (fun s => s.has .space ⟨"", ns⟩ = there)
      (updateStore (machines m.state) cluster.id fun s => (s.deleteSpace ns).1)) :
    ∃ m', m'.now = m.now ∧
      machines m'.state =
        updateStore (machines m.state) cluster.id (fun s => (s.deleteSpace ns).1) ∧
      ∀ {l : Limits}, l.endedBy m.now = false →
        (namespaceGone cluster ns).run w l.endsAt m =
          (.returned (if there then .error (.notReady (.namespacePresent ns)) else .ok ()),
            m') := by
  obtain ⟨m₁, hnow₁, hmachines₁, hdelete⟩ := h.run_ask hquiet ⟨cluster, .delete .space ⟨"", ns⟩⟩
  rw [answered_fst] at hmachines₁
  have hcluster := hmachines₁.symm ▸ hlookup
  obtain ⟨m', hnow, hmachines, hask⟩ := h.run_ask hcluster.quiet (spaceLookup cluster ns)
  rw [hcluster.answered_spaceLookup] at hmachines hask
  refine ⟨m', hnow.trans hnow₁, hmachines.trans hmachines₁, fun {l} hl => ?_⟩
  refine (hdelete _ hl).trans ((hask _ (hnow₁ ▸ hl)).trans ?_)
  cases there <;> rfl

/-- After an attempt that took no time and left the namespace there, the wait goes on in a second
unless it is over by then. -/
theorem pollFrom_namespacePresent {m₁ : Moment w} {l : Limits} (hnow : m₁.now = m.now)
    (hstarts : Wait.Starts l Wait.defaultPacing m)
    (hrun : (namespaceGone cluster ns).run w l.endsAt m =
      (.returned (.error (.notReady (.namespacePresent ns))), m₁))
    (what : String) (attempts : Nat) (last : Option Failure) :
    Wait.pollFrom w l Wait.defaultPacing what (namespaceGone cluster ns) (attempts + 1) last m =
      if l.endedBy (m.now + 1000) then
        Wait.cutOff l what (some (.notReady (.namespacePresent ns))) m₁
      else
        Wait.pollFrom w l Wait.defaultPacing what (namespaceGone cluster ns) attempts
          (some (.notReady (.namespacePresent ns))) { m₁ with now := m.now + 1000 } := by
  have hnext : max m₁.now (m.now + Wait.defaultPacing) = m.now + 1000 :=
    Nat.max_eq_right (hnow ▸ Nat.le_add_right _ _)
  rw [Wait.pollFrom_succ hstarts, hrun]
  simp only [if_true, Wait.afterAttempt, Failure.retryable, hnext]

/-- The wait for the namespace to go takes one second for every deletion that is still rejected,
or is given up when its time is over. -/
theorem AtOnce.pollFrom_namespaceGone (h : AtOnce w machines) (what : String)
    (hm : OnCluster cluster.id (Store.Guarded ns rejections deletes) (machines m.state))
    (hclock : Wait.after? (m.now + 1000 * rejections) Wait.defaultPacing ≠ none) :
    (∃ m', m'.now = m.now + 1000 * rejections ∧
      OnCluster cluster.id (Store.Freed ns (deletes + rejections + 1)) (machines m'.state) ∧
      ∀ (l : Limits) (attempts : Nat) (last : Option Failure), rejections < attempts →
        l.endedBy m'.now = false →
        Wait.pollFrom w l Wait.defaultPacing what (namespaceGone cluster ns) attempts last m =
          (.returned (.ok ()), m')) ∧
    ∀ (l : Limits) (e : Instant) (attempts : Nat) (last : Option Failure), l.endsAt = some e →
      m.now < e → e ≤ m.now + 1000 * rejections → e < m.now + attempts →
      ∃ m', m'.now = e ∧
        OnCluster cluster.id (fun s => s.has .space ⟨"", ns⟩ = true) (machines m'.state) ∧
        Wait.pollFrom w l Wait.defaultPacing what (namespaceGone cluster ns) attempts last m =
          (.returned (.error ((l.interrupt e).failure what
            (some (.notReady (.namespacePresent ns))))), m') := by
  induction rejections generalizing m deletes with
  | zero =>
    have hfreed := hm.updateStore fun s hs => hs.deleteSpace_last
    obtain ⟨m', hnow, hmachines, hrun⟩ :=
      h.run_namespaceGone hm.quiet (hfreed.mono fun s hs => hs.has)
    refine ⟨⟨m', hnow, hmachines ▸ hfreed, fun l attempts last hattempts hl => ?_⟩, ?_⟩
    · obtain ⟨attempts, rfl⟩ : ∃ n, attempts = n + 1 := ⟨attempts - 1, by lia⟩
      rw [hnow] at hl
      rw [Wait.pollFrom_succ (.of_reckoned (by lia) hclock hl), hrun hl]
      rfl
    · exact fun l e attempts last _ hlt hle => absurd hle (Nat.not_le_of_lt hlt)
  | succ rejections ih =>
    -- the first attempt uses up one rejection, and what is left begins a second later
    have hguarded := hm.updateStore fun s hs => hs.deleteSpace
    obtain ⟨m₁, hnow₁, hmachines₁, hrun⟩ :=
      h.run_namespaceGone hm.quiet (hguarded.mono fun s hs => hs.present)
    have hstarts {l : Limits} (hl : l.endedBy m.now = false) :
        Wait.Starts l Wait.defaultPacing m := .of_reckoned (by lia) hclock hl
    obtain ⟨⟨m', hnow, hfreed, hfinish⟩, hcut⟩ :=
      ih (m := { m₁ with now := m.now + 1000 }) (hmachines₁ ▸ hguarded)
        (by rwa [Nat.add_assoc, Nat.add_comm 1000, ← Nat.mul_succ])
    dsimp only at hnow hcut
    refine ⟨⟨m', by lia, ?_, fun l attempts last hattempts hl => ?_⟩,
      fun l e attempts last hends hlt hle hattempts => ?_⟩
    · rwa [show deletes + (rejections + 1) + 1 = deletes + 1 + rejections + 1 by lia]
    · obtain ⟨attempts, rfl⟩ : ∃ n, attempts = n + 1 := ⟨attempts - 1, by lia⟩
      have hsecond : l.endedBy (m.now + 1000) = false :=
        Wait.Schedule.not_endedBy_of_le (hnow ▸ Nat.le_add_right _ _) hl
      have hlive := Wait.Schedule.not_endedBy_of_le (Nat.le_add_right _ _) hsecond
      rw [pollFrom_namespacePresent hnow₁ (hstarts hlive) (hrun hlive),
        if_neg (Bool.eq_false_iff.1 hsecond)]
      exact hfinish l attempts _ (Nat.lt_of_succ_lt_succ hattempts) hl
    · obtain ⟨attempts, rfl⟩ : ∃ n, attempts = n + 1 := ⟨attempts - 1, by lia⟩
      have hlive := Wait.not_endedBy_of_endsAt hends hlt
      rw [pollFrom_namespacePresent hnow₁ (hstarts hlive) (hrun hlive)]
      by_cases hsecond : e ≤ m.now + 1000
      · have hcutOff := hnow₁ ▸ Nat.max_eq_left (Nat.le_of_lt hlt)
        rw [if_pos (Wait.endedBy_of_le hends hsecond), Wait.cutOff_of_endsAt hends, hcutOff]
        exact ⟨_, rfl, hmachines₁ ▸ hguarded.mono fun s hs => hs.present, rfl⟩
      · have hlater := Nat.lt_of_not_le hsecond
        rw [if_neg (Bool.eq_false_iff.1 (Wait.not_endedBy_of_endsAt hends hlater))]
        exact hcut l e attempts _ hends hlater (by lia) (by lia)

/-- If the namespace is still there, the wait for it to go begins at once. -/
theorem AtOnce.run_awaitGone (h : AtOnce w machines) {there : Bool}
    (hm : OnCluster cluster.id (fun s => s.has .space ⟨"", ns⟩ = there) (machines m.state)) :
    ∃ m', m'.now = m.now ∧ machines m'.state = machines m.state ∧
      ∀ (patience : Nat) {l : Limits}, l.endedBy m.now = false →
        (awaitGone cluster ns).run.run w patience l m =
          if there then
            Wait.pollFrom w l Wait.defaultPacing ("namespace " ++ ns ++ " deletion")
              (namespaceGone cluster ns) (Wait.attemptsUntil patience l.endsAt m.now) none m'
          else (.returned (.ok ()), m') := by
  obtain ⟨m', hnow, hmachines, hlookup⟩ :=
    h.raceOnce hm.quiet "namespace lookup" (spaceLookup cluster ns)
  rw [hm.answered_spaceLookup] at hmachines hlookup
  refine ⟨m', hnow, hmachines, fun patience l hl => ?_⟩
  rw [awaitGone, Check.run_attempt_bind]
  refine (congrArg (Wait.andThen · _) (hlookup hl)).trans ?_
  cases there with
  | false => rfl
  | true =>
    rw [← hnow]
    exact Check.run_poll patience l m' _ _ _

/-- The deletions, the last of which is that of the namespace. -/
theorem AtOnce.run_everything (h : AtOnce w machines) {holds : Store → Prop}
    (hm : OnCluster cluster.id (Store.Guarded ns rejections deletes) (machines m.state))
    (hlast : ∀ s : Store, s.Guarded ns rejections deletes → holds (s.deleteSpace ns).1) :
    ∃ m', m'.now = m.now ∧ OnCluster cluster.id holds (machines m'.state) ∧
      ∀ (patience : Nat) {l : Limits}, l.endedBy m.now = false →
        (teardown cluster ns).run.run w patience l m =
          (awaitGone cluster ns).run.run w patience l m' := by
  obtain ⟨m', hnow, hmachines, hrun⟩ := h.run_deletions cluster ns (everything ns) hm.quiet
  refine ⟨m', hnow, ?_, fun patience l hl => ?_⟩
  · rw [hmachines]
    refine hm.updateStore fun s hs => ?_
    rw [Store.deleteAll_everything]
    exact hlast _ (hs.deleteAll Store.ne_space_of_mem_everyObject)
  · rw [teardown_eq, Check.run_bind, hrun patience hl]
    rfl

/-- A teardown of a namespace whose deletion is rejected some times, and one that is given up before
the last of them. -/
theorem AtOnce.run_teardown (h : AtOnce w machines)
    (hm : OnCluster cluster.id (Store.Guarded ns rejections deletes) (machines m.state))
    (hclock : Wait.after? (m.now + 1000 * (rejections - 1)) Wait.defaultPacing ≠ none) :
    (∃ m', m'.now = m.now + 1000 * (rejections - 1) ∧
      OnCluster cluster.id (Store.Freed ns (deletes + rejections + 1)) (machines m'.state) ∧
      ∀ (patience : Nat) (l : Limits), rejections ≤ patience → l.endedBy m'.now = false →
        (teardown cluster ns).run.run w patience l m = (.returned (.ok ()), m')) ∧
    ∀ (patience : Nat) (l : Limits) (e : Instant), l.endsAt = some e → m.now < e →
      e ≤ m.now + 1000 * (rejections - 1) →
      ∃ m', m'.now = e ∧
        OnCluster cluster.id (fun s => s.has .space ⟨"", ns⟩ = true) (machines m'.state) ∧
        (teardown cluster ns).run.run w patience l m =
          (.returned (.error ((l.interrupt e).failure ("namespace " ++ ns ++ " deletion")
            (some (.notReady (.namespacePresent ns))))), m') := by
  cases rejections with
  | zero =>
    obtain ⟨m₁, hnow₁, hfreed, hdeletions⟩ := h.run_everything hm fun s hs => hs.deleteSpace_last
    obtain ⟨m', hnow, hmachines, hlookup⟩ := h.run_awaitGone (hfreed.mono fun s hs => hs.has)
    refine ⟨⟨m', hnow.trans hnow₁, hmachines ▸ hfreed, fun patience l _ hl => ?_⟩,
      fun patience l e _ hlt hle => absurd hle (Nat.not_le_of_lt hlt)⟩
    rw [hdeletions patience (hnow₁ ▸ hnow ▸ hl), hlookup patience (hnow ▸ hl)]
    rfl
  | succ rejections =>
    obtain ⟨m₁, hnow₁, hguarded, hdeletions⟩ := h.run_everything hm fun s hs => hs.deleteSpace
    obtain ⟨m₂, hnow₂, hmachines, hlookup⟩ :=
      h.run_awaitGone (hguarded.mono fun s hs => hs.present)
    have hwait (patience : Nat) {l : Limits} (hl : l.endedBy m.now = false) :
        (teardown cluster ns).run.run w patience l m =
          Wait.pollFrom w l Wait.defaultPacing ("namespace " ++ ns ++ " deletion")
            (namespaceGone cluster ns) (Wait.attemptsUntil patience l.endsAt m.now) none m₂ := by
      rw [hdeletions patience hl, hlookup patience (hnow₁ ▸ hl), hnow₁]
      rfl
    obtain ⟨⟨m', hnow, hfreed, hfinish⟩, hcut⟩ :=
      h.pollFrom_namespaceGone ("namespace " ++ ns ++ " deletion") (hmachines ▸ hguarded)
        (by rwa [hnow₂, hnow₁])
    rw [hnow₂, hnow₁] at hnow hcut
    refine ⟨⟨m', hnow, ?_, fun patience l hpatience hl => ?_⟩,
      fun patience l e hends hlt hle => ?_⟩
    · rwa [show deletes + (rejections + 1) + 1 = deletes + 1 + rejections + 1 by lia]
    · have hlive := Wait.Schedule.not_endedBy_of_le (hnow ▸ Nat.le_add_right _ _) hl
      rw [hwait patience hlive]
      exact hfinish l _ none (Nat.lt_of_lt_of_le hpatience (Nat.le_add_right _ _)) hl
    · rw [hwait patience (Wait.not_endedBy_of_endsAt hends hlt)]
      refine hcut l e _ none hends hlt hle ?_
      simp only [Wait.attemptsUntil, hends, Option.map_some, Option.getD_some]
      lia

end Runs

/-- A teardown outlasts any number of rejections: the namespace is deleted once at first, and then
once a second until it goes. A cancellation before that leaves the namespace where it is; a later
one makes no difference. -/
theorem teardown_outlasts_rejections {w : World clusterApi} {machines : w.State → List Machine}
    (h : AtOnce w machines) {m : Moment w} (hquiet : Quiet (machines m.state)) (cluster : Cluster)
    (ns : String) {machine : Machine} (hmachine : (machines m.state)[cluster.id]? = some machine)
    (hpresent : machine.store.has .space ⟨"", ns⟩ = true) {patience : Nat}
    (hpatience : machine.store.rejections ≤ patience)
    (hclock : Wait.after? (m.now + 1000 * (machine.store.rejections - 1)) Wait.defaultPacing ≠
      none) :
    let run (l : Limits) := (teardown cluster ns).run.run w patience l m
    let seconds := machine.store.rejections - 1
    (∃ m' machine', run {} = (.returned (.ok ()), m') ∧ m'.now = m.now + 1000 * seconds ∧
      (machines m'.state)[cluster.id]? = some machine' ∧
      machine'.store.spaceDeletes =
        machine.store.spaceDeletes + (machine.store.rejections + 1) ∧
      machine'.store.Lacks ns) ∧
    ∀ c, 0 < c →
      let l : Limits := { cancelledAt := some (m.now + c) }
      ((∃ m' machine',
          run l = (.returned (.error (.cancelled ("namespace " ++ ns ++ " deletion")
            (.notReady (.namespacePresent ns)))), m') ∧
          m'.now = m.now + c ∧ (machines m'.state)[cluster.id]? = some machine' ∧
          machine'.store.has .space ⟨"", ns⟩ = true) ↔ c ≤ 1000 * seconds) ∧
      (1000 * seconds < c → run l = run {}) := by
  intro run seconds
  have hguarded : OnCluster cluster.id
      (Store.Guarded ns machine.store.rejections machine.store.spaceDeletes) (machines m.state) :=
    ⟨hquiet, machine, hmachine, hpresent, rfl, rfl⟩
  obtain ⟨⟨m', hnow, hfreed, hfinish⟩, hcut⟩ := h.run_teardown hguarded hclock
  obtain ⟨machine', hmachine', hlacks, hdeletes⟩ := hfreed.store
  have hfree : run {} = (.returned (.ok ()), m') := hfinish patience {} hpatience rfl
  have hlate {c : Nat} (hc : 1000 * seconds < c) :
      run { cancelledAt := some (m.now + c) } = run {} := by
    refine (hfinish patience _ hpatience (Wait.not_endedBy_of_endsAt rfl ?_)).trans hfree.symm
    exact hnow ▸ Nat.add_lt_add_left hc m.now
  refine ⟨⟨m', machine', hfree, hnow, hmachine', hdeletes, hlacks⟩,
    fun c hpositive => ⟨⟨?_, fun hc => ?_⟩, hlate⟩⟩
  · rintro ⟨_, _, hrun, -⟩
    refine Nat.le_of_not_lt fun hc => ?_
    cases hrun.symm.trans ((hlate hc).trans hfree)
  · obtain ⟨m'', hnow'', hcluster, hrun⟩ := hcut patience { cancelledAt := some (m.now + c) }
      (m.now + c) rfl (Nat.lt_add_of_pos_right hpositive) (Nat.add_le_add_left hc m.now)
    obtain ⟨machine'', hmachine'', hthere⟩ := hcluster.store
    have hinterrupt : Limits.interrupt { cancelledAt := some (m.now + c) } (m.now + c) =
        .cancelled := if_pos (Nat.le_refl _)
    rw [hinterrupt] at hrun
    exact ⟨m'', machine'', hrun, hnow'', hmachine'', hthere⟩

/-- A cluster with the namespace of the runs and an object in it. The next three deletions of the
namespace will be rejected. -/
def reluctantCluster : Machine where
  store :=
    { Store.fresh "kind" with
      rejections := 3
      objects := .ofList
        [(⟨.space, ⟨"", "cilium-test"⟩⟩, .space (.named "cilium-test")),
          (⟨.configMap, ⟨"cilium-test", "notes"⟩⟩, .configMap {})] }

/-- A cancellation after two seconds comes in time, one that comes a millisecond later does not. -/
theorem reluctantCluster_torn_down :
    let run (l : Limits) :=
      (teardown ⟨0, "kind"⟩ "cilium-test").run.run (world false) 3 l ⟨0, [reluctantCluster], []⟩
    (∃ m' machine', run {} = (.returned (.ok ()), m') ∧ m'.now = 2000 ∧
      (machinesAt m'.state)[0]? = some machine' ∧ machine'.store.spaceDeletes = 4 ∧
      machine'.store.Lacks "cilium-test") ∧
    (∃ m' machine', run { cancelledAt := some 2000 } =
        (.returned (.error (.cancelled "namespace cilium-test deletion"
          (.notReady (.namespacePresent "cilium-test")))), m') ∧ m'.now = 2000 ∧
      (machinesAt m'.state)[0]? = some machine' ∧
      machine'.store.has .space ⟨"", "cilium-test"⟩ = true) ∧
    run { cancelledAt := some 2001 } = run {} := by
  have hquiet : Quiet [reluctantCluster] := List.forall_mem_singleton.2 rfl
  have hpresent : reluctantCluster.store.has .space ⟨"", "cilium-test"⟩ = true := by decide +kernel
  have hpatience : reluctantCluster.store.rejections ≤ 3 := by decide
  obtain ⟨hfree, hcut⟩ := teardown_outlasts_rejections atOnce_world
    (m := ⟨0, [reluctantCluster], []⟩) hquiet ⟨0, "kind"⟩ "cilium-test" rfl hpresent hpatience
    (by decide)
  have hdeletion : "namespace " ++ "cilium-test" ++ " deletion" =
      "namespace cilium-test deletion" := by decide
  have hcancelled := (hcut 2000 (by decide)).1.2 (by decide)
  rw [hdeletion] at hcancelled
  exact ⟨hfree, hcancelled, (hcut 2001 (by decide)).2 (by decide)⟩

end Reachability
