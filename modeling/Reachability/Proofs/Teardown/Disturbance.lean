import Reachability.Proofs.Session.Interruption
import Reachability.Proofs.Simulation.Staffing
import Reachability.Proofs.Teardown.Completion

namespace Reachability

open Manifest (Kind)
open Simulation
open Wait (Limits Moment Outcome Procedure World)

/-- Clusters as deployments and teardowns leave them: no rules, as many as there were, and every
deployment with its service account. -/
structure Sound (count : Nat) (machines : List Machine) : Prop where
  quiet : Quiet machines
  staffed : StaffedOn (fun _ _ => True) machines
  length_eq : machines.length = count

/-- Clusters from one of which these deployments of the namespace are already gone. -/
structure TearingDown (count : Nat) (cluster : Cluster) (ns : String) (gone : List String)
    (machines : List Machine) : Prop extends Sound count machines where
  gone {name : String} (h : name ∈ gone) : Vacant cluster.id ⟨.deployment, ⟨ns, name⟩⟩ machines

variable {count : Nat} {cluster : Cluster} {ns : String} {gone : List String}

theorem Sound.updateStore {machines : List Machine} (h : Sound count machines) {id : Nat}
    {f : Store → Store} (hf : ∀ m, machines[id]? = some m → m.store.Staffed (fun _ => True) →
      (f m.store).Staffed fun _ => True) : Sound count (updateStore machines id f) where
  quiet := rules_updateStore h.quiet
  staffed := h.staffed.updateStore hf
  length_eq := length_updateStore.trans h.length_eq

/-- A service account must only be deleted when its deployment is gone. -/
theorem TearingDown.answered {machines : List Machine}
    (h : TearingDown count cluster ns gone machines) {c : Call} (hc : c.Clears cluster ns)
    (haccount : ∀ key, c.request = .delete .serviceAccount key → key.name ∈ gone) :
    TearingDown count cluster ns gone (answered machines c).1 := by
  obtain ⟨cluster, r⟩ := c
  obtain ⟨rfl, hr⟩ := hc
  rw [answered_fst]
  refine ⟨h.updateStore fun m hm hstaffed => ?_, fun hname => ?_⟩
  · cases r with
    | get kind key => exact hstaffed
    | delete kind key =>
      intro key' _
      refine (hstaffed key' trivial).delete fun hkind => ?_
      obtain ⟨name, -, rfl⟩ := hr
      subst hkind
      exact h.gone (haccount _ rfl) m hm
    | _ => exact hr.elim
  · exact (h.gone hname).removes
      (.updateStore (fun _ => .of_eq rfl rfl) (answer_removes hr.tearsDown · _) _ _)

/-- Service accounts are deleted after the deployments of their names, some of which are already
gone. -/
def AccountsLast : List String → List (Kind × String) → Prop
  | _, [] => True
  | gone, (kind, name) :: subjects =>
    (kind = .serviceAccount → name ∈ gone) ∧
      AccountsLast (if kind = .deployment then name :: gone else gone) subjects

theorem everything_accountsLast (ns : String) : AccountsLast [] (everything ns) := by
  simp [everything, everyObject, everyDeployment, AccountsLast]

/-- The rest of a teardown, from some deletion on. -/
def teardownFrom (cluster : Cluster) (ns : String) (subjects : List (Kind × String)) : Check Unit :=
  do
    deletions cluster ns subjects
    awaitGone cluster ns

theorem teardownFrom_halts (i : Wait.Interrupt) (cluster : Cluster) (ns : String)
    (subjects : List (Kind × String)) : (teardownFrom cluster ns subjects).Halts i :=
  Check.HaltsTo.bind (.forM_passedOver (fun _ => .passOver (.request ..)) _)
    (fun _ _ => awaitGone_halts i cluster ns) fun _ h => nomatch h

/-- In this world, a deletion of a deployment that is answered has been carried out. -/
def DeletesDeployments (w : World clusterApi) (machines : w.State → List Machine) : Prop :=
  ∀ {s cluster key s' delay finish},
    w.start s ⟨cluster, .delete .deployment key⟩ = (s', some (delay, finish)) →
    machines (finish s').1 = (answered (machines s) ⟨cluster, .delete .deployment key⟩).1

section Runs

variable {w : World clusterApi} {machines : w.State → List Machine} {patience : Nat} {l : Limits}
  {m m' : Moment w}

theorem run_teardownFrom_cons (cluster : Cluster) (ns : String) (subject : Kind × String)
    (subjects : List (Kind × String)) (patience : Nat) (l : Limits) (m : Moment w) :
    (teardownFrom cluster ns (subject :: subjects)).run.run w patience l m =
      Wait.andThen
        (Wait.raceOnce w l (subject.1.phrase ++ " deletion")
          (probe cluster (deletionOf cluster ns subject).request) m)
        fun _ m => (teardownFrom cluster ns subjects).run.run w patience l m := by
  rw [teardownFrom, Check.run_bind, deletions_cons, Check.run_bind, passDeletion,
    Check.run_attempt_bind, Wait.andThen_assoc, Wait.andThen_assoc]
  congr 1
  funext answer m
  exact (Check.run_bind patience l m (deletions cluster ns subjects) _).symm

/-- Whatever comes of a deletion, no deployment loses its service account. If it comes back in time,
a deployment that was to be deleted is gone. -/
theorem Disturbs.raceOnce_deletion (h : Disturbs w machines)
    (hdeletes : DeletesDeployments w machines) {subject : Kind × String}
    (hsubject : subject ∈ everything ns)
    (haccount : subject.1 = .serviceAccount → subject.2 ∈ gone) {what : String}
    {o : Outcome (Except Failure Unit)}
    (hm : TearingDown count cluster ns gone (machines m.state))
    (hrun : Wait.raceOnce w l what (probe cluster (deletionOf cluster ns subject).request) m =
      (o, m')) :
    TearingDown count cluster ns gone (machines m'.state) ∧
      ∀ answer, o = .returned answer → l.endedBy m'.now = true ∨
        TearingDown count cluster ns (if subject.1 = .deployment then subject.2 :: gone else gone)
          (machines m'.state) := by
  have hdeletion : TearingDown count cluster ns gone (machines m'.state) := by
    have hlasts : Wait.Lasts (w := w) (· = deletionOf cluster ns subject)
        fun m => TearingDown count cluster ns gone (machines m.state) :=
      h.lasts (·.quiet) fun {machines c} hc hmachines => by
        subst hc
        refine hmachines.answered ⟨rfl, subject.2, hsubject, rfl⟩ fun key hkey => ?_
        obtain ⟨hkind, rfl⟩ := Request.delete.inj hkey
        exact haccount hkind
    have hasks : (probe cluster (deletionOf cluster ns subject).request).Asks
        (· = deletionOf cluster ns subject) := ⟨rfl, fun _ => trivial⟩
    have hend := hlasts.run_raceOnce l what hasks hm
    rwa [hrun] at hend
  refine ⟨hdeletion, ?_⟩
  rintro answer rfl
  rcases Wait.raceOnce_call w l what (deletionOf cluster ns subject) m with
    ⟨m₁, -, heq⟩ | ⟨s, delay, finish, m₁, hstart, heq, hstate⟩
  · exact .inl (Wait.cutOff_ended (heq.symm.trans hrun))
  · right
    split
    next hkind =>
      refine ⟨hdeletion.toSound, fun hname => ?_⟩
      rcases List.mem_cons.1 hname with rfl | hname
      · obtain ⟨kind, name⟩ := subject
        obtain rfl : kind = .deployment := hkind
        obtain ⟨-, rfl⟩ := Prod.mk.inj (heq.symm.trans hrun)
        rw [hstate, hdeletes hstart]
        have hdeployment : (Kind.deployment, name).1 ≠ .space := by simp
        exact vacant_answered_deletion _ cluster ns hdeployment
      · exact hdeletion.gone hname
    next => exact hdeletion

/-- Wherever the rest of a teardown is cut off, every deployment has its service account. -/
theorem Disturbs.run_teardownFrom (h : Disturbs w machines)
    (hdeletes : DeletesDeployments w machines) {subjects : List (Kind × String)}
    (hsubjects : subjects ⊆ everything ns) (hlast : AccountsLast gone subjects)
    (hm : TearingDown count cluster ns gone (machines m.state)) :
    Sound count
      (machines ((teardownFrom cluster ns subjects).run.run w patience l m).2.state) := by
  induction subjects generalizing gone m with
  | nil =>
    have hlasts : Wait.Lasts (w := w) (Call.AwaitsGone cluster ns)
        fun m => TearingDown count cluster ns gone (machines m.state) :=
      h.lasts (·.quiet) fun hc hmachines =>
        hmachines.answered hc.clears fun key hkey => by
          rcases hc with rfl | rfl <;> cases hkey
    exact (hlasts.run (awaitGone_awaitsGone cluster ns).confined patience l hm).toSound
  | cons subject subjects ih =>
    obtain ⟨hsubject, hsubjects⟩ := List.cons_subset.1 hsubjects
    obtain ⟨haccount, hlast⟩ := hlast
    rw [run_teardownFrom_cons]
    rcases hrun : Wait.raceOnce w l (subject.1.phrase ++ " deletion")
      (probe cluster (deletionOf cluster ns subject).request) m with ⟨answer | _ | _, m'⟩
    · obtain ⟨hm', hreturned⟩ := h.raceOnce_deletion hdeletes hsubject haccount hm hrun
      rcases hreturned answer rfl with hended | hgone
      · obtain ⟨e, hends, hlate⟩ := Limits.endedBy_iff.1 hended
        obtain ⟨_, hhalted, -⟩ :=
          (teardownFrom_halts _ cluster ns subjects).halts.run hends patience hlate rfl
        change Sound count
          (machines ((teardownFrom cluster ns subjects).run.run w patience l m').2.state)
        rw [hhalted]
        exact hm'.toSound
      · exact ih hsubjects hlast hgone
    · exact (h.raceOnce_deletion hdeletes hsubject haccount hm hrun).1.toSound
    · exact (h.raceOnce_deletion hdeletes hsubject haccount hm hrun).1.toSound

theorem Disturbs.run_teardown (h : Disturbs w machines) (hdeletes : DeletesDeployments w machines)
    (cluster : Cluster) (ns : String) (patience : Nat) (l : Limits)
    (hm : Sound count (machines m.state)) :
    Sound count (machines ((teardown cluster ns).run.run w patience l m).2.state) :=
  h.run_teardownFrom hdeletes (List.Subset.refl _) (everything_accountsLast ns) ⟨hm, nofun⟩

theorem Disturbs.run_teardowns (h : Disturbs w machines) (hdeletes : DeletesDeployments w machines)
    (clusters : List Cluster) (ns : String) (i : Inventory) (patience : Nat) (l : Limits)
    (hm : Sound count (machines m.state)) :
    Sound count (machines (((clusters.forM fun cluster =>
      Survey.check (teardown cluster ns)).run.run i).run w patience l m).2.state) := by
  induction clusters generalizing m with
  | nil => exact hm
  | cons cluster clusters ih =>
    have hfirst := h.run_teardown hdeletes cluster ns patience l hm
    refine Survey.run_bind (Survey.check (teardown cluster ns)) _ i patience l m ▸ ?_
    rw [Survey.run_check]
    rcases hrun : (teardown cluster ns).run.run w patience l m with ⟨⟨e | _⟩ | _ | _, m'⟩ <;>
      rw [hrun] at hfirst
    · exact hfirst
    · exact ih hfirst
    · exact hfirst
    · exact hfirst

end Runs

end Reachability
