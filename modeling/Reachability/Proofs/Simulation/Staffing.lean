import Reachability.Proofs.Simulation.Removal

namespace Reachability.Simulation

open Manifest (Kind Object)
open Reachability.Topology (Item Side)

/-- What stands in the place of a deployment runs as the service account of its name, which stands
beside it. -/
structure Store.StaffedAt (s : Store) (key : ObjectKey) : Prop where
  runsAs {o : Object} (h : s.objects.get? ⟨.deployment, key⟩ = some o) :
    ∃ d, o = .deployment d ∧ d.template.spec.serviceAccount = some key.name
  account (h : s.objects.contains ⟨.deployment, key⟩ = true) :
    s.objects.contains ⟨.serviceAccount, key⟩ = true

/-- All deployments at these keys have their service accounts. -/
def Store.Staffed (keys : ObjectKey → Prop) (s : Store) : Prop := ∀ key, keys key → s.StaffedAt key

namespace Store

variable {ns : String} {s s' : Store} {key : ObjectKey} {keys : ObjectKey → Prop} {o : Object}

theorem StaffedAt.of_vacant (h : s.objects.get? ⟨.deployment, key⟩ = none) : s.StaffedAt key where
  runsAs ho := by
    rw [h] at ho
    cases ho
  account ho := by
    rw [Dict.contains, h] at ho
    cases ho

/-- Where the deployment stays as it is, the service account must only not go. -/
theorem StaffedAt.mono (h : s.StaffedAt key)
    (hsame : s'.objects.get? ⟨.deployment, key⟩ = s.objects.get? ⟨.deployment, key⟩)
    (haccount : s.objects.contains ⟨.serviceAccount, key⟩ = true →
      s'.objects.contains ⟨.serviceAccount, key⟩ = true) : s'.StaffedAt key where
  runsAs ho := h.runsAs (hsame ▸ ho)
  account ho := by
    rw [Dict.contains, hsame] at ho
    exact haccount (h.account ho)

/-- What a new deployment is stored as. -/
theorem get?_added_deployment (s : Store) (ns : String) (d : Manifest.Deployment) :
    (s.added ns (.deployment d)).objects.get? (newPlace ns (.deployment d)) =
      some (.deployment (settled ns d)) := by
  have hobjects : (s.added ns (.deployment d)).objects =
      s.objects.insert (newPlace ns (.deployment d)) (.deployment (settled ns d)) := by
    refine (foldl_objects ?_ _ _).trans rfl
    exact fun _ _ => rfl
  rw [hobjects, get?_insert_place, if_pos rfl]

/-- An object of another kind leaves the deployments alone. -/
theorem get?_createIn_deployment (s : Store) (hkind : o.kind ≠ .deployment) (key : ObjectKey) :
    (s.createIn ns o).objects.get? ⟨.deployment, key⟩ = s.objects.get? ⟨.deployment, key⟩ := by
  cases hthere : s.objects.contains (place ns o) with
  | true => rw [createIn_of_contains hthere]
  | false =>
    rw [createIn_objects_of_not_contains hthere]
    exact get?_added_of_ne s _ o (fun heq => hkind (congrArg Place.kind heq).symm)
      fun _ heq => by cases heq

theorem Staffed.createIn (h : s.Staffed keys) (hkind : o.kind ≠ .deployment)
    (hname : o.kind = .ingress → o.name = Topology.ingressName) : (s.createIn ns o).Staffed keys :=
  fun key hkey => (h key hkey).mono (get?_createIn_deployment s hkind key)
    (Preserves.createIn hname).contains

/-- A deployment may be created where its service account stands. -/
theorem Staffed.createIn_deployment (h : s.Staffed keys) {w : Topology.Workload}
    (haccount : s.objects.contains (place ns (Manifest.serviceAccount w.name)) = true) :
    (s.createIn ns (.deployment (Manifest.deployment w))).Staffed keys := by
  intro key hkey
  cases hthere : s.objects.contains (place ns (.deployment (Manifest.deployment w))) with
  | true =>
    rw [createIn_of_contains hthere]
    exact h key hkey
  | false =>
    have hpreserves : s.Preserves ns (s.createIn ns (.deployment (Manifest.deployment w))) :=
      .createIn nofun
    by_cases hplace : key = ⟨ns, w.name⟩
    · subst hplace
      refine ⟨fun ho => ?_, fun _ => hpreserves.contains haccount⟩
      have hnew := get?_added_deployment s ns (Manifest.deployment w)
      rw [createIn_objects_of_not_contains hthere] at ho
      obtain rfl := Option.some.inj (hnew.symm.trans ho)
      exact ⟨_, rfl, rfl⟩
    · refine (h key hkey).mono ?_ hpreserves.contains
      rw [createIn_objects_of_not_contains hthere]
      exact get?_added_of_ne s _ _ (fun heq => hplace (congrArg Place.key heq)) nofun

/-- The service account of a deployment is created first. -/
theorem Staffed.createAll_take (h : s.Staffed keys) (item : Item) (k : Nat) :
    (s.createAll ns (item.objects.take k)).Staffed keys := by
  match item, k with
  | _, 0 => exact h
  | .deployment w, 1 => exact h.createIn (nofun) nofun
  | .deployment w, k + 2 =>
    rw [List.take_of_length_le (Nat.le_add_left 2 k)]
    have hfirst : (s.createIn ns (Manifest.serviceAccount w.name)).Staffed keys :=
      h.createIn nofun nofun
    exact hfirst.createIn_deployment (contains_createIn ns s _)
  | .space name, k + 1 | .dnsConfigMap, k + 1 | .service d, k + 1 | .daemonSet w, k + 1 =>
    rw [List.take_of_length_le (Nat.le_add_left 1 k)]
    exact h.createIn nofun nofun
  | .ingress, k + 1 =>
    rw [List.take_of_length_le (Nat.le_add_left 1 k)]
    exact h.createIn nofun fun _ => rfl

theorem Staffed.ensure (h : s.Staffed keys) (item : Item) : (s.ensure ns item).Staffed keys := by
  unfold Store.ensure
  split
  · exact h
  · rw [← List.take_length (l := item.objects)]
    exact h.createAll_take item _

theorem StaffedAt.of_objects_eq (h : s.StaffedAt key) (hsame : s'.objects = s.objects) :
    s'.StaffedAt key := by
  refine h.mono ?_ fun haccount => ?_ <;> rw [hsame]
  exact haccount

/-- With the namespace go the deployment and its service account. -/
theorem StaffedAt.withoutSpace (h : s.StaffedAt key) (ns : String) :
    (s.withoutSpace ns).StaffedAt key := by
  by_cases hspace : key.space = ns
  · exact .of_vacant (Dict.get?_filter_of_dropped _ fun _ => by simp [hspace])
  · have hkept (kind : Kind) (hkind : kind ≠ .space) :
        (s.withoutSpace ns).objects.get? ⟨kind, key⟩ = s.objects.get? ⟨kind, key⟩ :=
      Dict.get?_filter_of_kept _ fun _ => by simp [hkind, hspace]
    refine h.mono (hkept .deployment (by decide)) fun haccount => ?_
    rwa [Dict.contains, hkept .serviceAccount (by decide)]

/-- A service account must only be deleted when the deployment is gone. -/
theorem StaffedAt.delete (h : s.StaffedAt key) {kind : Kind} {key' : ObjectKey}
    (haccount : kind = .serviceAccount → s.objects.get? ⟨.deployment, key'⟩ = none) :
    (s.delete kind key').1.StaffedAt key := by
  by_cases hspace : kind = .space
  · subst hspace
    rcases s.objects_deleteSpace key'.name with hobjects | hobjects
    · exact h.of_objects_eq hobjects
    · exact (h.withoutSpace key'.name).of_objects_eq hobjects
  · by_cases hdeployment : (⟨.deployment, key⟩ : Place) = ⟨kind, key'⟩
    · exact .of_vacant (hdeployment ▸ s.get?_delete hspace key')
    · have hsame := s.get?_delete_of_ne hspace hdeployment
      by_cases hdeleted : (⟨.serviceAccount, key⟩ : Place) = ⟨kind, key'⟩
      · obtain ⟨rfl, rfl⟩ := Place.mk.inj hdeleted
        exact .of_vacant (hsame.trans (haccount rfl))
      · refine h.mono hsame fun hthere => ?_
        rwa [Dict.contains, s.get?_delete_of_ne hspace hdeleted]

/-- An item that has been made sure of is there with all its objects, if it goes with its service
account. -/
theorem Settled.contains_object {item : Item} (h : s.Settled ns item)
    (hstaffed : item.kind = .deployment → s.StaffedAt ⟨ns, item.name⟩) (ho : o ∈ item.objects) :
    s.objects.contains (place ns o) = true := by
  have hitem := h.contains
  obtain ⟨hname, hkind | ⟨hkind, hdeployment⟩⟩ := Item.of_mem_objects ho
  · rwa [place, hname, hkind]
  · rw [hdeployment] at hitem
    rw [place, hname, hkind]
    exact (hstaffed hdeployment).account hitem

end Store

/-- On each machine, all deployments at these keys have their service accounts. -/
def StaffedOn (keys : Nat → ObjectKey → Prop) (machines : List Machine) : Prop :=
  ∀ (id : Nat) (m : Machine), machines[id]? = some m → m.store.Staffed (keys id)

section Machines

variable {keys : Nat → ObjectKey → Prop} {clients : Clients} {ns : String}
  {steps : List (Side × Item)} {machines machines' : List Machine}

theorem StaffedOn.updateStore (h : StaffedOn keys machines) {id : Nat} {f : Store → Store}
    (hf : ∀ m, machines[id]? = some m → m.store.Staffed (keys id) →
      (f m.store).Staffed (keys id)) : StaffedOn keys (updateStore machines id f) := by
  intro j m hm
  rw [getElem?_updateStore] at hm
  obtain ⟨m₀, hm₀, rfl⟩ := Option.map_eq_some_iff.1 hm
  split
  next hj =>
    subst hj
    exact hf m₀ hm₀ (h id m₀ hm₀)
  next => exact h j m₀ hm₀

/-- However far a plan gets, every deployment has its service account, if that was so before. -/
theorem Partway.staffed (h : Partway clients ns steps machines machines')
    (hstaffed : StaffedOn keys machines) : StaffedOn keys machines' := by
  induction h with
  | stop => exact hstaffed
  | creating k hmissing => exact hstaffed.updateStore fun _ _ hs => hs.createAll_take _ k
  | next _ ih => exact ih (hstaffed.updateStore fun _ _ hs => hs.ensure _)

end Machines

end Reachability.Simulation
