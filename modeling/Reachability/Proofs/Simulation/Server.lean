import Mathlib.Logic.Function.Basic
import Reachability.Proofs.Provision.Ascent
import Reachability.Proofs.Simulation.Creation
import Reachability.Simulation.World

namespace Reachability.Simulation

open Manifest (Kind Object)
open Reachability.Topology (Item)
open Wait (Server)

/-- A cluster in memory for every number. -/
abbrev storeServer : Server clusterApi where
  State := Nat → Store
  answer stores c :=
    let next := (stores c.cluster.id).answer (shownPod c.request) c.request
    (Function.update stores c.cluster.id next.1, next.2)

/-- Something of this kind and name is stored in the namespace, or is stored for all namespaces. -/
def StoredIn (ns : String) (stores : Nat → Store) (cluster : Cluster) (kind : Kind)
    (name : String) : Prop :=
  (stores cluster.id).objects.contains ⟨kind, kind.keyIn ns name⟩ = true

variable {ns : String}

/-- All nodes of a cluster in memory are in one zone. -/
theorem storeServer_listsZone (cluster : Cluster) : ListsZone storeServer cluster "zone-a" :=
  fun _ => ⟨_, Prod.ext (Function.update_eq_self ..) rfl, rfl⟩

/-- A look-up is about one cluster, and changes nothing. -/
theorem storeServer_lookup (stores : Nat → Store) (cluster : Cluster) (item : Item) :
    storeServer.answer stores ⟨cluster, item.lookup ns⟩ =
      (stores, (stores cluster.id).get item.kind (item.kind.keyIn ns item.name)) :=
  Prod.ext (Function.update_eq_self ..) rfl

/-- What is stored anywhere is kept by what is done on one cluster. -/
theorem preserves_update {stores : Nat → Store} {id : Nat} {s : Store}
    (h : (stores id).Preserves ns s) (j : Nat) :
    (stores j).Preserves ns (Function.update stores id s j) := by
  by_cases hj : j = id
  · subst hj
    rw [Function.update_self]
    exact h
  · rw [Function.update_of_ne hj]
    exact .refl ns _

theorem preserves_createIn (s : Store) {o : Object} (ho : o.IsPlanned) :
    s.Preserves ns (s.createIn ns o) := by
  obtain ⟨item, ho⟩ := ho
  exact .createIn (Store.ingress_name_of_mem_objects ho)

theorem create_there {s : Store} {o : Object} (h : s.objects.contains (place ns o) = true) :
    ∃ f, (s.create (o.kind.keyIn ns o.name).space o).2 = .error f ∧ f.isAlreadyExists = true := by
  rw [← Store.newPlace_keyIn] at h
  exact ⟨_, congrArg Prod.snd (if_pos h), rfl⟩

theorem create_new {s : Store} {o : Object} (h : ¬ s.objects.contains (place ns o) = true) :
    (s.create (o.kind.keyIn ns o.name).space o).2 = .ok () := by
  rw [← Store.newPlace_keyIn] at h
  exact congrArg Prod.snd (if_neg h)

/-- Clusters in memory store objects under their kinds and names, whatever they store. -/
theorem storeServer_keyed (ns : String) : Keyed storeServer ns (StoredIn ns) where
  lookup_state stores cluster item := congrArg Prod.fst (storeServer_lookup stores cluster item)
  lookup_error herror := Store.isNotFound_of_get herror
  creation_there {stores cluster o} ho hthere := by
    have hsame : (stores cluster.id).createIn ns o = stores cluster.id :=
      Store.createIn_of_contains hthere
    refine ⟨?_, create_there hthere⟩
    have hstores : Function.update stores cluster.id ((stores cluster.id).createIn ns o) =
        stores := by
      rw [hsame, Function.update_eq_self]
    exact hstores
  creation_new {stores cluster o} ho hnew := by
    refine ⟨create_new hnew, ?_⟩
    have hmade : (Function.update stores cluster.id ((stores cluster.id).createIn ns o)
        cluster.id).objects.contains (place ns o) = true := by
      rw [Function.update_self]
      exact Store.contains_createIn ns (stores cluster.id) o
    exact hmade
  there_creation {stores cluster cluster' kind name o} ho hthere :=
    (preserves_update (preserves_createIn (stores cluster.id) ho) cluster'.id).contains hthere
  finds_creation {stores cluster cluster' item o} ho hfinds :=
    (preserves_update (preserves_createIn (stores cluster.id) ho) cluster'.id).isOk_get hfinds
  finds_account {stores cluster w} hfinds := by
    have hfound : ((Function.update stores cluster.id ((stores cluster.id).createIn ns
        (Manifest.serviceAccount w.name)) cluster.id).get .deployment
          (Kind.deployment.keyIn ns w.name)).isOk = true := hfinds
    rw [Function.update_self, Store.isOk_get_createIn_serviceAccount] at hfound
    exact hfound

end Reachability.Simulation
