import Reachability.Proofs.Dict
import Reachability.Proofs.Simulation.Machines

namespace Reachability.Simulation

open Manifest (Kind Object)
open Reachability.Topology (Item Side)

variable {ns owner cluster : String} {template : Manifest.PodTemplate}

def podName (owner : String) (number : Nat) : String := owner ++ "-" ++ Store.paddedHex 5 number

/-- The address of a pod: that of its node if it is on the node's network. -/
def podAddress (template : Manifest.PodTemplate) (number : Nat) (node : Node) : String :=
  if template.spec.hostNetwork then node.hostIP
  else "10.0." ++ toString (number / 250) ++ "." ++ toString (number % 250 + 2)

/-- The pod of this number. -/
def madePod (ns owner : String) (template : Manifest.PodTemplate) (number : Nat) (node : Node) :
    Manifest.Pod :=
  { metadata :=
      { name := some (podName owner number)
        space := some ns
        labels := template.metadata.labels }
    nodeName := some node.name
    hostNetwork := if template.spec.hostNetwork then some true else none
    hostIP := some node.hostIP
    podIP := some (podAddress template number node)
    podIPs := [some (podAddress template number node)] }

/-- One pod on each of the nodes, with numbers from `count + 1` on. -/
def madePods (ns owner : String) (template : Manifest.PodTemplate) :
    Nat → List Node → List (ObjectKey × Manifest.Pod)
  | _, [] => []
  | count, node :: nodes =>
    (⟨ns, podName owner (count + 1)⟩, madePod ns owner template (count + 1) node) ::
      madePods ns owner template (count + 1) nodes

theorem length_madePods (ns owner : String) (template : Manifest.PodTemplate) (count : Nat)
    (nodes : List Node) : (madePods ns owner template count nodes).length = nodes.length := by
  induction nodes generalizing count with
  | nil => rfl
  | cons node nodes ih => simp [madePods, ih]

namespace Store

theorem foldl_spawn (ns owner : String) (template : Manifest.PodTemplate) (nodes : List Node)
    (s : Store) : nodes.foldl (fun s node => s.spawn ns owner template node) s =
      { s with
        podCount := s.podCount + nodes.length
        pods := s.pods.insertAll (madePods ns owner template s.podCount nodes) } := by
  induction nodes generalizing s with
  | nil => rfl
  | cons node nodes ih =>
    rw [List.foldl_cons, ih]
    simp only [spawn, List.length_cons, Nat.add_assoc, Nat.add_comm 1]
    rfl

/-- All replicas go to one node. -/
theorem foldl_spawn_replicas (ns owner : String) (template : Manifest.PodTemplate) (n : Nat)
    (s : Store) :
    (List.replicate n ()).foldl (fun s _ => s.spawn ns owner template (s.nodeFor template)) s =
      (List.replicate n (s.nodeFor template)).foldl
        (fun s node => s.spawn ns owner template node) s := by
  induction n generalizing s with
  | zero => rfl
  | succ n ih =>
    rw [List.replicate_succ, List.replicate_succ, List.foldl_cons, List.foldl_cons, ih]
    rfl

end Store

theorem Store.createIn_of_not_contains {s : Store} {o : Object}
    (h : s.objects.contains (place ns o) = false) :
    s.createIn ns o = { s.added ns o with creates := s.creates + 1 } := by
  have hspace : s.added (o.kind.keyIn ns o.name).space o = s.added ns o := by
    cases o <;> rfl
  rw [← newPlace_keyIn] at h
  unfold createIn create
  rw [← hspace]
  exact congrArg Prod.fst (if_neg (Bool.eq_false_iff.1 h))

/-- A service as it is stored under this number. -/
def allocated (ns : String) (number : Nat) (service : Manifest.Service) : Manifest.Service :=
  (Store.allocate ns service { name := "", serviceCount := number }).1

/-- The nodes of a cluster of this name for the pods that an object needs. -/
def crew (cluster : String) : Object → List Node
  | .deployment d =>
    .replicate (d.replicas.getD 1).toInt.toNat (Store.nodeFor { name := cluster } d.template)
  | .daemonSet _ => Store.nodes { name := cluster }
  | _ => []

/-- How the pods that an object needs are made. -/
def podTemplateOf : Object → Manifest.PodTemplate
  | .deployment d => d.template
  | .daemonSet d => d.template
  | _ => {}

/-- What is stored for a new object, if there have been so many services before. -/
def stored (ns : String) (services : Nat) (o : Object) : List (Place × Object) :=
  match o with
  | .deployment d => [(place ns o, .deployment (Store.settled ns d))]
  | .service s => [(place ns o, .service (allocated ns services s))]
  | .ingress _ =>
    [(place ns o, o),
      (⟨.service, ⟨ns, Topology.ingressServiceName o.name⟩⟩,
        .service (allocated ns services (Store.balancerService o.name)))]
  | _ => [(place ns o, o)]

/-- Where something is stored for a new object. -/
def places (ns : String) (o : Object) : List Place :=
  place ns o ::
    match o with
    | .ingress _ => [⟨.service, ⟨ns, Topology.ingressServiceName o.name⟩⟩]
    | _ => []

/-- How many services are stored for a new object. -/
def servicesIn (o : Object) : Nat :=
  match o with
  | .service _ | .ingress _ => 1
  | _ => 0

theorem countP_stored (ns : String) (services : Nat) (o : Object) :
    (stored ns services o).countP (fun e => e.1.kind = .service) = servicesIn o := by
  cases o <;> rfl

/-- A new object is stored with all that follows from it. -/
theorem Store.added_eq (s : Store) (ns : String) (o : Object) : s.added ns o =
    { s with
      objects := s.objects.insertAll (stored ns s.serviceCount o)
      serviceCount := s.serviceCount + servicesIn o
      pods := s.pods.insertAll (madePods ns o.name (podTemplateOf o) s.podCount (crew s.name o))
      podCount := s.podCount + (crew s.name o).length } := by
  cases o with
  | deployment d =>
    refine (foldl_spawn_replicas ns _ d.template _ _).trans ?_
    refine (foldl_spawn ns _ d.template _ _).trans ?_
    rfl
  | daemonSet d => exact (foldl_spawn ns _ d.template _ _).trans rfl
  | _ => rfl

theorem stored_places (ns : String) (services : Nat) (o : Object) :
    (stored ns services o).map Prod.fst = places ns o := by
  cases o <;> rfl

/-- Among the places of an item's objects is that of the item. -/
theorem exists_place (ns : String) (item : Item) :
    ∃ o ∈ item.objects, place ns o = ⟨item.kind, item.kind.keyIn ns item.name⟩ := by
  cases item with
  | deployment w => exact ⟨_, List.mem_cons_of_mem _ List.mem_cons_self, rfl⟩
  | _ => exact ⟨_, List.mem_cons_self, rfl⟩

/-- The objects that a run has put on a cluster, as they are stored, and the pods made for them, in
the order in which that happened. -/
structure Holdings where
  objects : List (Place × Object) := []
  pods : List (ObjectKey × Manifest.Pod) := []

namespace Holdings

/-- So many services have been given addresses. -/
def services (h : Holdings) : Nat := h.objects.countP fun e => e.1.kind = .service

/-- One more object in a namespace on a cluster of this name. -/
def add (cluster ns : String) (h : Holdings) (o : Object) : Holdings where
  objects := h.objects ++ stored ns h.services o
  pods := h.pods ++ madePods ns o.name (podTemplateOf o) h.pods.length (crew cluster o)

def addAll (cluster ns : String) (h : Holdings) (objects : List Object) : Holdings :=
  objects.foldl (add cluster ns) h

theorem addAll_append (cluster ns : String) (h : Holdings) (objects objects' : List Object) :
    h.addAll cluster ns (objects ++ objects') =
      (h.addAll cluster ns objects).addAll cluster ns objects' :=
  List.foldl_append

theorem places_addAll (cluster ns : String) (h : Holdings) (objects : List Object) :
    (h.addAll cluster ns objects).objects.map Prod.fst =
      h.objects.map Prod.fst ++ objects.flatMap (places ns) := by
  induction objects generalizing h with
  | nil => simp [addAll]
  | cons o objects ih =>
    refine (ih _).trans ?_
    simp [add, stored_places]

end Holdings

/-- What comes of some items on a fresh cluster. -/
def holdings (cluster ns : String) (items : List Item) : Holdings :=
  .addAll cluster ns {} (items.flatMap (·.objects))

/-- A cluster of this name that was fresh before the run put something on it. -/
structure Store.Holds (cluster : String) (h : Holdings) (s : Store) : Prop where
  name : s.name = cluster
  objects : s.objects = .ofList h.objects
  pods : s.pods = (Store.fresh cluster).pods.insertAll h.pods
  podCount : s.podCount = h.pods.length
  serviceCount : s.serviceCount = h.services
  rejections : s.rejections = 0
  omitted : s.omitted = []
  externalWorkloads : s.externalWorkloads = none
  allowed : s.forbidsExternalWorkloads = false

namespace Store.Holds

variable {h : Holdings} {s : Store} {o : Object} {objects : List Object} {item : Item}

theorem fresh (cluster : String) : (Store.fresh cluster).Holds cluster {} :=
  ⟨rfl, rfl, rfl, rfl, rfl, rfl, rfl, rfl, rfl⟩

theorem added (hs : s.Holds cluster h) (ns : String) (o : Object) :
    (s.added ns o).Holds cluster (h.add cluster ns o) := by
  obtain ⟨rfl, hobjects, hpods, hpodCount, hserviceCount, hrejections, homitted, hworkloads,
    hallowed⟩ := hs
  rw [added_eq]
  refine ⟨rfl, ?_, ?_, ?_, ?_, hrejections, homitted, hworkloads, hallowed⟩
  · simp only [hobjects, hserviceCount]
    exact (Dict.insertAll_append _ _ _).symm
  · simp only [hpods, hpodCount]
    exact (Dict.insertAll_append _ _ _).symm
  · simp [Holdings.add, hpodCount, length_madePods]
  · simp [Holdings.add, Holdings.services, hserviceCount, countP_stored]

theorem contains_eq_false (hs : s.Holds cluster h) {p : Place}
    (hp : p ∉ h.objects.map Prod.fst) : s.objects.contains p = false := by
  rw [hs.objects, Dict.contains, Dict.get?_ofList_of_not_mem hp]
  rfl

/-- A new object in a place of its own is stored. -/
theorem createIn (hs : s.Holds cluster h) (hnew : place ns o ∉ h.objects.map Prod.fst) :
    (s.createIn ns o).Holds cluster (h.add cluster ns o) := by
  have hmissing := hs.contains_eq_false hnew
  have hadded := hs.added ns o
  rw [createIn_of_not_contains hmissing]
  exact ⟨hadded.name, hadded.objects, hadded.pods, hadded.podCount, hadded.serviceCount,
    hadded.rejections, hadded.omitted, hadded.externalWorkloads, hadded.allowed⟩

theorem createAll (hs : s.Holds cluster h)
    (hnodup : (h.objects.map Prod.fst ++ objects.flatMap (places ns)).Nodup) :
    (s.createAll ns objects).Holds cluster (h.addAll cluster ns objects) := by
  induction objects generalizing s h with
  | nil => exact hs
  | cons o objects ih =>
    have hnew : place ns o ∉ h.objects.map Prod.fst := by
      intro hmem
      have hdisjoint := (List.nodup_append.1 hnodup).2.2
      exact hdisjoint _ hmem _ (by simp [places]) rfl
    refine ih (hs.createIn hnew) ?_
    simpa [Holdings.add, stored_places] using hnodup

/-- An item whose objects stand in places of their own is made. -/
theorem ensure (hs : s.Holds cluster h)
    (hnodup : (h.objects.map Prod.fst ++ item.objects.flatMap (places ns)).Nodup) :
    (s.ensure ns item).Holds cluster (h.addAll cluster ns item.objects) := by
  obtain ⟨o, ho, hplace⟩ := exists_place ns item
  have hitem : place ns o ∈ item.objects.flatMap (places ns) :=
    List.mem_flatMap.2 ⟨o, ho, List.mem_cons_self⟩
  have hmissing : (s.get item.kind (item.kind.keyIn ns item.name)).isOk = false := by
    rw [Bool.eq_false_iff]
    intro hfound
    have hcontains := hs.contains_eq_false fun hmem =>
      (List.nodup_append.1 hnodup).2.2 _ hmem _ hitem rfl
    rw [hplace, contains_of_isOk_get hfound] at hcontains
    cases hcontains
  rw [Store.ensure, hmissing]
  exact hs.createAll hnodup

end Store.Holds

/-- The items that the steps of a plan bring to the cluster of this number. -/
def itemsAt (clients : Clients) (id : Nat) (steps : List (Side × Item)) : List Item :=
  (steps.filter fun step => (clients.get step.1).id = id).map (·.2)

/-- A cluster of this name holds these things. -/
def HeldAt (cluster : String) (h : Holdings) (id : Nat) (machines : List Machine) : Prop :=
  ∃ machine, machines[id]? = some machine ∧ machine.store.Holds cluster h

theorem HeldAt.updateStore {h h' : Holdings} {id : Nat} {machines : List Machine}
    (hm : HeldAt cluster h id machines) {f : Store → Store}
    (hf : ∀ s : Store, s.Holds cluster h → (f s).Holds cluster h') :
    HeldAt cluster h' id (updateStore machines id f) := by
  obtain ⟨machine, hmachine, hs⟩ := hm
  refine ⟨{ machine with store := f machine.store }, ?_, hf _ hs⟩
  simp [getElem?_updateStore, hmachine]

theorem HeldAt.updateStore_of_ne {h : Holdings} {id id' : Nat} {machines : List Machine}
    (hm : HeldAt cluster h id machines) (hne : id' ≠ id) (f : Store → Store) :
    HeldAt cluster h id (Simulation.updateStore machines id' f) := by
  obtain ⟨machine, hmachine, hs⟩ := hm
  refine ⟨machine, ?_, hs⟩
  simp [getElem?_updateStore, hmachine, hne]

theorem ensureAll_addAll {clients : Clients} {id : Nat} {h : Holdings}
    {steps : List (Side × Item)} {machines : List Machine} (hm : HeldAt cluster h id machines)
    (hnodup : (h.objects.map Prod.fst ++
      ((itemsAt clients id steps).flatMap (·.objects)).flatMap (places ns)).Nodup) :
    HeldAt cluster (h.addAll cluster ns ((itemsAt clients id steps).flatMap (·.objects))) id
      (ensureAll clients ns steps machines) := by
  induction steps generalizing h machines with
  | nil => exact hm
  | cons step steps ih =>
    by_cases hid : (clients.get step.1).id = id
    · subst hid
      have hitems : itemsAt clients (clients.get step.1).id (step :: steps) =
          step.2 :: itemsAt clients (clients.get step.1).id steps := by simp [itemsAt]
      rw [hitems, List.flatMap_cons, List.flatMap_append, ← List.append_assoc] at hnodup
      rw [hitems, List.flatMap_cons, Holdings.addAll_append]
      have hstep : HeldAt cluster (h.addAll cluster ns step.2.objects) (clients.get step.1).id
          (ensureOn clients ns step machines) :=
        hm.updateStore fun s hs => hs.ensure (List.nodup_append.1 hnodup).1
      exact ih hstep (by rwa [Holdings.places_addAll])
    · have hitems : itemsAt clients id (step :: steps) = itemsAt clients id steps := by
        simp [itemsAt, hid]
      rw [hitems] at hnodup ⊢
      exact ih (hm.updateStore_of_ne hid _) hnodup

/-- A plan whose objects stand in places of their own on a fresh cluster leaves them there, and the
pods for them, and nothing else that the run has made. -/
theorem ensureAll_holds {clients : Clients} {id : Nat} {steps : List (Side × Item)}
    {machines : List Machine} (hm : HeldAt cluster {} id machines)
    (hnodup : (((itemsAt clients id steps).flatMap (·.objects)).flatMap (places ns)).Nodup) :
    HeldAt cluster (holdings cluster ns (itemsAt clients id steps)) id
      (ensureAll clients ns steps machines) :=
  ensureAll_addAll hm hnodup

end Reachability.Simulation
