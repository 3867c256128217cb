import Reachability.Cluster.Checks
import Reachability.Proofs.Cluster.Account

namespace Reachability

open Wait (Interrupted Probe Procedure)

variable {α β γ : Type} {seen : Exchange → Prop}

/-- A judged call has been answered with something that the judgement is about. -/
theorem admits_call {cluster : Cluster} {r : Request}
    {judge : Except Failure r.Answer → Option (Except Failure β)} {exchanges : List Exchange}
    {b : Except Failure β}
    (h : ((probe cluster r).judged judge).Admits exchanges b) :
    ∃ answer, exchanges = [⟨⟨cluster, r⟩, answer⟩] ∧ judge answer = some b := by
  obtain ⟨answer, rest, rfl, hrest⟩ := h
  change (Probe.ofJudgement (judge answer)).Admits rest b at hrest
  cases hjudge : judge answer with
  | none =>
    rw [hjudge] at hrest
    exact hrest.elim
  | some r =>
    rw [hjudge] at hrest
    obtain ⟨rfl, rfl⟩ := hrest
    exact ⟨answer, rfl, hjudge⟩

namespace Check

/-- If all that it exchanges is seen and the check succeeds, then `post` holds of its result. What
is seen can be all that is exchanged in a run of which the check is a part. -/
structure Shows (seen : Exchange → Prop) (c : Check α) (post : α → Prop) : Prop where
  holds {exchanges a} (h : c.run.Admits exchanges (.ok a)) (hseen : ∀ x ∈ exchanges, seen x) :
    post a

namespace Shows

theorem pure {a : α} {post : α → Prop} (h : post a) : Shows seen (Pure.pure a) post := by
  refine ⟨?_⟩
  rintro exchanges a' ⟨-, ha⟩ -
  obtain rfl := Except.ok.inj ha
  exact h

theorem throw (f : Failure) (post : α → Prop) : Shows seen (MonadExcept.throw f) post := by
  refine ⟨?_⟩
  rintro exchanges a' ⟨-, ha⟩ -
  cases ha

theorem mono {c : Check α} {post post' : α → Prop} (hc : c.Shows seen post)
    (hpost : ∀ a, post a → post' a) : c.Shows seen post' :=
  ⟨fun h hseen => hpost _ (hc.holds h hseen)⟩

theorem bind {c : Check α} {f : α → Check β} {post : α → Prop} {post' : β → Prop}
    (hc : c.Shows seen post) (hf : ∀ a, post a → (f a).Shows seen post') :
    Shows seen (c >>= f) post' := by
  refine ⟨fun {exchanges b} h hseen => ?_⟩
  obtain ⟨before, after, e | a, rfl, ha, hb⟩ :=
    Procedure.Admits.of_bind (p := c.run) (b := Except.ok b) h
  · obtain ⟨-, hb⟩ := hb
    cases hb
  · have hpost := hc.holds ha fun x hx => hseen x (List.mem_append_left _ hx)
    exact (hf a hpost).holds hb fun x hx => hseen x (List.mem_append_right _ hx)

theorem within {c : Check α} {post : α → Prop} (hc : c.Shows seen post) (timeout : Nat) :
    (Check.within timeout c).Shows seen post := by
  refine ⟨?_⟩
  rintro exchanges a ⟨inner, _, b, rfl, hb, rfl, rfl⟩ hseen
  exact hc.holds hb fun x hx => hseen x (List.mem_append_left _ hx)

theorem request (what : String) (cluster : Cluster) (r : Request) :
    (Check.request what cluster r).Shows seen fun answer => seen ⟨⟨cluster, r⟩, .ok answer⟩ := by
  refine ⟨?_⟩
  rintro exchanges a ⟨tried, _, answer, rfl, htried, rfl, rfl⟩ hseen
  rcases htried with ⟨_, _, rfl, rfl, rfl⟩ | ⟨_, i, what, last, h⟩
  · exact hseen _ List.mem_cons_self
  · cases h

/-- A judged call is asked for until the judgement on the answer is good. -/
theorem poll (pacing : Nat) (what : String) (cluster : Cluster) (r : Request)
    (judge : Except Failure r.Answer → Option (Except Failure β)) :
    (Check.poll pacing what ((probe cluster r).judged judge)).Shows seen fun b =>
      ∃ answer, seen ⟨⟨cluster, r⟩, answer⟩ ∧ judge answer = some (.ok b) := by
  refine ⟨?_⟩
  rintro exchanges b ⟨tried, _, r', rfl, hretries, rfl, rfl⟩ hseen
  obtain ⟨failed, last, rfl, hlast⟩ := hretries.of_ok
  obtain ⟨answer, rfl, hb⟩ := admits_call hlast
  exact ⟨answer, hseen _ (by simp), hb⟩

/-- A call is asked for until it succeeds. -/
theorem poll_call (pacing : Nat) (what : String) (cluster : Cluster) (r : Request) :
    (Check.poll pacing what (probe cluster r)).Shows seen fun answer =>
      seen ⟨⟨cluster, r⟩, .ok answer⟩ := by
  refine mono (poll pacing what cluster r some) ?_
  rintro a ⟨answer, hanswer, hjudged⟩
  obtain rfl := Option.some.inj hjudged
  exact hanswer

theorem choose? (l : List α) :
    (Check.choose? l).Shows seen fun chosen => ∀ a, chosen = some a → a ∈ l := by
  cases l with
  | nil => exact pure nofun
  | cons a rest =>
    refine ⟨?_⟩
    rintro exchanges chosen ⟨i, rfl, hchosen⟩ - a' rfl
    cases hchosen
    exact List.getElem_mem _

/-- Checks of all elements of a list show something about each. -/
theorem forM {f : γ → Check Unit} {post : γ → Prop} {l : List γ}
    (hf : ∀ a ∈ l, (f a).Shows seen fun _ => post a) :
    (l.forM f).Shows seen fun _ => ∀ a ∈ l, post a := by
  induction l with
  | nil => exact pure nofun
  | cons a l ih =>
    refine .bind (hf a List.mem_cons_self) fun _ ha => ?_
    refine (ih fun b hb => hf b (List.mem_cons_of_mem a hb)).mono fun _ hl => ?_
    exact List.forall_mem_cons.2 ⟨ha, hl⟩

end Shows

end Check

/-- A deployment has been seen ready. -/
def DeploymentReady (seen : Exchange → Prop) (cluster : Cluster) (key : ObjectKey) : Prop :=
  ∃ d : Manifest.Deployment, seen ⟨⟨cluster, .get .deployment key⟩, .ok d⟩ ∧
    d.readiness = some (.ok ())

/-- The endpoint of a pod has been seen, in this namespace. -/
def EndpointThere (seen : Exchange → Prop) (ns : String) (pod : Pod) : Prop :=
  seen ⟨⟨pod.cluster, .getEndpoint ⟨ns, pod.name⟩⟩, .ok ()⟩

/-- A command in a container of a pod has been seen to succeed with some output. -/
def Commanded (seen : Exchange → Prop) (pod : Pod) (container : String) (words : List String)
    (output : String) : Prop :=
  seen ⟨⟨pod.cluster, .exec pod.key container words⟩, .ok output⟩

/-- A pod has been seen to resolve `localhost` at the name server beside another pod. -/
def NamesResolvedAt (seen : Exchange → Prop) (source target : Pod) : Prop :=
  ∃ output, Commanded seen source "" ["nslookup", "localhost", target.ips.head?.getD ""] output

/-- A pod has been seen to resolve the name of the API server. -/
def ClusterNamesResolved (seen : Exchange → Prop) (pod : Pod) : Prop :=
  ∃ output, Commanded seen pod "" ["nslookup", "kubernetes.default"] output

/-- A pod has been seen to resolve a service to its address. -/
def ServiceResolvedFrom (seen : Exchange → Prop) (s : Manifest.Service) (pod : Pod) : Prop :=
  ∃ output, Commanded seen pod pod.workloadContainer ["nslookup", s.metadata.title] output ∧
    verifyLookup s output = .ok ()

/-- A pod has been seen to reach a port of a node. -/
def PortReachedFrom (seen : Exchange → Prop) (nodeIP : String) (port : Int) (pod : Pod) : Prop :=
  ∃ output, Commanded seen pod pod.workloadContainer
    ["nc", "-w", "3", "-z", nodeIP, toString port] output

/-- An agent has been seen to know every tracked pod, all in one dump of its identity cache. -/
def IdentitiesKnown (seen : Exchange → Prop) (i : Inventory) (agent : Pod) (container : String) :
    Prop :=
  ∃ dump cache, Commanded seen agent container Check.cacheCommand dump ∧
    IdentityCache.parse dump = some cache ∧ cache.covers i = .ok ()

namespace Check

/-- A judgement that was reached on what an attempt answered. -/
theorem ok_of_judged {answer : Except Failure α} {verdict : α → Except β Unit} {cause : β → Failure}
    (h : (do (verdict (← answer)).mapError cause) = (.ok () : Except Failure Unit)) :
    ∃ a, answer = .ok a ∧ verdict a = .ok () := by
  obtain e | a := answer
  · cases h
  · refine ⟨a, rfl, ?_⟩
    change (verdict a).mapError cause = .ok () at h
    cases hv : verdict a with
    | error why =>
      rw [hv] at h
      cases h
    | ok u => rfl

theorem ready_of_judged {answer : Except Failure Manifest.Deployment}
    (h : judgeDeployment answer = some (.ok ())) :
    ∃ d, answer = .ok d ∧ d.readiness = some (.ok ()) := by
  obtain f | d := answer
  · cases h
  · obtain ⟨judgement, hready, hok⟩ := Option.map_eq_some_iff.1 h
    cases judgement with
    | error why => cases hok
    | ok u => exact ⟨d, rfl, hready⟩

theorem deployments_shows (cluster : Cluster) (ns : String) (names : List String)
    (timeout : Nat) : (deployments cluster ns names timeout).Shows seen fun _ =>
      ∀ name ∈ names, DeploymentReady seen cluster ⟨ns, name⟩ := by
  refine .within (.forM fun name _ => ?_) timeout
  refine .mono (.poll _ _ cluster (.get .deployment ⟨ns, name⟩) _) ?_
  rintro _ ⟨answer, hseen, hjudged⟩
  obtain ⟨d, rfl, hready⟩ := ready_of_judged hjudged
  exact ⟨d, hseen, hready⟩

theorem endpoint_shows (cluster : Cluster) (pod : ObjectKey) (timeout : Nat) :
    (endpoint cluster pod timeout).Shows seen fun _ =>
      seen ⟨⟨cluster, .getEndpoint pod⟩, .ok ()⟩ :=
  .within (.poll_call _ _ cluster (.getEndpoint pod)) timeout

theorem command_shows (pacing : Nat) (what : String) (pod : Pod) (container : String)
    (words : List String) : Shows seen (do let _ ← poll pacing what (command pod container words))
      fun _ => ∃ output, Commanded seen pod container words output :=
  .bind (.poll_call _ _ pod.cluster (.exec pod.key container words)) fun output h =>
    .pure ⟨output, h⟩

theorem address_any (pod : Pod) : pod.address .any = pod.ips.head?.getD "" := by
  rw [Pod.address]
  cases pod.ips <;> rfl

theorem podNames_shows (source target : Pod) :
    (podNames source target).Shows seen fun _ => NamesResolvedAt seen source target := by
  rw [NamesResolvedAt, ← address_any]
  exact command_shows ..

theorem clusterNames_shows (pod : Pod) :
    (clusterNames pod).Shows seen fun _ => ClusterNamesResolved seen pod :=
  command_shows ..

theorem vantagePod_shows (i : Inventory) :
    (vantagePod i).Shows seen fun pod => pod ∈ i.clientPods.values := by
  refine .bind (.choose? _) fun chosen h => ?_
  cases chosen with
  | none => exact .throw ..
  | some pod => exact .pure (h pod rfl)

theorem service_shows (i : Inventory) (s : Manifest.Service) (timeout : Nat) :
    (service i s timeout).Shows seen fun _ =>
      ∃ pod ∈ i.clientPods.values, ServiceResolvedFrom seen s pod := by
  refine .bind (vantagePod_shows i) fun pod hpod => .within ?_ timeout
  refine .mono (.poll _ _ pod.cluster (.exec pod.key pod.workloadContainer _) _) ?_
  rintro _ ⟨answer, hseen, hjudged⟩
  obtain ⟨output, rfl, hverified⟩ := ok_of_judged (Option.some.inj hjudged)
  exact ⟨pod, hpod, output, hseen, hverified⟩

theorem nodePorts_shows (i : Inventory) (nodeIP : String) (s : Manifest.Service) (timeout : Nat) :
    (nodePorts i nodeIP s timeout).Shows seen fun _ =>
      ∀ port ∈ s.nodePorts, ∃ pod ∈ i.clientPods.values, PortReachedFrom seen nodeIP port pod := by
  refine .bind (vantagePod_shows i) fun pod hpod => .within (.forM fun port _ => ?_) timeout
  exact (command_shows ..).mono fun _ h => ⟨pod, hpod, h⟩

theorem identities_shows (agent : Pod) (container : String) (i : Inventory) :
    (identities agent container i).Shows seen fun _ =>
      IdentitiesKnown seen i agent container := by
  refine .mono (.poll _ _ agent.cluster (.exec agent.key container cacheCommand) _) ?_
  rintro _ ⟨answer, hseen, hjudged⟩
  obtain e | dump := answer
  · cases hjudged
  · replace hjudged : judgeCache i dump = .ok () := Option.some.inj hjudged
    unfold judgeCache at hjudged
    split at hjudged
    · cases hjudged
    next cache hcache =>
      refine ⟨dump, cache, hseen, hcache, ?_⟩
      cases hcovers : cache.covers i with
      | error why =>
        rw [hcovers] at hjudged
        cases hjudged
      | ok u => rfl

end Check

namespace Survey

/-- From an inventory, if all that it exchanges is seen and the survey succeeds, then `post` holds
of its result and the inventory that it leaves. -/
structure Shows (seen : Exchange → Prop) (s : Survey α) (i : Inventory)
    (post : α → Inventory → Prop) : Prop where
  holds {exchanges a i'} (h : (s.run.run i).Admits exchanges (.ok a, i'))
    (hseen : ∀ x ∈ exchanges, seen x) : post a i'

namespace Shows

variable {i : Inventory}

theorem pure {a : α} {post : α → Inventory → Prop} (h : post a i) :
    Shows seen (Pure.pure a) i post := by
  refine ⟨?_⟩
  rintro exchanges a' i' ⟨-, ha⟩ -
  cases ha
  exact h

theorem throw (f : Failure) (post : α → Inventory → Prop) :
    Shows seen (MonadExcept.throw f) i post := by
  refine ⟨?_⟩
  rintro exchanges a' i' ⟨-, ha⟩ -
  cases ha

theorem mono {s : Survey α} {post post' : α → Inventory → Prop} (hs : s.Shows seen i post)
    (hpost : ∀ a i', post a i' → post' a i') : s.Shows seen i post' :=
  ⟨fun h hseen => hpost _ _ (hs.holds h hseen)⟩

theorem bind {s : Survey α} {f : α → Survey β} {post : α → Inventory → Prop}
    {post' : β → Inventory → Prop} (hs : s.Shows seen i post)
    (hf : ∀ a i', post a i' → (f a).Shows seen i' post') : Shows seen (s >>= f) i post' := by
  refine ⟨fun {exchanges b i''} h hseen => ?_⟩
  obtain ⟨before, after, ⟨e | a, i'⟩, rfl, ha, hb⟩ :=
    Procedure.Admits.of_bind (p := s.run.run i) (b := (Except.ok b, i'')) h
  · obtain ⟨-, hb⟩ := hb
    cases hb
  · have hpost := hs.holds ha fun x hx => hseen x (List.mem_append_left _ hx)
    exact (hf a i' hpost).holds hb fun x hx => hseen x (List.mem_append_right _ hx)

theorem check {c : Check α} {post : α → Prop} (hc : c.Shows seen post) :
    (Survey.check c).Shows seen i fun a i' => post a ∧ i' = i := by
  refine ⟨fun {exchanges a i'} h hseen => ?_⟩
  obtain ⟨before, after, r, rfl, hr, rfl, ha⟩ :=
    Procedure.Admits.of_bind (p := c.run) (b := (Except.ok a, i')) h
  cases ha
  exact ⟨hc.holds hr fun x hx => hseen x (List.mem_append_left _ hx), rfl⟩

theorem inventory : Survey.inventory.Shows seen i fun i' i'' => i' = i ∧ i'' = i := by
  refine ⟨?_⟩
  rintro exchanges a i' ⟨-, ha⟩ -
  cases ha
  exact ⟨rfl, rfl⟩

theorem record (f : Inventory → Inventory) :
    (Survey.record f).Shows seen i fun _ i' => i' = f i := by
  refine ⟨?_⟩
  rintro exchanges a i' ⟨-, ha⟩ -
  cases ha
  rfl

theorem request (what : String) (cluster : Cluster) (r : Request) :
    (Survey.request what cluster r).Shows seen i fun answer i' =>
      seen ⟨⟨cluster, r⟩, .ok answer⟩ ∧ i' = i :=
  .check (.request what cluster r)

/-- An attempt never fails, and leaves the inventory alone. -/
theorem attempt (c : Check α) : (Survey.attempt c).Shows seen i fun _ i' => i' = i := by
  have hattempt : c.attempt.Shows seen fun _ => True := ⟨fun _ _ => trivial⟩
  exact (check hattempt).mono fun _ _ h => h.2

/-- What every survey of a list keeps. -/
theorem forM_keeps (keeps : Inventory → Prop) {f : γ → Survey Unit} {l : List γ}
    (hf : ∀ a ∈ l, ∀ i, keeps i → (f a).Shows seen i fun _ i' => keeps i') (hi : keeps i) :
    (l.forM f).Shows seen i fun _ i' => keeps i' := by
  induction l generalizing i with
  | nil => exact pure hi
  | cons a l ih =>
    refine .bind (hf a List.mem_cons_self i hi) fun _ i' hi' => ?_
    exact ih (fun b hb => hf b (List.mem_cons_of_mem a hb)) hi'

/-- Surveys of all elements of a list that leave the inventory alone show something about each. -/
theorem forM {f : γ → Survey Unit} {post : γ → Prop} {l : List γ}
    (hf : ∀ a ∈ l, (f a).Shows seen i fun _ i' => post a ∧ i' = i) :
    (l.forM f).Shows seen i fun _ i' => (∀ a ∈ l, post a) ∧ i' = i := by
  induction l with
  | nil => exact pure ⟨nofun, rfl⟩
  | cons a l ih =>
    refine .bind (hf a List.mem_cons_self) ?_
    rintro _ _ ⟨ha, rfl⟩
    refine (ih fun b hb => hf b (List.mem_cons_of_mem a hb)).mono ?_
    rintro _ _ ⟨hl, rfl⟩
    exact ⟨List.forall_mem_cons.2 ⟨ha, hl⟩, rfl⟩

end Shows

end Survey

end Reachability
