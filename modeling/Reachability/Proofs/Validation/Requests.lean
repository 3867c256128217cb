import Reachability.Proofs.Cluster.Requests
import Reachability.Validation

namespace Reachability

open Reachability.Topology (echoOtherNodeName nameSelector)

/-- A request that changes nothing. -/
def Request.Reads : Request → Prop
  | .create .. | .delete .. => False
  | _ => True

/-- A request of a validation, once the agents have been listed. -/
def Request.Inspects (settings : Settings) : Request → Prop
  | .listPods _ selector => selector = nameSelector echoOtherNodeName → settings.spansNodes = true
  | r => r.Reads

theorem Request.Queries.inspects {settings : Settings} {r : Request} (h : r.Queries) :
    r.Inspects settings := by
  cases r <;> trivial

theorem Request.Inspects.reads {settings : Settings} {r : Request} (h : r.Inspects settings) :
    r.Reads := by
  cases r <;> trivial

namespace Survey

variable {α : Type} {allowed : Call → Prop} (clients : Clients) (settings : Settings)
  (features : FeatureSet)

theorem listPods_asks {cluster : Cluster} {ns selector : String}
    (h : allowed ⟨cluster, .listPods ns selector⟩) (what : String) :
    (listPods what cluster ns selector).Asks allowed :=
  .bind (.request h what) fun _ => .pure _

theorem agentPods_asks : (agentPods clients settings).Asks fun c =>
    c.request = .listPods settings.agentNamespace settings.agentSelector :=
  .forM fun _ _ => .bind (listPods_asks (by rfl) _) fun _ => .record _

/-- What checks ask changes nothing. -/
theorem check_asks {c : Check α} (hc : c.Asks (·.request.Queries)) :
    (check c).Asks (·.request.Inspects settings) :=
  .check (hc.mono fun _ h => h.inspects)

theorem deployments_asks (cluster : Cluster) (names : List String) :
    (deployments cluster settings names).Asks (·.request.Inspects settings) := by
  unfold deployments
  split
  · exact .pure ()
  · exact check_asks settings (Check.deployments_asks ..)

theorem endpoint_asks (pod : Pod) :
    (endpoint settings pod).Asks (·.request.Inspects settings) :=
  check_asks settings (Check.endpoint_asks ..)

/-- Other pods are listed whatever the topology is. -/
theorem listPods_inspects {selector : String} (h : selector ≠ nameSelector echoOtherNodeName)
    (what : String) (cluster : Cluster) (ns : String) :
    (listPods what cluster ns selector).Asks (·.request.Inspects settings) :=
  listPods_asks (fun heq => absurd heq h) what

theorem performancePods_asks :
    (performancePods clients settings).Asks (·.request.Inspects settings) := by
  refine .bind (listPods_inspects settings (by decide) ..) fun pods => .forM fun pod _ => ?_
  exact .ite_bind (fun _ => endpoint_asks settings pod) fun _ => .record _

theorem clientPods_asks : (clientPods clients settings).Asks (·.request.Inspects settings) :=
  .bind (listPods_inspects settings (by decide) ..) fun _ =>
    .forM fun pod _ => .bind (endpoint_asks settings pod) fun _ => .record _

theorem podNames_asks (target : Pod) :
    (podNames settings target).Asks (·.request.Inspects settings) :=
  .bind .inventory fun _ =>
    check_asks settings (.within (.forM fun _ _ => Check.podNames_asks _ target) _)

theorem echoPodNames_asks {deployment : String}
    (h : nameSelector deployment = nameSelector echoOtherNodeName → settings.spansNodes = true)
    (cluster : Cluster) (what : String) :
    (echoPodNames cluster settings deployment what).Asks (·.request.Inspects settings) := by
  refine .bind (.bind (listPods_asks h what) fun pods => ?_) fun pod => podNames_asks settings pod
  split
  · exact .pure _
  · exact .throw _

theorem clusterNames_asks : (clusterNames settings).Asks (·.request.Inspects settings) :=
  .bind .inventory fun _ =>
    check_asks settings (.within (.forM fun _ _ => Check.clusterNames_asks _) _)

theorem externalEchoPods_asks :
    (externalEchoPods clients settings).Asks (·.request.Inspects settings) :=
  .bind (listPods_inspects settings (by decide) ..) fun _ => .record _

theorem echoPods_asks : (echoPods clients settings).Asks (·.request.Inspects settings) :=
  .forM fun _ _ => .bind (listPods_inspects settings (by decide) ..) fun _ =>
    .forM fun pod _ => .bind (endpoint_asks settings pod) fun _ => .record _

theorem echoServices_asks : (echoServices clients settings).Asks (·.request.Inspects settings) :=
  .forM fun _ _ => .bind (.request trivial _) fun _ => .record _

theorem resolvedServices_asks : (resolvedServices settings).Asks (·.request.Inspects settings) :=
  .bind .inventory fun _ => .forM fun _ _ => check_asks settings (Check.service_asks ..)

theorem ingressServices_asks :
    (ingressServices clients settings).Asks (·.request.Inspects settings) :=
  .bind (.request trivial _) fun _ => .record _

theorem nodePorts_asks : (nodePorts settings).Asks (·.request.Inspects settings) := by
  refine .bind .inventory fun i => .forM fun agent _ => ?_
  split
  · exact .pure ()
  · exact .forM fun _ _ => check_asks settings (Check.nodePorts_asks ..)

theorem hostNetworkPods_asks :
    (hostNetworkPods clients settings).Asks (·.request.Inspects settings) :=
  .bind (listPods_inspects settings (by decide) ..) fun _ => .record _

theorem externalWorkloads_asks :
    (externalWorkloads clients).Asks (·.request.Inspects settings) := by
  refine .forM fun cluster _ => .bind (.attempt (.request trivial _)) fun answer => ?_
  split
  · exact .record _
  · split
    · exact .pure ()
    · exact .throw _

theorem identities_asks : (identities settings).Asks (·.request.Inspects settings) :=
  .bind .inventory fun _ =>
    check_asks settings (.within (.forM fun _ _ => Check.identities_asks ..) _)

theorem connectivity_asks :
    (connectivity clients settings features).Asks (·.request.Inspects settings) := by
  refine .bind (clientPods_asks clients settings) fun _ => ?_
  refine .bind (echoPodNames_asks settings (fun heq => absurd heq (by decide)) ..) fun _ => ?_
  refine .ite_bind (fun hspans => echoPodNames_asks settings (fun _ => hspans) ..) fun _ => ?_
  refine .ite_bind (fun _ => externalEchoPods_asks clients settings) fun _ => ?_
  refine .bind (clusterNames_asks settings) fun _ => ?_
  refine .bind (echoPods_asks clients settings) fun _ => ?_
  refine .bind (echoServices_asks clients settings) fun _ => ?_
  refine .bind (resolvedServices_asks settings) fun _ => ?_
  refine .ite_bind (fun _ => ingressServices_asks clients settings) fun _ => ?_
  refine .ite_bind (fun _ => nodePorts_asks settings) fun _ => ?_
  refine .bind (hostNetworkPods_asks clients settings) fun _ => ?_
  refine .bind (externalWorkloads_asks clients settings) fun _ => ?_
  split
  · exact identities_asks settings
  · exact .pure ()

/-- What follows the list of agents. -/
def inspection : Survey Unit := do
  let plan := Topology.plan settings features ""
  deployments clients.source settings plan.sourceDeployments
  deployments clients.destination settings plan.destinationDeployments
  if settings.performance then performancePods clients settings
  else connectivity clients settings features

theorem inspection_asks :
    (inspection clients settings features).Asks (·.request.Inspects settings) := by
  refine .bind (deployments_asks settings ..) fun _ => ?_
  refine .bind (deployments_asks settings ..) fun _ => ?_
  split
  · exact performancePods_asks clients settings
  · exact connectivity_asks clients settings features

end Survey

theorem validate_eq (clients : Clients) (settings : Settings) (features : FeatureSet) :
    validate clients settings features = (do
      Survey.agentPods clients settings
      Survey.inspection clients settings features) :=
  rfl

/-- A validation changes nothing. -/
theorem validate_reads (clients : Clients) (settings : Settings) (features : FeatureSet) :
    (validate clients settings features).Asks (·.request.Reads) := by
  rw [validate_eq]
  refine .bind ((Survey.agentPods_asks clients settings).mono fun c hc => ?_) fun _ => ?_
  · rw [hc]
    trivial
  · exact (Survey.inspection_asks clients settings features).mono fun c hc => hc.reads

end Reachability
