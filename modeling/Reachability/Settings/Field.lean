import Reachability.Manifest.Document
import Reachability.Settings.Basic

namespace Reachability.Settings

/-- What a setting is: a text, a text or nothing, a truth value, a number of seconds, or a table of
texts or of truth values. -/
inductive Kind where
  | text
  | optionalText
  | truth
  | seconds
  | texts
  | truths
deriving DecidableEq, Repr

namespace Kind

/-- The values of a kind. -/
@[reducible] def Carrier : Kind → Type
  | text => String
  | optionalText => Option String
  | truth => Bool
  | seconds => UInt64
  | texts => Labels
  | truths => Dict String Bool

def document : (kind : Kind) → kind.Carrier → Document
  | text, s => .text s
  | optionalText, s => (s.map .text).getD .null
  | truth, b => .boolean b
  | seconds, n => .integer n.toNat
  | texts, l => .ofLabels l
  | truths, d => .mapping (d.entries.map fun (k, b) => (k, .boolean b))

end Kind

/-- How values of one form are read as values of each kind. -/
abbrev Reader (V : Type) := (kind : Kind) → V → Option kind.Carrier

/-- A setting by name, with the value it has in a document that leaves it out. -/
structure Parameter where
  key : String
  kind : Kind
  get : Settings → kind.Carrier
  set : kind.Carrier → Settings → Settings
  absent : kind.Carrier

/-- Every setting, in the order in which a list of values names them. -/
def parameters : List Parameter :=
  [⟨"test_namespace", .text, testNamespace, fun v s => { s with testNamespace := v },
      Default.testNamespace⟩,
    ⟨"kube_context", .optionalText, kubeContext, fun v s => { s with kubeContext := v }, none⟩,
    ⟨"multi_cluster", .text, multiCluster, fun v s => { s with multiCluster := v }, ""⟩,
    ⟨"curl_image", .text, curlImage, fun v s => { s with curlImage := v }, Default.curlImage⟩,
    ⟨"json_mock_image", .text, jsonMockImage, fun v s => { s with jsonMockImage := v },
      Default.jsonMockImage⟩,
    ⟨"dns_test_server_image", .text, dnsTestServerImage,
      fun v s => { s with dnsTestServerImage := v }, Default.dnsTestServerImage⟩,
    ⟨"performance_image", .text, performanceImage, fun v s => { s with performanceImage := v },
      Default.performanceImage⟩,
    ⟨"perf", .truth, performance, fun v s => { s with performance := v }, false⟩,
    ⟨"perf_host_net", .truth, performanceHostNetwork,
      fun v s => { s with performanceHostNetwork := v }, false⟩,
    ⟨"single_node", .truth, singleNode, fun v s => { s with singleNode := v }, false⟩,
    ⟨"node_selector", .texts, nodeSelector, fun v s => { s with nodeSelector := v }, ∅⟩,
    ⟨"force_deploy", .truth, forceDeploy, fun v s => { s with forceDeploy := v }, false⟩,
    ⟨"skip_ipcache_check", .truth, skipIdentityCheck,
      fun v s => { s with skipIdentityCheck := v }, false⟩,
    ⟨"pod_ready_timeout_secs", .seconds, podReadyTimeout,
      fun v s => { s with podReadyTimeout := v }, Default.podReadyTimeout⟩,
    ⟨"cilium_endpoint_timeout_secs", .seconds, endpointTimeout,
      fun v s => { s with endpointTimeout := v }, Default.endpointTimeout⟩,
    ⟨"ipcache_timeout_secs", .seconds, identityTimeout,
      fun v s => { s with identityTimeout := v }, Default.identityTimeout⟩,
    ⟨"service_ready_timeout_secs", .seconds, serviceReadyTimeout,
      fun v s => { s with serviceReadyTimeout := v }, Default.serviceReadyTimeout⟩,
    ⟨"agent_namespace", .text, agentNamespace, fun v s => { s with agentNamespace := v },
      Default.agentNamespace⟩,
    ⟨"agent_selector", .text, agentSelector, fun v s => { s with agentSelector := v },
      Default.agentSelector⟩,
    ⟨"agent_container", .text, agentContainer, fun v s => { s with agentContainer := v },
      Default.agentContainer⟩,
    ⟨"features", .truths, features, fun v s => { s with features := v }, ∅⟩,
    ⟨"dry_run", .truth, dryRun, fun v s => { s with dryRun := v }, false⟩,
    ⟨"teardown", .truth, teardown, fun v s => { s with teardown := v }, false⟩,
    ⟨"log_format", .text, logFormat, fun v s => { s with logFormat := v }, Default.logFormat⟩]

/-- Gives every parameter the value it has where it is left out. -/
def clear (s : Settings) : Settings := parameters.foldl (fun s p => p.set p.absent s) s

variable {V : Type}

/-- Takes over a value, if it has the right form. -/
def Parameter.assign? (r : Reader V) (p : Parameter) (v : V) (s : Settings) : Option Settings :=
  (r p.kind v).map (p.set · s)

/-- Takes over the value of one entry. Entries of unknown names are passed over. -/
def takeOver (r : Reader V) (entry : String × V) (s : Settings) : Option Settings :=
  match parameters.find? (·.key == entry.1) with
  | some p => p.assign? r entry.2 s
  | none => some s

/-- The settings that the entries spell, each of which has to have the right form. -/
def ofEntries? (r : Reader V) (entries : List (String × V)) : Option Settings :=
  entries.foldlM (fun s e => takeOver r e s) (clear {})

/-- The settings whose values stand in the order of the parameters. The values may stop early. -/
def ofPositions? (r : Reader V) (values : List V) : Option Settings :=
  if parameters.length < values.length then none
  else (parameters.zip values).foldlM (fun s (p, v) => p.assign? r v s) (clear {})

/-- All settings with their values, in the order of the parameters. -/
def document (s : Settings) : Document :=
  .mapping (parameters.map fun p => (p.key, p.kind.document (p.get s)))

end Reachability.Settings
