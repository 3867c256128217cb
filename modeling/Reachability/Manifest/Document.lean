import Reachability.Document
import Reachability.Manifest.Object

namespace Reachability

open Reachability.Topology (Placement ReadinessProbe)

namespace Document

/-- A mapping of texts, unless it is empty. -/
def ofLabels? (l : Labels) : Option Document :=
  if l.isEmpty then none else some (mapping (l.entries.map fun (k, v) => (k, text v)))

def ofLabels (l : Labels) : Document := mapping (l.entries.map fun (k, v) => (k, text v))

def texts (l : List String) : Document := sequence (l.map text)

/-- A list of texts, unless it is empty. -/
def texts? (l : List String) : Option Document := nonemptySequence (l.map text)

end Document

open Document

namespace Manifest

def Metadata.document (m : Metadata) : Document := present
  [("annotations", ofLabels? m.annotations),
    ("generation", m.generation.map integer),
    ("labels", ofLabels? m.labels),
    ("name", m.name.map text),
    ("namespace", m.space.map text)]

def probeDocument (p : ReadinessProbe) : Document := mapping
  [("failureThreshold", integer 3),
    ("httpGet", mapping
      [("path", text p.path), ("port", integer p.port), ("scheme", text "HTTP")]),
    ("initialDelaySeconds", integer 1),
    ("periodSeconds", integer 1),
    ("successThreshold", integer 1),
    ("timeoutSeconds", integer 2)]

/-- A requirement that a label has one of the values. -/
def oneOf (key : String) (values : List String) : Document := mapping
  [("key", text key), ("operator", text "In"), ("values", texts values)]

def zonePreference (zone : String) : Document := mapping
  [("preferredDuringSchedulingIgnoredDuringExecution", sequence
    [mapping
      [("preference", mapping
        [("matchExpressions", sequence [oneOf "topology.kubernetes.io/zone" [zone]])]),
        ("weight", integer 100)]])]

/-- The node of a pod of the workload. -/
def companionTerm (workload : String) : Document := mapping
  [("labelSelector", mapping [("matchExpressions", sequence [oneOf "name" [workload]])]),
    ("topologyKey", text "kubernetes.io/hostname")]

def placementDocument (p : Placement) : Document := present
  [("nodeAffinity", p.zone?.map zonePreference),
    ("podAffinity", p.requiredCompanion?.map fun w => mapping
      [("requiredDuringSchedulingIgnoredDuringExecution", sequence [companionTerm w])]),
    ("podAntiAffinity",
      match p.forbiddenCompanion?, p.avoidedCompanion? with
      | some w, _ => some (mapping
          [("requiredDuringSchedulingIgnoredDuringExecution", sequence [companionTerm w])])
      | none, some w => some (mapping
          [("preferredDuringSchedulingIgnoredDuringExecution", sequence
            [mapping [("podAffinityTerm", companionTerm w), ("weight", integer 100)]])])
      | none, none => none)]

/-- The toleration of every taint. -/
def universalToleration : Document := sequence [mapping [("operator", text "Exists")]]

def ContainerPort.document (p : ContainerPort) : Document := present
  [("containerPort", integer p.number),
    ("hostPort", p.hostPort.map integer),
    ("name", p.name.map text),
    ("protocol", p.protocol.map text)]

def Mount.document (m : Mount) : Document := mapping
  [("mountPath", text m.path), ("name", text m.volume), ("readOnly", boolean true)]

def Container.document (c : Container) : Document := present
  [("args", texts? c.arguments),
    ("command", texts? c.command),
    ("env", nonemptySequence (c.environment.map fun (k, v) =>
      mapping [("name", text k), ("value", text v)])),
    ("image", some (text c.image)),
    ("imagePullPolicy", some (text "IfNotPresent")),
    ("name", some (text c.name)),
    ("ports", nonemptySequence (c.ports.map (·.document))),
    ("readinessProbe", c.readinessProbe.map probeDocument),
    ("securityContext",
      if c.rawNetwork then some (mapping [("capabilities", mapping [("add", texts ["NET_RAW"])])])
      else none),
    ("volumeMounts", nonemptySequence (c.mounts.map (·.document)))]

def Volume.document (v : Volume) : Document := mapping
  [("configMap", mapping
    [("items", sequence [mapping [("key", text v.file), ("path", text v.file)]]),
      ("name", text v.configMap)]),
    ("name", text v.name)]

def PodSpec.document (s : PodSpec) : Document := present
  [("affinity", s.placement.map placementDocument),
    ("containers", some (sequence (s.containers.map (·.document)))),
    ("hostNetwork", if s.hostNetwork then some (boolean true) else none),
    ("nodeSelector", ofLabels? s.nodeSelector),
    ("serviceAccountName", s.serviceAccount.map text),
    ("tolerations", if s.toleratesAllTaints then some universalToleration else none),
    ("volumes", nonemptySequence (s.volumes.map (·.document)))]

def PodTemplate.document (t : PodTemplate) : Document := mapping
  [("metadata", t.metadata.document), ("spec", t.spec.document)]

def DeploymentStatus.document (s : DeploymentStatus) : Document := present
  [("availableReplicas", s.available.map fun n => integer n.toInt),
    ("observedGeneration", s.observedGeneration.map integer),
    ("readyReplicas", s.ready.map fun n => integer n.toInt),
    ("replicas", s.replicas.map fun n => integer n.toInt),
    ("updatedReplicas", s.updated.map fun n => integer n.toInt)]

/-- An object of a version and a kind, with the fields that stand before and after its metadata. -/
def topLevel (version kind : String) (m : Metadata)
    (before after : List (String × Option Document)) :
    Document := present
  ([("apiVersion", some (text version)), ("kind", some (text kind))] ++ before ++
    [("metadata", some m.document)] ++ after)

def Deployment.document (d : Deployment) : Document :=
  topLevel "apps/v1" "Deployment" d.metadata []
    [("spec", some (present
      [("replicas", d.replicas.map fun n => integer n.toInt),
        ("selector", some (mapping [("matchLabels", ofLabels d.selector)])),
        ("template", some d.template.document)])),
      ("status", d.status.map (·.document))]

def DaemonSet.document (d : DaemonSet) : Document :=
  topLevel "apps/v1" "DaemonSet" d.metadata []
    [("spec", some (mapping
      [("selector", mapping [("matchLabels", ofLabels d.selector)]),
        ("template", d.template.document)]))]

def ServicePort.document (p : ServicePort) : Document := present
  [("name", p.name.map text),
    ("nodePort", p.nodePort.map integer),
    ("port", some (integer p.number)),
    ("protocol", p.protocol.map text)]

def Service.document (s : Service) : Document :=
  topLevel "v1" "Service" s.metadata []
    [("spec", some (present
      [("clusterIP", s.clusterIP.map text),
        ("ipFamilyPolicy", s.ipFamilyPolicy.map text),
        ("ports", nonemptySequence (s.ports.map (·.document))),
        ("selector", s.selector.map ofLabels),
        ("type", s.type.map text)])),
      ("status",
        if s.balancerIPs.isEmpty then none
        else some (mapping
          [("loadBalancer", mapping
            [("ingress", sequence (s.balancerIPs.map fun ip => present [("ip", ip.map text)]))])]))]

def Ingress.document (i : Ingress) : Document :=
  topLevel "networking.k8s.io/v1" "Ingress" i.metadata []
    [("spec", some (mapping
      [("ingressClassName", text i.className),
        ("rules", sequence
          [mapping
            [("http", mapping
              [("paths", sequence
                [mapping
                  [("backend", mapping
                    [("service", mapping
                      [("name", text i.service), ("port", mapping [("number", integer i.port)])])]),
                    ("path", text "/"),
                    ("pathType", text "ImplementationSpecific")]])])]])]))]

def ConfigMap.document (c : ConfigMap) : Document :=
  topLevel "v1" "ConfigMap" c.metadata [("data", ofLabels? c.data)] []

/-- An object as a document. The fields of every mapping stand in alphabetical order, after the
version and the kind of the object. -/
def Object.document : Object → Document
  | space m => topLevel "v1" "Namespace" m [] []
  | serviceAccount m => topLevel "v1" "ServiceAccount" m [] []
  | configMap c => c.document
  | service s => s.document
  | deployment d => d.document
  | daemonSet d => d.document
  | ingress i => i.document

end Manifest

end Reachability
