import Reachability.Manifest.Object

namespace Reachability.Manifest

open Reachability.Topology

/-- The labels of what belongs to this tool. -/
def managedLabels : Labels := .ofList [("app.kubernetes.io/managed-by", "conncheck")]

def testNamespace (name : String) : Object :=
  .space { name := some name, labels := managedLabels }

def serviceAccount (name : String) : Object := .serviceAccount (.named name)

/-- The DNS server answers for `localhost` by itself. -/
def corefile : String := ". \x7b\n\t\t\t\tlocal\n\t\t\t\tready\n\t\t\t\tlog\n\t\t\t\x7d"

def dnsConfigMap : Object :=
  .configMap { metadata := .named dnsConfigMapName, data := .ofList [("Corefile", corefile)] }

/-- The workload's own container, with its port unless it serves none. -/
def workloadContainer (w : Workload) (serves : Bool) : Container :=
  { name := w.name
    image := w.image
    command := w.command
    environment :=
      if serves then [("PORT", toString w.port), ("NAMED_PORT", w.portName)] else []
    ports :=
      if serves then
        [{ number := w.port, name := some w.portName, hostPort := w.hostPort.filter (· ≠ 0) }]
      else []
    readinessProbe := w.readinessProbe
    rawNetwork := true }

/-- The DNS server that runs beside a workload. -/
def dnsContainer (image : String) : Container :=
  { name := dnsContainerName
    image
    arguments := ["-conf", "/etc/coredns/Corefile"]
    ports :=
      [{ number := 53, name := some "dns-53" },
        { number := 53, name := some "dns-udp-53", protocol := some "UDP" }]
    readinessProbe := some { port := 8181, path := "/ready" }
    mounts := [{ volume := dnsVolumeName, path := "/etc/coredns" }] }

def dnsVolume : Volume :=
  { name := dnsVolumeName, configMap := dnsConfigMapName, file := "Corefile" }

def podTemplate (w : Workload) (spec : PodSpec) : PodTemplate :=
  { metadata := { name := some w.name, labels := w.podLabels }, spec }

/-- The deployment of a workload. Its pods run as the service account of its name. -/
def deployment (w : Workload) : Deployment :=
  { metadata := { name := some w.name, labels := w.selectorLabels }
    replicas := some w.replicaCount
    selector := w.selectorLabels
    template := podTemplate w
      { containers := workloadContainer w true :: (w.dnsServerImage.map dnsContainer).toList
        volumes := if w.dnsServerImage.isSome then [dnsVolume] else []
        placement := w.placement
        nodeSelector := w.nodeSelector
        hostNetwork := w.hostNetwork
        toleratesAllTaints := w.toleratesAllTaints
        serviceAccount := some w.name } }

/-- The daemon set of a workload: one pod for each node, which serves no port. -/
def daemonSet (w : Workload) : DaemonSet :=
  { metadata := { name := some w.name, labels := w.selectorLabels }
    selector := w.selectorLabels
    template := podTemplate w
      { containers := [workloadContainer w false]
        placement := w.placement
        hostNetwork := w.hostNetwork
        toleratesAllTaints := w.toleratesAllTaints } }

/-- A service for both address families, with a port on every node. -/
def service (s : ServiceDescription) : Service :=
  { metadata :=
      { name := some s.name
        labels := s.labels
        annotations :=
          if s.isGlobal then
            .ofList [("service.cilium.io/global", "true"), ("io.cilium/global-service", "true")]
          else ∅ }
    type := some "NodePort"
    ports := [{ number := s.port, name := some s.portName }]
    selector := some s.selector
    ipFamilyPolicy := some "PreferDualStack" }

/-- The ingress that routes every path to the echo server on the client's node, through a load
balancer of its own. -/
def ingress : Ingress :=
  { metadata :=
      { name := some ingressName
        annotations := .ofList
          [("ingress.cilium.io/loadbalancer-mode", "dedicated"),
            ("ingress.cilium.io/service-type", "NodePort"),
            ("ingress.cilium.io/insecure-node-port", "31000"),
            ("ingress.cilium.io/secure-node-port", "31001")] }
    className := ingressClassName
    service := echoSameNodeName
    port := echoPort }

/-- The service of the ingress's load balancer, as far as it is known before it appears. -/
def ingressServicePlaceholder : Service :=
  { metadata := .named (ingressServiceName ingressName)
    ports :=
      [{ number := 80, name := some "http", protocol := some "TCP" },
        { number := 443, name := some "https", protocol := some "TCP" }] }

end Reachability.Manifest
