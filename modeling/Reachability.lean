import Reachability.Main
import Reachability.Proofs.Wait.Schedule
import Reachability.Settings.Json
import Reachability.Simulation.Scenario
import Reachability.Wait.Script
import Reachability.Proofs.Wait.Cut
import Reachability.Proofs.Wait.Interruption
import Reachability.Proofs.Cluster.Interruption
import Reachability.Proofs.Session.Interruption
import Reachability.Proofs.Cluster.Transcript
import Reachability.Proofs.Provision.Transcript
import Reachability.Proofs.Simulation.Creation
import Reachability.Proofs.Provision.Resumption
import Reachability.Proofs.Cluster.Account
import Reachability.Proofs.Cluster.Record
import Reachability.Proofs.Cluster.Evidence
import Reachability.Proofs.Validation.Evidence
import Reachability.Proofs.Cluster.Requests
import Reachability.Proofs.Validation.Requests
import Reachability.Proofs.Validation.Network
import Reachability.Proofs.Identity
import Reachability.Proofs.Validation.Identities
import Reachability.Proofs.Simulation.Removal
import Reachability.Proofs.Simulation.Service
import Reachability.Proofs.Session.Removal
import Reachability.Proofs.Wait.Turns
import Reachability.Proofs.Cluster.Turns
import Reachability.Proofs.Provision.Ascent
import Reachability.Proofs.Simulation.Server
import Reachability.Proofs.Provision.Concurrency
import Reachability.Proofs.Cluster.Conduct
import Reachability.Proofs.Cluster.Settlement
import Reachability.Proofs.Simulation.Staffing
import Reachability.Proofs.Teardown.Coverage
import Reachability.Proofs.Teardown.Success
import Reachability.Proofs.Teardown.Completion
import Reachability.Proofs.Provision.Renewal
import Reachability.Proofs.Teardown.Disturbance
import Reachability.Proofs.Provision.History
import Reachability.Proofs.Dict
import Reachability.Proofs.Topology.Workloads
import Reachability.Proofs.Topology.WellFormed
import Reachability.Proofs.Provision.Rendering
import Reachability.Proofs.Validation.Discovery
import Reachability.Proofs.Cluster.Standstill
import Reachability.Proofs.Provision.Standstill
import Reachability.Proofs.Simulation.Holdings
import Reachability.Proofs.Simulation.Answers
import Reachability.Proofs.Simulation.Crews
import Reachability.Proofs.Json
import Reachability.Proofs.Simulation.Identities
import Reachability.Proofs.Lookup
import Reachability.Proofs.Validation.Standstill
import Reachability.Proofs.Validation.Sightings
import Reachability.Proofs.Validation.Findings
import Reachability.Proofs.Session.Discovery
import Reachability.Proofs.Wait.Timeouts
import Reachability.Proofs.Cluster.Allotment
import Reachability.Proofs.Validation.Allotment
import Reachability.Proofs.Cluster.Duration
import Reachability.Proofs.Validation.Duration
import Reachability.Proofs.Wait.Contexts
import Reachability.Proofs.Settings.Overlay
import Reachability.Proofs.Identity.Entries
import Reachability.Proofs.Teardown.Pace
import Reachability.Proofs.Wait.Courses
import Reachability.Proofs.Wait.Sequence
import Reachability.Proofs.Cluster.Sequence
import Reachability.Proofs.Identity.Blame
import Reachability.Proofs.Cluster.Readiness
import Reachability.Proofs.Topology.Zone
import Reachability.Proofs.Settings.Names
import Reachability.Proofs.Manifest.Labels
import Reachability.Proofs.Validation.Performance
import Reachability.Proofs.Validation.Services
import Reachability.Proofs.Failure
import Reachability.Proofs.Wait.Retries
import Reachability.Proofs.Cluster.Attachment
import Reachability.Proofs.Validation.Order
import Reachability.Proofs.Decimal
import Reachability.Proofs.Address
import Reachability.Proofs.Chunks
import Reachability.Proofs.Cluster.Leftover
import Reachability.Proofs.Identity.Spelling
import Reachability.Proofs.Settings.Scalars
import Reachability.Proofs.Settings.Variables
import Reachability.Proofs.Document.Yaml
import Reachability.Proofs.Topology.Framing
