import OverlayHost.Config.Json
import OverlayHost.Cycle.Scripted
import OverlayHost.Endpoint.Dns
import OverlayHost.Endpoint.Logging
import OverlayHost.FileTree
import OverlayHost.Filter.Command
import OverlayHost.Main
import OverlayHost.Metrics.Emitter
import OverlayHost.Metrics.Line
import OverlayHost.PolicyAgent
import OverlayHost.Poller
import OverlayHost.Proofs.Config.Validation
import OverlayHost.Proofs.ControlPlane.Life
import OverlayHost.Proofs.Cycle.Collisions
import OverlayHost.Proofs.Cycle.Leftovers
import OverlayHost.Proofs.Cycle.Order
import OverlayHost.Proofs.Cycle.Restart
import OverlayHost.Proofs.Daemon.Start
import OverlayHost.Proofs.Discovery.Naming
import OverlayHost.Proofs.Discovery.Registration
import OverlayHost.Proofs.Discovery.Retry
import OverlayHost.Proofs.Endpoint.Dns
import OverlayHost.Proofs.Endpoint.LoggingFormat
import OverlayHost.Proofs.Endpoint.QueryType
import OverlayHost.Proofs.Enforcer.Census
import OverlayHost.Proofs.Enforcer.Discipline
import OverlayHost.Proofs.Enforcer.Finding
import OverlayHost.Proofs.Enforcer.Instants
import OverlayHost.Proofs.Enforcer.Refinement
import OverlayHost.Proofs.Enforcer.Rollback
import OverlayHost.Proofs.Enforcer.Targets
import OverlayHost.Proofs.Filter.Additions
import OverlayHost.Proofs.Filter.Arguments
import OverlayHost.Proofs.Filter.Injection
import OverlayHost.Proofs.Filter.Lines
import OverlayHost.Proofs.Hostname
import OverlayHost.Proofs.Json.Document
import OverlayHost.Proofs.Metrics.Packing
import OverlayHost.Proofs.Net.Bits
import OverlayHost.Proofs.PolicyAgent.Logging
import OverlayHost.Proofs.Poller.WholeCycles
import OverlayHost.Proofs.Resolver.Routing
import OverlayHost.Proofs.Resolver.Spelling
import OverlayHost.Proofs.Text.Blank
import OverlayHost.Proofs.Text.Utf8
import OverlayHost.Proofs.Vip
