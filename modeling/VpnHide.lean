import VpnHide.Lib.Word
import VpnHide.Lib.Scan
import VpnHide.Lib.Radix
import VpnHide.Lib.Split
import VpnHide.Lib.Str
import VpnHide.Lib.SortedMap
import VpnHide.Lib.Probing
import VpnHide.Lib.Records
import VpnHide.Lib.Json
import VpnHide.Lib.Crash
import VpnHide.Protocol.Lexical
import VpnHide.Protocol.Config
import VpnHide.Protocol.RoundTrip
import VpnHide.Protocol.Truncation
import VpnHide.Protocol.Hooks
import VpnHide.Protocol.DiagnosticRaw
import VpnHide.Protocol.Telemetry
import VpnHide.Protocol.TelemetryRoundTrip
import VpnHide.Kmod.Lexical
import VpnHide.Kmod.Config
import VpnHide.Kmod.Serialise
import VpnHide.Kmod.Cursor
import VpnHide.Kmod.Telemetry
import VpnHide.Kpm.Config
import VpnHide.Kpm.Backends
import VpnHide.Kpm.Stats
import VpnHide.Kpm.Page
import VpnHide.Activator.StatsPage
import VpnHide.Activator.Pages
import VpnHide.Activator.NativePolicy
import VpnHide.Activator.Model
import VpnHide.Kpm.Paging
import VpnHide.Kpm.Slots
import VpnHide.Kpm.PagingRace
import VpnHide.Diag.Scope
import VpnHide.Diag.References
import VpnHide.Diag.Wire
import VpnHide.Diag.Lease
import VpnHide.Diag.Commands
import VpnHide.Diag.Readback
import VpnHide.Zygisk.Interfaces
import VpnHide.Zygisk.Netlink
import VpnHide.Config.Model
import VpnHide.Config.Edit
import VpnHide.Config.LegacyImport
import VpnHide.Config.Canonical
import VpnHide.Config.Conflict
import VpnHide.Daemon.Journal
import VpnHide.Daemon.Commits
import VpnHide.Config.CanonicalRoundTrip
import VpnHide.Probes.Frames
import VpnHide.Provisioning.Plan
import VpnHide.Provisioning.Write
import VpnHide.Daemon.Dispatch
import VpnHide.Daemon.Execute
import VpnHide.Daemon.Recovery
import VpnHide.Daemon.Leases
import VpnHide.Daemon.Runs
import VpnHide.Daemon.Receipts
import VpnHide.Daemon.Restart
import VpnHide.Daemon.Flight
import VpnHide.Daemon.Transitions
import VpnHide.Daemon.Phases
import VpnHide.Daemon.Landing
import VpnHide.Daemon.Reload
import VpnHide.Daemon.Settlement
import VpnHide.Daemon.Admission
import VpnHide.Daemon.Execution
import VpnHide.Daemon.Naming
import VpnHide.Daemon.Verdict
import VpnHide.Daemon.Lineage
import VpnHide.Daemon.Upkeep
import VpnHide.Daemon.Once
import VpnHide.Lib.Sessions
import VpnHide.Native.Ledger
import VpnHide.Native.Journal
import VpnHide.Native.Preflight
import VpnHide.Native.Attempts
import VpnHide.Native.Revocation
import VpnHide.Staging.Work
import VpnHide.Staging.Sound
import VpnHide.Staging.Progress
import VpnHide.Staging.Dispatch
import VpnHide.Autonomous.Coordinator
import VpnHide.Autonomous.Evidence
import VpnHide.App.Coordinator
import VpnHide.App.Intents
import VpnHide.Activator.Reduction
import VpnHide.Activator.Collect
import VpnHide.Lib.PacketFilter
import VpnHide.Activator.Ports
import VpnHide.Lib.Transcript
import VpnHide.Activator.Inventory
import VpnHide.Protocol.Activation
import VpnHide.Kmod.Interfaces
import VpnHide.Kpm.Rules
import VpnHide.Zygisk.ProcLines
import VpnHide.Kmod.SeqLines
import VpnHide.Lib.Loop
import VpnHide.Zygisk.Widths
import VpnHide.Protocol.TelemetryReaders
import VpnHide.Lib.Search
import VpnHide.Kmod.Stats
import VpnHide.Kmod.Capture
import VpnHide.Lib.Threads
import VpnHide.Hook.PolicyCache
import VpnHide.Hook.PolicyRuns
import VpnHide.Hook.PolicyFreshness
import VpnHide.Hook.CallbackRouter
import VpnHide.Hook.CallbackStream
import VpnHide.Config.Diff
import VpnHide.Config.Selection
import VpnHide.Config.Picker
import VpnHide.Daemon.Plan
import VpnHide.Lib.Stream
import VpnHide.Checks.Model
import VpnHide.Checks.NetlinkWire
import VpnHide.Checks.Measurement
import VpnHide.Checks.Assessment
import VpnHide.Checks.Routes
import VpnHide.Checks.RouteEvidence
import VpnHide.Artifact.Ranges
import VpnHide.Artifact.BuildId
import VpnHide.Artifact.Sections
import VpnHide.Artifact.Parameters
import VpnHide.Artifact.Relocations
import VpnHide.Artifact.Scalars
import VpnHide.Artifact.InitContract
import VpnHide.Lib.Path
import VpnHide.Zygisk.Paths
import VpnHide.Kpm.Paths
import VpnHide.Zygisk.Normalize
import VpnHide.Zygisk.OpenAt
import VpnHide.Lib.Batches
import VpnHide.Zygisk.Dirents
import VpnHide.Zygisk.Receive
import VpnHide.Zygisk.Dump
import VpnHide.Lib.Memory
import VpnHide.Kpm.IfconfCount
import VpnHide.Kpm.Ifconf
import VpnHide.Artifact.Manifest
import VpnHide.Payloads.Kmi
import VpnHide.Payloads.Selection
import VpnHide.Protocol.Clamp
import VpnHide.Kpm.PathWalk
import VpnHide.Artifact.Release
import VpnHide.Checks.RouteDump
import VpnHide.Activator.Delivery
import VpnHide.Kpm.ReadDir
import VpnHide.Kpm.Install
import VpnHide.Kpm.SocketBind
