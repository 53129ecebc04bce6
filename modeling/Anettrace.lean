import Anettrace.Trim.Clock
import Anettrace.Export.IoLifecycle
import Anettrace.Export.FlowBytes
import Anettrace.Export.FlowUnique
import Anettrace.Export.SyscallPairing
import Anettrace.Export.FlowPackets
import Anettrace.Export.FlowAgreement
import Anettrace.Export.FlowLifecycle
import Anettrace.Native.Ring
import Anettrace.Capture.FlowLifecycle
import Anettrace.Capture.Descriptors
import Anettrace.Capture.Lifetimes
import Anettrace.Capture.Orphans
import Anettrace.Convert.Attempts
import Anettrace.Native.OverviewOwners
import Anettrace.CaptureQueue.Delivery
import Anettrace.Library.Ring
import Anettrace.RxContext.Attribution
import Anettrace.Library.Run
import Anettrace.Library.Alternation
import Anettrace.Library.Keyed
import Anettrace.Probes.Kernel
import Anettrace.Probes.Wakeup
import Anettrace.Probes.WakeupEvidence
import Anettrace.Probes.Connect
import Anettrace.Probes.ConnectOwnership
import Anettrace.Diagnose.Model
import Anettrace.Diagnose.Acceptance
import Anettrace.Probes.SocketOwner
import Anettrace.Probes.SocketIdentity
import Anettrace.Traffic.Probes
import Anettrace.Traffic.Accounting
import Anettrace.Traffic.Sampler
import Anettrace.Traffic.Sampling
import Anettrace.Analysis.Model
import Anettrace.Analysis.References
import Anettrace.Analysis.Contexts
import Anettrace.Analysis.Lifetimes
import Anettrace.Trim.Writers
import Anettrace.Native.Annotations
import Anettrace.Analysis.AsyncList
import Anettrace.Rules.Model
import Anettrace.Rules.Agreement
import Anettrace.Library.Transfer
import Anettrace.Trim.File
import Anettrace.Trim.Atomicity
import Anettrace.Export.TupleIdentity
import Anettrace.Symbols.Model
import Anettrace.Symbols.Cache
import Anettrace.Library.Substrings
import Anettrace.Symbols.Search
import Anettrace.Filter.Model
import Anettrace.Filter.Agreement
import Anettrace.ConnectReport.Isolation
import Anettrace.ConnectReport.Evidence
import Anettrace.PerfettoConfig.Tokens
import Anettrace.TrafficHistory.Totals
import Anettrace.TrafficHistory.Window
import Anettrace.Probes.RateLimit
import Anettrace.NetworkReport.Schedule
import Anettrace.NetworkReport.Selection
import Anettrace.Library.Json
import Anettrace.Library.JsonRoundTrip
import Anettrace.NetworkReport.Embedding
import Anettrace.TraceCapture.Runs
import Anettrace.TrafficDisplay.Runs
import Anettrace.Library.Block
import Anettrace.TrafficDisplay.Terminal
import Anettrace.TrafficDisplay.Characters
import Anettrace.TrafficDisplay.Clip
import Anettrace.TrafficDisplay.TerminalLine
import Anettrace.TrafficDisplay.Screen
import Anettrace.PerfettoConfig.Documents
import Anettrace.Library.Utf8
import Anettrace.Library.JsonLine
import Anettrace.Jsonl.Readable
import Anettrace.Jsonl.Stages
import Anettrace.Probes.PacketEvidence
import Anettrace.Export.CapturedCalls
import Anettrace.Selection.Attach
import Anettrace.Matching.Ledger
import Anettrace.Convert.Serialized
import Anettrace.Lists.AsyncPoll
import Anettrace.GenTrace.Catalogue
