import PartlyProxy.Lib.KeyedLog
import PartlyProxy.Lib.Execution
import PartlyProxy.Lib.History
import PartlyProxy.Lib.Json
import PartlyProxy.Lib.Base64
import PartlyProxy.Lib.Lines
import PartlyProxy.Lib.BufWriter
import PartlyProxy.Lib.Utf8
import PartlyProxy.Lib.RowTable
import PartlyProxy.Recorded
import PartlyProxy.Interleaving
import PartlyProxy.RecordReplay
import PartlyProxy.Jsonl
import PartlyProxy.JsonlReplay
import PartlyProxy.JsonlFile
import PartlyProxy.ReplayMode
import PartlyProxy.Ledger
import PartlyProxy.Provenance
import PartlyProxy.Transparency
import PartlyProxy.Redaction
import PartlyProxy.FailedForward
import PartlyProxy.Concurrent
import PartlyProxy.Deduplication
import PartlyProxy.Agreement
import PartlyProxy.RejectedAppend
import PartlyProxy.StubHistory
import PartlyProxy.RecorderLock
import PartlyProxy.Assertions
import PartlyProxy.WaitFor
import PartlyProxy.Verdicts
import PartlyProxy.Overshoot
import PartlyProxy.Shutdown
import PartlyProxy.PauseGate
import PartlyProxy.Determinism
import PartlyProxy.Command
import PartlyProxy.Cluster
import PartlyProxy.Isolation
import PartlyProxy.Accounting
import PartlyProxy.Wire
import PartlyProxy.ControlPlane
import PartlyProxy.ControlProtocol
import PartlyProxy.Drain
import PartlyProxy.Independence
import PartlyProxy.ProxyClient
import PartlyProxy.ClientFraming
import PartlyProxy.ClientMatching
import PartlyProxy.ClientClose
import PartlyProxy.ClientTimeouts
import PartlyProxy.Indexing
import PartlyProxy.Fence
import PartlyProxy.HeaderLists
import PartlyProxy.BodyContains
import PartlyProxy.MatcherSemantics
import PartlyProxy.UriForms
import PartlyProxy.PathReaders
import PartlyProxy.RecordKey
import PartlyProxy.StubFilters
import PartlyProxy.Outbound
import PartlyProxy.TimeoutOrder
import PartlyProxy.WireJson
import PartlyProxy.Linearization
import PartlyProxy.ClientCommands
import PartlyProxy.RemoteControl
import PartlyProxy.Sqlite
import PartlyProxy.Backends
import PartlyProxy.Sessions
import PartlyProxy.AcceptLoop
import PartlyProxy.CleanShutdown
import PartlyProxy.SnapshotFiles
import PartlyProxy.MemberOrder
import PartlyProxy.WireOrder
import PartlyProxy.BringUp
import PartlyProxy.LiveTraffic
import PartlyProxy.HardAbort
