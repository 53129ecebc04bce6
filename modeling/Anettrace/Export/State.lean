import Anettrace.Export.Identity

/-!
# The state of the exporter

The tables of `src/perfetto_export.c` that outlive one event, and the records it writes to its
JSONL file. Pointers into a table are indices. A record keeps the fields of its JSON line; the
fixed `schema` field and the textual form of numbers and addresses are left out.
-/

namespace Anettrace.Export

/-- One capture session: the settings, `export_salt`, and the sizes of the event structures. -/
structure Session extends TraceContext where
  salt : UInt64
  detailSize : UInt32
  createSize : UInt32
  stateSize : UInt32
  retSize : UInt32
  syscallSize : UInt32

/-- The texts of `flow_label_prefix`. -/
inductive FlowKind where
  | tcp | dns | udp | flow
  deriving DecidableEq, Repr, Inhabited

/-- The text of `format_flow_label`: a kind, a hyphen and a display index. -/
structure FlowTag where
  kind : FlowKind
  index : UInt32
  deriving DecidableEq, Repr, Inhabited

/-- The texts of `flow_protocol_name`. -/
inductive ProtocolName where
  | tcp | udp | udpDns
  deriving DecidableEq, Repr, Inhabited

/-- The texts of the `association` field. -/
inductive Association where
  | multipleFlows | associated | unassociated
  deriving DecidableEq, Repr, Inhabited

/-- The texts of the `end_reason` field. -/
inductive EndReason where
  | socketDestroy | idleTimeout | traceEnd
  deriving DecidableEq, Repr, Inhabited

/-! ## Tables -/

/-- `struct flow_state`. -/
structure FlowState where
  id : UInt64
  tupleId : UInt64
  endTs : UInt64
  netns : UInt32
  firstTs : UInt64
  lastTs : UInt64
  txBytes : UInt64
  rxBytes : UInt64
  txPackets : UInt64
  rxPackets : UInt64
  socketId : UInt64
  linkedSocketId : UInt64
  ownerTid : UInt32
  ownerTgid : UInt32
  ownerUid : UInt32
  displayIndex : UInt32
  localPort : UInt16
  remotePort : UInt16
  protocol : UInt8
  localAddr : Address
  remoteAddr : Address
  task : List UInt8
  active : Bool
  closed : Bool
  ownerValid : Bool
  socketAmbiguous : Bool
  deriving DecidableEq, Repr

/-- The entry `flow_add` leaves: zeroed, but for its identity and its active flag. -/
def FlowState.fresh (id : UInt64) : FlowState :=
  ⟨id, 0, 0, 0, 0, 0, 0, 0, 0, 0, 0, 0, 0, 0, 0, 0, 0, 0, 0, .none, .none, [], true, false, false,
    false⟩

/-- `struct pending_io`. -/
structure PendingIo where
  func : UInt16
  tid : UInt32
  tgid : UInt32
  uid : UInt32
  startTs : UInt64
  socketId : UInt64
  flowId : UInt64
  syscallStartTs : UInt64
  ioId : UInt64
  flowAmbiguous : Bool
  stage : String
  ownerTid : UInt32
  ownerTgid : UInt32
  ownerUid : UInt32
  cpu : Int
  task : List UInt8
  protocol : UInt8
  tx : Bool
  visible : Bool
  active : Bool
  deriving DecidableEq, Repr

/-- The entry `pending_io_add` leaves: zeroed, but for its key and its active flag. -/
def PendingIo.fresh (func : UInt16) (tid : UInt32) : PendingIo :=
  ⟨func, tid, 0, 0, 0, 0, 0, 0, 0, false, "", 0, 0, 0, 0, [], 0, false, false, true⟩

/-- `NETWORK_SYS_*`; `other` stands for the values from `NETWORK_SYS_COUNT` on. -/
inductive SyscallKind where
  | sendto | recvfrom | sendmsg | recvmsg | sendmmsg | recvmmsg | read | write | readv | writev
  | send | recv | other
  deriving DecidableEq, Repr, Inhabited

/-- The scheduler evidence at the end of `network_syscall_event_t`. -/
structure Wakeup where
  wakingTs : UInt64
  wakeupTs : UInt64
  runStartTs : UInt64
  wakerStartTime : UInt64
  wakerTid : UInt32
  wakerTgid : UInt32
  wakingCpu : UInt32
  runCpu : UInt32
  wakingPreemptCount : UInt32
  wakeupStatus : UInt8
  wakingContext : UInt8
  wakerTask : List UInt8
  deriving DecidableEq, Repr, Inhabited

/-- `network_syscall_event_t`. -/
structure SyscallEvent where
  kind : SyscallKind
  startTs : UInt64
  ts : UInt64
  socketKey : UInt64
  requestedBytes : UInt64
  result : Int64
  socketGeneration : UInt32
  tid : UInt32
  tgid : UInt32
  uid : UInt32
  fd : Int32
  flags : UInt32
  finished : Bool
  requestedValid : Bool
  requireSocket : Bool
  abi : UInt8
  requestedMessages : UInt32
  wakeup : Wakeup
  deriving DecidableEq, Repr, Inhabited

/-- An element of `pending_syscalls`. -/
structure SyscallSlot where
  event : SyscallEvent
  flowId : UInt64
  completedTs : UInt64
  active : Bool
  deriving DecidableEq, Repr

/-! ## Records -/

/-- The fields of a `socket_flow_link` record; its `evidence` is always `socket_instance`. -/
structure SocketFlowLink where
  ts : UInt64
  socketId : UInt64
  flowId : UInt64
  flowTag : FlowTag
  ownerTid : UInt32
  ownerTgid : UInt32
  ownerUid : UInt32
  task : List UInt8
  deriving DecidableEq, Repr

/-- The fields of a `flow_start` record; its `start_reason` is always `first_observed`. -/
structure FlowStart where
  ts : UInt64
  flowId : UInt64
  flowTag : FlowTag
  protocol : ProtocolName
  socketId : UInt64
  ownerTid : UInt32
  ownerTgid : UInt32
  ownerUid : UInt32
  task : List UInt8
  localAddr : Address
  localPort : UInt16
  remoteAddr : Address
  remotePort : UInt16
  netns : UInt32
  tupleId : UInt64
  deriving DecidableEq, Repr

/-- The fields of a `flow_end` record; its `byte_scope` is always `application_payload`. -/
structure FlowEnd where
  ts : UInt64
  firstTs : UInt64
  lastTs : UInt64
  duration : UInt64
  flowId : UInt64
  flowTag : FlowTag
  protocol : ProtocolName
  socketId : UInt64
  txBytes : UInt64
  rxBytes : UInt64
  txPackets : UInt64
  rxPackets : UInt64
  ownerTid : UInt32
  ownerTgid : UInt32
  ownerUid : UInt32
  task : List UInt8
  localAddr : Address
  localPort : UInt16
  remoteAddr : Address
  remotePort : UInt16
  endReason : EndReason
  incomplete : Bool
  deriving DecidableEq, Repr

/-- The fields of a `tx_write_start` or `rx_read_start` record; `tx` tells which. -/
structure IoStart where
  tx : Bool
  ts : UInt64
  stage : String
  socketId : UInt64
  flowId : UInt64
  flowTag : Option FlowTag
  protocol : ProtocolName
  cpu : Int
  tid : UInt32
  tgid : UInt32
  uid : UInt32
  task : List UInt8
  ownerTid : UInt32
  ownerTgid : UInt32
  ownerUid : UInt32
  ioId : UInt64
  callId : UInt64
  deriving DecidableEq, Repr

/-- The fields of a `tx_write_end` or `rx_read_end` record; `tx` tells which. -/
structure IoEnd where
  tx : Bool
  ts : UInt64
  stage : String
  tid : UInt32
  socketId : UInt64
  flowId : UInt64
  flowTag : Option FlowTag
  result : Int64
  bytes : UInt64
  error : UInt64
  incomplete : Bool
  ioId : UInt64
  callId : UInt64
  association : Association
  deriving DecidableEq, Repr

/-- The fields of an `io_complete` record; `tx` is its `direction`. -/
structure IoComplete where
  ts : UInt64
  ioId : UInt64
  callId : UInt64
  socketId : UInt64
  flowId : UInt64
  flowTag : Option FlowTag
  tid : UInt32
  tgid : UInt32
  tx : Bool
  result : Int64
  bytes : UInt64
  error : UInt64
  incomplete : Bool
  association : Association
  deriving DecidableEq, Repr

/-- The texts of the `evidence` field of a `packet_io_link` record. -/
inductive LinkEvidence where
  | submissionContext | copyAttempt | receiveRelease
  deriving DecidableEq, Repr

/-- The fields of a `packet_io_link` record; `tx` is its `direction`. -/
structure PacketIoLink where
  ts : UInt64
  ioId : UInt64
  callId : UInt64
  packetId : UInt64
  flowId : UInt64
  socketId : UInt64
  flowTag : Option FlowTag
  tid : UInt32
  tgid : UInt32
  tx : Bool
  offset : UInt32
  copyBytes : UInt32
  evidence : LinkEvidence
  deriving DecidableEq, Repr

/-- The fields of a `network_syscall` record. `batch` is its `result_unit`: messages or bytes. -/
structure NetworkSyscall where
  ts : UInt64
  startTs : UInt64
  duration : UInt64
  syscall : SyscallKind
  callId : UInt64
  tid : UInt32
  tgid : UInt32
  uid : UInt32
  fd : Int32
  flags : UInt32
  requestedBytes : UInt64
  requestedValid : Bool
  abi : UInt8
  batch : Bool
  requestedMessages : UInt32
  result : Int64
  bytes : UInt64
  error : UInt64
  incomplete : Bool
  socketId : UInt64
  flowId : UInt64
  flowTag : Option FlowTag
  wakeup : Wakeup
  deriving DecidableEq, Repr

/-- The fields of a `trace_end` record. -/
structure TraceEnd where
  ts : UInt64
  eventCount : UInt64
  exportedEvents : UInt64
  lostEvents : UInt64
  queueLostEvents : UInt64
  deriving DecidableEq, Repr

/-- A line of the JSONL file. -/
inductive Record where
  | socketFlowLink (fields : SocketFlowLink)
  | flowStart (fields : FlowStart)
  | flowEnd (fields : FlowEnd)
  | ioStart (fields : IoStart)
  | ioEnd (fields : IoEnd)
  | ioComplete (fields : IoComplete)
  | packetIoLink (fields : PacketIoLink)
  | networkSyscall (fields : NetworkSyscall)
  | traceEnd (fields : TraceEnd)
  deriving DecidableEq, Repr

/-! ## State -/

/-- The static variables of the exporter. `flowCapacity` and `ioCapacity` are the allocated sizes
of the two growing tables, and `out` is the JSONL file. -/
structure State where
  flows : List FlowState
  flowCapacity : Nat
  flowSerial : UInt64
  tcpFlowCount : UInt32
  udpFlowCount : UInt32
  dnsFlowCount : UInt32
  ios : List PendingIo
  ioCapacity : Nat
  syscalls : List SyscallSlot
  exportedEvents : UInt64
  lostEvents : UInt64
  queueLostEvents : UInt64
  captureEndNs : UInt64
  out : List Record

/-- The state after the export is opened. -/
def State.init : State :=
  ⟨[], 0, 0, 0, 0, 0, [], 0, [], 0, 0, 0, 0, []⟩

def State.setFlow (state : State) (flow : Nat) (change : FlowState → FlowState) : State :=
  { state with flows := state.flows.modify flow change }

/-- Change the I/O that a pointer designates. -/
def State.setIo (state : State) (io : Nat) (change : PendingIo → PendingIo) : State :=
  { state with ios := state.ios.modify io change }

end Anettrace.Export
