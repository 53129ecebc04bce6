import Anettrace.Export.Syscall
import Anettrace.Jsonl.Model
import Anettrace.Native.Sockets

/-!
# The lines of a JSONL file

The formats of `src/perfetto_export.c`, one for each kind of record. A line holds the values that
its format prints; where a record has a type of its own already, the format is applied to that type.
`inetNtop` is the text that `inet_ntop` writes.
-/

namespace Anettrace.Jsonl

open Library Export

/-! ## Values -/

/-- `"%s"`, with a constant. -/
def constant (text : String) : Field := .plain text.toList

/-- `"%016llx"` -/
def hex16 (value : UInt64) : Field :=
  .plain (Json.hex4 (value.toNat / 2 ^ 48) ++ (Json.hex4 (value.toNat / 2 ^ 32) ++
    (Json.hex4 (value.toNat / 2 ^ 16) ++ Json.hex4 value.toNat)))

/-- `"0x%04x"` -/
def hex4 (value : UInt16) : Field := .plain ('0' :: 'x' :: Json.hex4 value.toNat)

/-- `%llu` -/
def u64 (value : UInt64) : Field := .unsigned value.toNat

def u32 (value : UInt32) : Field := .unsigned value.toNat

def u16 (value : UInt16) : Field := .unsigned value.toNat

def u8 (value : UInt8) : Field := .unsigned value.toNat

/-- `%lld` -/
def s64 (value : Int64) : Field := .signed value.toInt

/-- `"%s"`, with the name of a task or an interface: `json_escape` of a `char [16]` to a `char
[64]`. -/
def name16 (text : List UInt8) : Field := .escaped text 16 64

/-! ## Texts -/

/-- `flow_label_prefix` -/
def kindText : FlowKind → String
  | .tcp => "tcp"
  | .dns => "dns"
  | .udp => "udp"
  | .flow => "flow"

/-- `format_flow_label` -/
def tagText (tag : FlowTag) : List Char :=
  (kindText tag.kind).toList ++ '-' :: decimal tag.index.toNat

/-- `format_known_flow_label` -/
def flowTag (tag : Option FlowTag) : Field := .plain ((tag.map tagText).getD [])

/-- The label of a packet: that of its flow, or the name of its protocol. -/
inductive PacketTag where
  | icmp | icmpv6
  | flow (tag : FlowTag)

/-- `format_packet_flow_label` -/
def packetTag : PacketTag → Field
  | .icmp => constant "icmp"
  | .icmpv6 => constant "icmpv6"
  | .flow tag => .plain (tagText tag)

def protocolText : ProtocolName → String
  | .tcp => "tcp"
  | .udp => "udp"
  | .udpDns => "udp-dns"

def directionName : Direction → String
  | .tx => "tx"
  | .rx => "rx"
  | .unknown => "unknown"

/-- `type` in `pending_io_emit_start` -/
def startType (tx : Bool) : String := if tx then "tx_write_start" else "rx_read_start"

/-- `type` in `pending_io_finish` -/
def endType (tx : Bool) : String := if tx then "tx_write_end" else "rx_read_end"

def callDirection (tx : Bool) : String := if tx then "tx" else "rx"

/-- What the result of a system call counts. -/
def resultUnit (batch : Bool) : String := if batch then "messages" else "bytes"

/-- How the owner of a packet is known. -/
def ownerEvidence (evidence : UInt8) : String :=
  if evidence = 1 then "direct_socket" else "same_skb_instance"

def associationText : Association → String
  | .multipleFlows => "multiple_flows"
  | .associated => "associated"
  | .unassociated => "unassociated"

def endReasonText : EndReason → String
  | .socketDestroy => "socket_destroy"
  | .idleTimeout => "idle_timeout"
  | .traceEnd => "trace_end"

def linkEvidenceText : LinkEvidence → String
  | .submissionContext => "submission_context"
  | .copyAttempt => "copy_attempt"
  | .receiveRelease => "receive_release"

/-- `names` in `export_network_syscall`; other calls are not exported. -/
def syscallName : SyscallKind → String
  | .sendto => "sendto"
  | .recvfrom => "recvfrom"
  | .sendmsg => "sendmsg"
  | .recvmsg => "recvmsg"
  | .sendmmsg => "sendmmsg"
  | .recvmmsg => "recvmmsg"
  | .read => "read"
  | .write => "write"
  | .readv => "readv"
  | .writev => "writev"
  | .send => "send"
  | .recv => "recv"
  | .other => ""

def tcpStateNames : List String :=
  ["UNKNOWN", "ESTABLISHED", "SYN_SENT", "SYN_RECV", "FIN_WAIT1", "FIN_WAIT2", "TIME_WAIT",
    "CLOSE", "CLOSE_WAIT",
    "LAST_ACK", "LISTEN", "CLOSING"]

def tcpStateName (state : Int) : String :=
  if state < 0 then "UNKNOWN" else (tcpStateNames[state.toNat]?).getD "UNKNOWN"

def networkWakeupStatus (status : UInt8) : String :=
  if status = 0 then "disabled"
  else if status = 2 then "observed"
  else if status = 3 then "run_without_observed_wake"
  else "unknown"

def networkWakingContext (context : UInt8) : String :=
  if context = 1 then "task"
  else if context = 2 then "hardirq"
  else if context = 3 then "softirq"
  else if context = 4 then "nmi"
  else "unknown"

/-! ## Stages -/

/-- The part of `trace_event_name` for packets. -/
def packetStage (trace : Trace) (packet : Endpoints) (tcpFlags : UInt8) : String :=
  let ipOutput := traceNameMatches trace "ip_output" || traceNameMatches trace "ip6_output"
  let tx := traceNameMatches trace "__tcp_transmit_skb" || (ipOutput && packet.protoL4 = ipprotoTcp)
  let udpRcv := traceNameMatches trace "udp_rcv" || traceNameMatches trace "udpv6_rcv"
  let udp := packet.protoL4 = ipprotoUdp
  if packet.protoL4 = ipprotoIcmp ∧ (ipOutput ∨ traceNameMatches trace "icmp_rcv") then
    if ipOutput then "ICMP packet send" else "ICMP packet receive"
  else if packet.protoL4 = ipprotoIcmpv6 ∧ (ipOutput ∨ traceNameMatches trace "icmpv6_rcv") then
    if ipOutput then "ICMPv6 packet send" else "ICMPv6 packet receive"
  else if tx ∨ traceNameMatches trace "tcp_v4_rcv" ∨ traceNameMatches trace "tcp_v6_rcv" then
    -- `TCP_FLAGS_SYN`, `TCP_FLAGS_ACK`, `TCP_FLAGS_RST` and `TCP_FLAGS_FIN`
    if tcpFlags &&& 2 ≠ 0 then
      if tcpFlags &&& 16 ≠ 0 then (if tx then "TCP SYN-ACK send" else "TCP SYN-ACK receive")
      else if tx then "TCP SYN send"
      else "TCP SYN receive"
    else if tcpFlags &&& 4 ≠ 0 then (if tx then "TCP RST send" else "TCP RST receive")
    else if tcpFlags &&& 1 ≠ 0 then (if tx then "TCP FIN send" else "TCP FIN receive")
    else if tx then "TCP packet send"
    else "TCP packet receive"
  else if (ipOutput ∨ udpRcv) ∧ udp ∧ ntohs packet.sport ≠ 53 ∧ ntohs packet.dport ≠ 53 then
    if ipOutput then "UDP packet send" else "UDP packet receive"
  else if ipOutput then
    if udp ∧ ntohs packet.dport = 53 then "DNS query send" else "DNS response send"
  else if udpRcv then
    if ntohs packet.sport = 53 then "DNS response receive" else "DNS query receive"
  else trace.name

def eventStage (context : TraceContext) (trace : Trace) (packet sock : Endpoints)
    (tcpFlags : UInt8) : String :=
  if !context.perfetto ∨ context.traceDetail then trace.name
  else
    match stageNames.find? (fun entry => traceNameMatches trace entry.1) with
    | some entry =>
        if ntohs sock.sport = 53 ∨ ntohs sock.dport = 53 then
          if entry.2 = "UDP write" then "DNS write" else if entry.2 = "UDP read" then
            "DNS read" else entry.2
        else entry.2
    | none => packetStage trace packet tcpFlags

/-! ## Records without a type of their own -/

/-- The values of `write_clock_snapshot`. -/
structure ClockSnapshot where
  monotonicNs : UInt64
  boottimeNs : UInt64
  realtimeNs : UInt64
  traceTags : Bool

/-- The values of `export_socket_create`. -/
structure SocketCreate where
  startTs : UInt64
  ts : UInt64
  socketId : UInt64
  cpu : Int
  tid : UInt32
  tgid : UInt32
  uid : UInt32
  task : List UInt8

/-- The values of `export_socket_snapshot` beside the protocol. -/
structure SocketSnapshot where
  state : UInt8
  wqlen : UInt32
  rqlen : UInt32
  packetsOut : UInt32
  retransOut : UInt32
  sndUna : UInt32

/-- The values of `export_socket_state`. -/
structure SocketState where
  ts : UInt64
  socketId : UInt64
  flowId : UInt64
  flowTag : Option FlowTag
  cpu : Int
  tid : UInt32
  tgid : UInt32
  uid : UInt32
  task : List UInt8
  oldState : Int
  newState : Int
  ske : Endpoints
  snapshot : SocketSnapshot

/-- The owner of a socket or a packet, as it is printed. -/
structure Owner where
  valid : UInt8
  tid : UInt32
  tgid : UInt32
  uid : UInt32
  socketId : UInt64

/-- The values of `export_socket_event`. The round-trip times and the reason of a reset are there in
events of full size only. -/
structure SocketEvent where
  context : TraceContext
  trace : Trace
  ts : UInt64
  socketId : UInt64
  flowId : UInt64
  flowTag : Option FlowTag
  cpu : Int
  tid : UInt32
  tgid : UInt32
  uid : UInt32
  task : List UInt8
  direction : Direction
  owner : Owner
  ifname : List UInt8
  pkt : Endpoints
  ske : Endpoints
  tcpFlags : UInt8
  snapshot : SocketSnapshot
  resetReason : Option UInt32
  rtt : Option (UInt32 × UInt32)

/-- The values that `export_packet_event` prints of a dropped packet. -/
structure PacketDrop where
  reason : UInt32
  locationId : UInt64

/-- The values that `export_packet_event` prints of a queueing discipline. -/
structure Qdisc where
  qlen : UInt32
  state : UInt32
  flags : UInt32
  lastUpdate : Option UInt64

/-- The values of `export_packet_event`. Of the headers in the union `l4` those are printed that the
protocol selects. A drop and a queueing discipline are there in events of full size only. -/
structure PacketEvent where
  context : TraceContext
  trace : Trace
  ts : UInt64
  packetId : UInt64
  skbId : UInt64
  flowId : UInt64
  flowTag : PacketTag
  socketId : UInt64
  ioId : UInt64
  callId : UInt64
  cpu : Int
  tid : UInt32
  tgid : UInt32
  uid : UInt32
  task : List UInt8
  ifname : List UInt8
  direction : Direction
  owner : Owner
  ifindex : UInt32
  netns : UInt32
  pkt : Endpoints
  ske : Endpoints
  mark : UInt32
  ownerEvidence : UInt8
  icmpType : UInt8
  icmpCode : UInt8
  icmpId : UInt16
  icmpSeq : UInt16
  ioRole : UInt8
  ioMultiple : UInt8
  ipId : UInt16
  ipIdValid : UInt8
  tcpSeq : UInt32
  tcpAck : UInt32
  tcpFlags : UInt8
  dnsTransactionId : UInt16
  dnsTransactionIdValid : UInt8
  drop : Option PacketDrop
  qdisc : Option Qdisc

/-- `connect_event_t`, with the address that `connect_remote_address` prints. -/
structure ConnectRecord extends Native.ConnectEvent where
  uid : UInt32
  fd : Int32
  remote : Address
  remotePort : UInt16
  ske : Endpoints
  cpu : Int

/-- `rx_handoff_event_t`, with what `export_rx_handoff` looks up for it. -/
structure RxHandoffRecord extends Native.RxHandoff where
  handoffId : UInt64
  socketId : UInt64
  flowId : UInt64
  flowTag : Option FlowTag
  uid : UInt32
  cpu : Int
  netns : UInt32
  ske : Endpoints
  owner : Owner

/-- The values of the `rx_context` record. -/
structure RxContextRecord where
  ts : UInt64
  replayed : UInt64
  expired : UInt64
  capacityDropped : UInt64
  unresolved : UInt64

end Anettrace.Jsonl
