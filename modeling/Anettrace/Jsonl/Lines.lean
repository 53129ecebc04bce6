import Anettrace.Jsonl.Records

/-!
# The formats of the lines

The members that the formats of `src/perfetto_export.c` put behind the schema, in their order.
-/

namespace Anettrace.Jsonl

open Library Export

/-! ## Formats without addresses -/

def clockSnapshotMembers (fields : ClockSnapshot) : List Member :=
  [("type", constant "clock_snapshot"), ("monotonic_ns", u64 fields.monotonicNs),
    ("boottime_ns", u64 fields.boottimeNs), ("realtime_ns", u64 fields.realtimeNs)] ++
  if fields.traceTags then [("trace_tags", .flag true)] else []

/-- `export_probe_status`, of the `char name[64]` of a probe to a `char probe[sizeof(trace->name) *
2 + 1]`. -/
def probeStatusMembers (ts : UInt64) (probe : List UInt8) : List Member :=
  [("type", constant "probe_status"), ("ts_ns", u64 ts), ("probe", .escaped probe 64 (64 * 2 + 1)),
    ("status", constant "unavailable"), ("reason", constant "ambiguous_symbol"),
    ("coverage", constant "degraded")]

def socketFlowLinkMembers (flow : FlowState) (ts : UInt64) : List Member :=
  [("type", constant "socket_flow_link"), ("ts_ns", u64 ts), ("socket_id", hex16 flow.socketId),
    ("flow_id", hex16 flow.id), ("flow_tag", .plain (tagText (formatFlowLabel flow))),
    ("owner_tid", u32 flow.ownerTid), ("owner_tgid", u32 flow.ownerTgid),
    ("owner_uid", u32 flow.ownerUid), ("task", name16 flow.task),
    ("evidence", constant "socket_instance")]

/-- `pending_io_emit_start` -/
def ioStartMembers (fields : IoStart) (task : List UInt8) : List Member :=
  [("type", constant (startType fields.tx)), ("ts_ns", u64 fields.ts),
    ("stage", constant fields.stage), ("socket_id", hex16 fields.socketId),
    ("flow_id", hex16 fields.flowId), ("flow_tag", flowTag fields.flowTag),
    ("protocol", constant (protocolText fields.protocol)), ("cpu", .signed fields.cpu),
    ("tid", u32 fields.tid), ("tgid", u32 fields.tgid), ("uid", u32 fields.uid),
    ("task", name16 task), ("owner_tid", u32 fields.ownerTid), ("owner_tgid", u32 fields.ownerTgid),
    ("owner_uid", u32 fields.ownerUid), ("io_id", hex16 fields.ioId),
    ("call_id", hex16 fields.callId)]

/-- The `*_end` line of `pending_io_finish`. -/
def ioEndMembers (fields : IoEnd) : List Member :=
  [("type", constant (endType fields.tx)), ("ts_ns", u64 fields.ts),
    ("stage", constant fields.stage), ("tid", u32 fields.tid), ("socket_id", hex16 fields.socketId),
    ("flow_id", hex16 fields.flowId), ("flow_tag", flowTag fields.flowTag),
    ("result", s64 fields.result), ("bytes", u64 fields.bytes), ("error", u64 fields.error),
    ("incomplete", .flag fields.incomplete), ("io_id", hex16 fields.ioId),
    ("call_id", hex16 fields.callId),
    ("association", constant (associationText fields.association))]

/-- The `io_complete` line of `pending_io_finish`. -/
def ioCompleteMembers (fields : IoComplete) : List Member :=
  [("type", constant "io_complete"), ("ts_ns", u64 fields.ts), ("io_id", hex16 fields.ioId),
    ("call_id", hex16 fields.callId), ("socket_id", hex16 fields.socketId),
    ("flow_id", hex16 fields.flowId), ("flow_tag", flowTag fields.flowTag), ("tid", u32 fields.tid),
    ("tgid", u32 fields.tgid), ("direction", constant (callDirection fields.tx)),
    ("result", s64 fields.result), ("bytes", u64 fields.bytes), ("error", u64 fields.error),
    ("incomplete", .flag fields.incomplete),
    ("association", constant (associationText fields.association))]

def packetIoLinkMembers (fields : PacketIoLink) : List Member :=
  [("type", constant "packet_io_link"), ("ts_ns", u64 fields.ts), ("io_id", hex16 fields.ioId),
    ("call_id", hex16 fields.callId), ("packet_id", hex16 fields.packetId),
    ("flow_id", hex16 fields.flowId), ("socket_id", hex16 fields.socketId),
    ("flow_tag", flowTag fields.flowTag), ("tid", u32 fields.tid), ("tgid", u32 fields.tgid),
    ("direction", constant (callDirection fields.tx)), ("offset", u32 fields.offset),
    ("copy_bytes", u32 fields.copyBytes), ("evidence", constant (linkEvidenceText fields.evidence))]

def syscallWakeupMembers (wakeup : Wakeup) : List Member :=
  if wakeup.wakeupStatus = 0 then []
  else
    ("wakeup_status", constant (networkWakeupStatus wakeup.wakeupStatus)) ::
    if wakeup.wakeupStatus ≠ 2 ∧ wakeup.wakeupStatus ≠ 3 then []
    else
      [("run_start_ts_ns", u64 wakeup.runStartTs), ("run_cpu", u32 wakeup.runCpu)] ++
      if wakeup.wakeupStatus ≠ 2 then []
      else
        [("waking_ts_ns", u64 wakeup.wakingTs), ("wakeup_ts_ns", u64 wakeup.wakeupTs),
          ("waking_cpu", u32 wakeup.wakingCpu),
          ("waking_context", constant (networkWakingContext wakeup.wakingContext))] ++
        ((if wakeup.wakingContext ≠ 0 then [("waking_preempt_count", u32 wakeup.wakingPreemptCount)]
          else []) ++
        if wakeup.wakingContext = 1 then
          [("waker_tid", u32 wakeup.wakerTid), ("waker_tgid", u32 wakeup.wakerTgid),
            ("waker_task", name16 wakeup.wakerTask),
            ("waker_start_time_ns", u64 wakeup.wakerStartTime)]
        else [])

def networkSyscallMembers (fields : NetworkSyscall) : List Member :=
  [("type", constant "network_syscall"), ("ts_ns", u64 fields.ts),
    ("start_ts_ns", u64 fields.startTs),
    ("duration_ns", u64 fields.duration), ("syscall", constant (syscallName fields.syscall)),
    ("call_id", hex16 fields.callId), ("tid", u32 fields.tid), ("tgid", u32 fields.tgid),
    ("uid", u32 fields.uid), ("fd", .signed fields.fd.toInt), ("flags", u32 fields.flags),
    ("requested_bytes", u64 fields.requestedBytes),
    ("requested_valid", .flag fields.requestedValid), ("abi", u8 fields.abi),
    ("result_unit", constant (resultUnit fields.batch)),
    ("requested_messages", u32 fields.requestedMessages), ("result", s64 fields.result),
    ("bytes", u64 fields.bytes), ("error", u64 fields.error),
    ("incomplete", .flag fields.incomplete), ("socket_id", hex16 fields.socketId),
    ("flow_id", hex16 fields.flowId), ("flow_tag", flowTag fields.flowTag)] ++
  syscallWakeupMembers fields.wakeup

def socketCreateMembers (fields : SocketCreate) : List Member :=
  [("type", constant "socket_create"), ("start_ts_ns", u64 fields.startTs),
    ("ts_ns", u64 fields.ts),
    ("socket_id", hex16 fields.socketId), ("cpu", .signed fields.cpu), ("tid", u32 fields.tid),
    ("tgid", u32 fields.tgid), ("uid", u32 fields.uid), ("task", name16 fields.task)]

def socketSnapshotMembers (protoL4 : UInt8) (snapshot : SocketSnapshot) : List Member :=
  [("state", u8 snapshot.state), ("wqlen", u32 snapshot.wqlen), ("rqlen", u32 snapshot.rqlen)] ++
  if protoL4 = ipprotoTcp then
    [("state_name", constant (tcpStateName snapshot.state.toNat)),
      ("packets_out", u32 snapshot.packetsOut),
      ("retrans_out", u32 snapshot.retransOut), ("snd_una", u32 snapshot.sndUna)]
  else []

/-- `perfetto_export_lost` -/
def lostEventsMembers (ts : UInt64) (cpu : Int) (count : UInt64) : List Member :=
  [("type", constant "lost_events"), ("ts_ns", u64 ts), ("cpu", .signed cpu), ("count", u64 count)]

/-- The `rx_context` line of `perfetto_export_close`. -/
def rxContextMembers (fields : RxContextRecord) : List Member :=
  [("type", constant "rx_context"), ("ts_ns", u64 fields.ts),
    ("replayed_events", u64 fields.replayed),
    ("expired_events", u64 fields.expired), ("capacity_dropped_events", u64 fields.capacityDropped),
    ("unresolved_events", u64 fields.unresolved)]

/-- The `trace_end` line of `perfetto_export_close`. -/
def traceEndMembers (fields : TraceEnd) : List Member :=
  [("type", constant "trace_end"), ("ts_ns", u64 fields.ts), ("event_count", u64 fields.eventCount),
    ("exported_events", u64 fields.exportedEvents), ("lost_events", u64 fields.lostEvents),
    ("queue_lost_events", u64 fields.queueLostEvents)]

/-! ## Formats with addresses -/

section Addresses

variable (inetNtop : Address → List Char)

/-- The text of an address: the buffer stays empty where `inet_ntop` is not called. -/
def addressText : Address → List Char
  | .none => []
  | address => inetNtop address

/-- An address in a line. -/
def address (address : Address) : Field := .plain (addressText inetNtop address)

/-- The address of the source, after `packet_addresses` or `socket_addresses`. -/
def saddr (endpoints : Endpoints) : Field := address inetNtop (packetAddresses endpoints).1

/-- The address of the destination. -/
def daddr (endpoints : Endpoints) : Field := address inetNtop (packetAddresses endpoints).2

def flowStartMembers (flow : FlowState) : List Member :=
  [("type", constant "flow_start"), ("ts_ns", u64 flow.firstTs), ("flow_id", hex16 flow.id),
    ("flow_tag", .plain (tagText (formatFlowLabel flow))),
    ("protocol", constant (protocolText (flowProtocolName flow))),
    ("socket_id", hex16 flow.socketId), ("owner_tid", u32 flow.ownerTid),
    ("owner_tgid", u32 flow.ownerTgid), ("owner_uid", u32 flow.ownerUid),
    ("task", name16 flow.task), ("local_addr", address inetNtop flow.localAddr),
    ("local_port", u16 flow.localPort), ("remote_addr", address inetNtop flow.remoteAddr),
    ("remote_port", u16 flow.remotePort), ("netns", u32 flow.netns),
    ("tuple_id", hex16 flow.tupleId), ("start_reason", constant "first_observed")]

/-- `flow_finish`, once it settled on the end time. -/
def flowEndMembers (flow : FlowState) (endTs : UInt64) (reason : EndReason) (incomplete : Bool) :
    List Member :=
  [("type", constant "flow_end"), ("ts_ns", u64 endTs), ("first_ts_ns", u64 flow.firstTs),
    ("last_ts_ns", u64 flow.lastTs), ("duration_ns", u64 (endTs - flow.firstTs)),
    ("flow_id", hex16 flow.id), ("flow_tag", .plain (tagText (formatFlowLabel flow))),
    ("protocol", constant (protocolText (flowProtocolName flow))),
    ("socket_id", hex16 flow.socketId), ("byte_scope", constant "application_payload"),
    ("tx_bytes", u64 flow.txBytes), ("rx_bytes", u64 flow.rxBytes),
    ("tx_packets", u64 flow.txPackets), ("rx_packets", u64 flow.rxPackets),
    ("owner_tid", u32 flow.ownerTid), ("owner_tgid", u32 flow.ownerTgid),
    ("owner_uid", u32 flow.ownerUid), ("task", name16 flow.task),
    ("local_addr", address inetNtop flow.localAddr), ("local_port", u16 flow.localPort),
    ("remote_addr", address inetNtop flow.remoteAddr), ("remote_port", u16 flow.remotePort),
    ("end_reason", constant (endReasonText reason)), ("incomplete", .flag incomplete)]

def socketStateMembers (fields : SocketState) : List Member :=
  [("type", constant "socket_state"), ("ts_ns", u64 fields.ts),
    ("socket_id", hex16 fields.socketId),
    ("flow_id", hex16 fields.flowId), ("flow_tag", flowTag fields.flowTag),
    ("cpu", .signed fields.cpu), ("tid", u32 fields.tid), ("tgid", u32 fields.tgid),
    ("uid", u32 fields.uid), ("task", name16 fields.task), ("old_state", .signed fields.oldState),
    ("old_state_name", constant (tcpStateName fields.oldState)),
    ("new_state", .signed fields.newState),
    ("new_state_name", constant (tcpStateName fields.newState)),
    ("terminal", .flag (fields.newState = 7)), ("proto_l4", u8 fields.ske.protoL4),
    ("saddr", saddr inetNtop fields.ske), ("sport", u16 (ntohs fields.ske.sport)),
    ("daddr", daddr inetNtop fields.ske), ("dport", u16 (ntohs fields.ske.dport))] ++
  socketSnapshotMembers fields.ske.protoL4 fields.snapshot

/-- The end of `export_socket_event`. -/
def socketExtraMembers (fields : SocketEvent) : List Member :=
  if fields.trace.name ∈ ["tcp_v4_send_reset", "tcp_v6_send_reset", "tcp_send_active_reset"] ∧
      fields.resetReason.isSome then
    [("reset_reason", u32 (fields.resetReason.getD 0))]
  else if fields.trace.name = "tcp_ack_update_rtt" ∧ fields.rtt.isSome then
    [("first_rtt_us", u32 (fields.rtt.getD (0, 0)).1),
      ("last_rtt_us", u32 (fields.rtt.getD (0, 0)).2)]
  else []

def socketEventMembers (fields : SocketEvent) : List Member :=
  [("type", constant "socket_event"), ("ts_ns", u64 fields.ts),
    ("socket_id", hex16 fields.socketId),
    ("flow_id", hex16 fields.flowId), ("flow_tag", flowTag fields.flowTag),
    ("stage",
      constant (eventStage fields.context fields.trace fields.pkt fields.ske fields.tcpFlags)),
    ("terminal", .flag (socketTraceTerminal fields.trace)), ("cpu", .signed fields.cpu),
    ("tid", u32 fields.tid), ("tgid", u32 fields.tgid), ("uid", u32 fields.uid),
    ("task", name16 fields.task), ("direction", constant (directionName fields.direction)),
    ("owner_valid", .flag (fields.owner.valid ≠ 0)), ("owner_tid", u32 fields.owner.tid),
    ("owner_tgid", u32 fields.owner.tgid), ("owner_uid", u32 fields.owner.uid),
    ("owner_socket_id", hex16 fields.owner.socketId), ("ifname", name16 fields.ifname),
    ("proto_l4", u8 fields.ske.protoL4), ("saddr", saddr inetNtop fields.ske),
    ("sport", u16 (ntohs fields.ske.sport)), ("daddr", daddr inetNtop fields.ske),
    ("dport", u16 (ntohs fields.ske.dport))] ++
  (socketSnapshotMembers fields.ske.protoL4 fields.snapshot ++ socketExtraMembers fields)

def packetIsIcmpEcho (fields : PacketEvent) : Bool :=
  (fields.pkt.protoL4 = ipprotoIcmp && (fields.icmpType = 8 || fields.icmpType = 0)) ||
    (fields.pkt.protoL4 = ipprotoIcmpv6 && (fields.icmpType = 128 || fields.icmpType = 129))

/-- What `export_packet_event` prints of ports or of an ICMP header. -/
def packetPortMembers (fields : PacketEvent) : List Member :=
  if fields.pkt.protoL4 = ipprotoIcmp ∨ fields.pkt.protoL4 = ipprotoIcmpv6 then
    [("icmp_type", u8 fields.icmpType), ("icmp_code", u8 fields.icmpCode)] ++
    if packetIsIcmpEcho fields then
      [("icmp_id", u16 (ntohs fields.icmpId)), ("icmp_seq", u16 (ntohs fields.icmpSeq))]
    else []
  else [("sport", u16 (ntohs fields.pkt.sport)), ("dport", u16 (ntohs fields.pkt.dport))]

/-- What `export_packet_event` prints of the header of the protocol. -/
def packetHeaderMembers (fields : PacketEvent) : List Member :=
  if fields.pkt.protoL4 = ipprotoTcp then
    [("tcp_seq", u32 fields.tcpSeq), ("tcp_ack", u32 fields.tcpAck),
      ("tcp_flags", u8 fields.tcpFlags)]
  else if fields.pkt.protoL4 = ipprotoUdp ∧ fields.dnsTransactionIdValid ≠ 0 then
    [("dns_transaction_id", u16 fields.dnsTransactionId),
      ("dns_transaction_id_hex", hex4 fields.dnsTransactionId)]
  else []

/-- What `export_packet_event` prints of a dropped packet. -/
def packetDropMembers (drop : PacketDrop) : List Member :=
  [("drop_reason", u32 drop.reason), ("drop_location_id", hex16 drop.locationId)]

/-- What `export_packet_event` prints of a queueing discipline. -/
def qdiscMembers (qdisc : Qdisc) : List Member :=
  [("qdisc_qlen", u32 qdisc.qlen), ("netdev_queue_state", u32 qdisc.state),
    ("qdisc_flags", u32 qdisc.flags)] ++
  (qdisc.lastUpdate.map fun lastUpdate => [("qdisc_last_update_jiffies", u64 lastUpdate)]).getD []

def packetEventMembers (fields : PacketEvent) : List Member :=
  [("type", constant "packet_event"), ("ts_ns", u64 fields.ts),
    ("packet_id", hex16 fields.packetId),
    ("skb_id", hex16 fields.skbId), ("flow_id", hex16 fields.flowId),
    ("flow_tag", packetTag fields.flowTag), ("socket_id", hex16 fields.socketId),
    ("io_id", hex16 fields.ioId), ("call_id", hex16 fields.callId),
    ("stage",
      constant (eventStage fields.context fields.trace fields.pkt fields.ske fields.tcpFlags)),
    ("terminal", .flag (packetTraceTerminal fields.trace)), ("dropped", .flag fields.trace.drop),
    ("flow_anchor",
      .flag (flowPacketAnchor fields.context fields.trace fields.pkt.protoL4 fields.direction)),
    ("cpu", .signed fields.cpu), ("tid", u32 fields.tid), ("tgid", u32 fields.tgid),
    ("uid", u32 fields.uid), ("task", name16 fields.task), ("ifname", name16 fields.ifname),
    ("direction", constant (directionName fields.direction)),
    ("owner_valid", .flag (fields.owner.valid ≠ 0)), ("owner_tid", u32 fields.owner.tid),
    ("owner_tgid", u32 fields.owner.tgid), ("owner_uid", u32 fields.owner.uid),
    ("owner_socket_id", hex16 fields.owner.socketId), ("ifindex", u32 fields.ifindex),
    ("netns", u32 fields.netns), ("proto_l3", u16 fields.pkt.protoL3),
    ("proto_l4", u8 fields.pkt.protoL4), ("saddr", saddr inetNtop fields.pkt),
    ("daddr", daddr inetNtop fields.pkt), ("mark", u32 fields.mark)] ++
  ((if fields.ownerEvidence ≠ 0 then
      [("owner_evidence", constant (ownerEvidence fields.ownerEvidence))]
    else []) ++
  (packetPortMembers fields ++
  ((if fields.ioRole = 4 then [("io_evidence", constant "stored_submission_context")] else []) ++
  ((if fields.ioMultiple ≠ 0 then [("submission_association", constant "multiple_calls")]
    else []) ++
  ((if fields.pkt.protoL3 = ethPIp ∧ fields.ipIdValid ≠ 0 then
      [("ip_id", u16 fields.ipId), ("ip_id_hex", hex4 fields.ipId)]
    else []) ++
  (packetHeaderMembers fields ++
  ((if fields.trace.drop ∧ fields.trace.name = "kfree_skb" then
    (fields.drop.map packetDropMembers).getD []
    else []) ++
  (if fields.trace.name = "qdisc_enqueue" ∨ fields.trace.name = "qdisc_dequeue" then
      (fields.qdisc.map qdiscMembers).getD []
    else []))))))))

/-- The line of `export_connect_event` for a start. -/
def connectAttemptStartMembers (salt : UInt64) (connect : ConnectRecord) : List Member :=
  [("type", constant "connect_attempt_start"), ("ts_ns", u64 connect.ts),
    ("attempt_id", hex16 (connect.attemptId salt)), ("uid", u32 connect.uid),
    ("tid", u32 connect.tid), ("tgid", u32 connect.tgid), ("fd", .signed connect.fd.toInt),
    ("task", name16 connect.task), ("remote_addr", address inetNtop connect.remote),
    ("remote_port", u16 connect.remotePort), ("cpu", .signed connect.cpu)]

/-- `socket_id` in `export_connect_event` -/
def ConnectRecord.socketId (salt : UInt64) (connect : ConnectRecord) : UInt64 :=
  if connect.socketKey ≠ 0 then socketInstanceId salt connect.socketKey connect.socketGeneration
    else 0

/-- The line of `export_connect_event` for a socket, with the peer of the socket where no address
was given. -/
def connectSocketMembers (salt : UInt64) (connect : ConnectRecord) : List Member :=
  [("type", constant "connect_socket"), ("ts_ns", u64 connect.ts),
    ("attempt_id", hex16 (connect.attemptId salt)),
    ("socket_instance_id", hex16 (connect.socketId salt)), ("uid", u32 connect.uid),
    ("tid", u32 connect.tid), ("tgid", u32 connect.tgid), ("fd", .signed connect.fd.toInt),
    ("task", name16 connect.task), ("local_addr", saddr inetNtop connect.ske),
    ("local_port", u16 (ntohs connect.ske.sport)), ("remote_addr", address inetNtop
      (if addressText inetNtop connect.remote ≠ [] then connect.remote
        else (packetAddresses connect.ske).2)),
    ("remote_port", u16 connect.remotePort), ("cpu", .signed connect.cpu)]

/-- The line of `export_connect_event` for a result. -/
def connectAttemptEndMembers (salt : UInt64) (connect : ConnectRecord) : List Member :=
  [("type", constant "connect_attempt_end"), ("ts_ns", u64 connect.ts),
    ("attempt_id", hex16 (connect.attemptId salt)), ("result", s64 connect.result),
    ("error", u64 (resultError connect.result)), ("async_pending", .flag connect.asyncPending),
    ("cpu", .signed connect.cpu)]

/-- The line of `export_connect_event` for `SO_ERROR`. -/
def connectSoErrorMembers (salt : UInt64) (connect : ConnectRecord) : List Member :=
  [("type", constant "connect_so_error"), ("ts_ns", u64 connect.ts),
    ("attempt_id", hex16 (connect.attemptId salt)),
    ("error", s64 connect.result), ("cpu", .signed connect.cpu)]

/-- The line of `export_connect_event` for a cancelled attempt. -/
def connectCancelMembers (salt : UInt64) (connect : ConnectRecord) : List Member :=
  [("type", constant "connect_cancel"), ("ts_ns", u64 connect.ts),
    ("attempt_id", hex16 (connect.attemptId salt)),
    ("socket_instance_id", hex16 (connect.socketId salt)), ("exact", .flag true),
    ("reason", constant "socket_close"), ("cpu", .signed connect.cpu)]

def rxHandoffMembers (ready : RxHandoffRecord) : List Member :=
  [("type", constant "rx_handoff"), ("kind", constant "data_ready"), ("ts_ns", u64 ready.ts),
    ("handoff_id", hex16 ready.handoffId), ("socket_id", hex16 ready.socketId),
    ("flow_id", hex16 ready.flowId), ("flow_tag", flowTag ready.flowTag),
    ("packet_id", constant "0000000000000000"), ("stage", constant "sock_def_readable"),
    ("evidence", constant "socket_readable_callback"),
    ("packet_association", constant "unassociated"), ("tid", u32 ready.tid),
    ("tgid", u32 ready.tgid), ("uid", u32 ready.uid), ("task", name16 ready.task),
    ("cpu", .signed ready.cpu), ("netns", u32 ready.netns), ("proto_l4", u8 ready.ske.protoL4),
    ("saddr", saddr inetNtop ready.ske), ("sport", u16 (ntohs ready.ske.sport)),
    ("daddr", daddr inetNtop ready.ske), ("dport", u16 (ntohs ready.ske.dport)),
    ("owner_valid", .flag (ready.owner.valid ≠ 0)), ("owner_tid", u32 ready.owner.tid),
    ("owner_tgid", u32 ready.owner.tgid), ("owner_uid", u32 ready.owner.uid)]

end Addresses

/-! ## Lines -/

/-- A line of the file: which format is printed, and with what. -/
inductive Line where
  | clockSnapshot (fields : ClockSnapshot)
  | probeStatus (ts : UInt64) (probe : List UInt8)
  | socketFlowLink (flow : FlowState) (ts : UInt64)
  | flowStart (flow : FlowState)
  | flowEnd (flow : FlowState) (endTs : UInt64) (reason : EndReason) (incomplete : Bool)
  | ioStart (session : Session) (state : State) (protocol : ProtocolName) (pending : PendingIo)
  | ioEnd (fields : IoEnd)
  | ioComplete (fields : IoComplete)
  | packetIoLink (fields : PacketIoLink)
  | networkSyscall (fields : NetworkSyscall)
  | socketCreate (fields : SocketCreate)
  | socketState (fields : SocketState)
  | socketEvent (fields : SocketEvent)
  | packetEvent (fields : PacketEvent)
  | connectAttemptStart (salt : UInt64) (connect : ConnectRecord)
  | connectSocket (salt : UInt64) (connect : ConnectRecord)
  | connectAttemptEnd (salt : UInt64) (connect : ConnectRecord)
  | connectSoError (salt : UInt64) (connect : ConnectRecord)
  | connectCancel (salt : UInt64) (connect : ConnectRecord)
  | rxHandoff (ready : RxHandoffRecord)
  | lostEvents (ts : UInt64) (cpu : Int) (count : UInt64)
  | rxContext (fields : RxContextRecord)
  | traceEnd (fields : TraceEnd)

def Line.members (inetNtop : Address → List Char) : Line → List Member
  | .clockSnapshot fields => clockSnapshotMembers fields
  | .probeStatus ts probe => probeStatusMembers ts probe
  | .socketFlowLink flow ts => socketFlowLinkMembers flow ts
  | .flowStart flow => flowStartMembers inetNtop flow
  | .flowEnd flow endTs reason incomplete => flowEndMembers inetNtop flow endTs reason incomplete
  | .ioStart session state protocol pending =>
      ioStartMembers (ioStartRecord session state protocol pending) pending.task
  | .ioEnd fields => ioEndMembers fields
  | .ioComplete fields => ioCompleteMembers fields
  | .packetIoLink fields => packetIoLinkMembers fields
  | .networkSyscall fields => networkSyscallMembers fields
  | .socketCreate fields => socketCreateMembers fields
  | .socketState fields => socketStateMembers inetNtop fields
  | .socketEvent fields => socketEventMembers inetNtop fields
  | .packetEvent fields => packetEventMembers inetNtop fields
  | .connectAttemptStart salt connect => connectAttemptStartMembers inetNtop salt connect
  | .connectSocket salt connect => connectSocketMembers inetNtop salt connect
  | .connectAttemptEnd salt connect => connectAttemptEndMembers salt connect
  | .connectSoError salt connect => connectSoErrorMembers salt connect
  | .connectCancel salt connect => connectCancelMembers salt connect
  | .rxHandoff ready => rxHandoffMembers inetNtop ready
  | .lostEvents ts cpu count => lostEventsMembers ts cpu count
  | .rxContext fields => rxContextMembers fields
  | .traceEnd fields => traceEndMembers fields

/-- The names that a line takes from the table of the traced functions: a stage that a call was
given, or the name of a function. -/
def Line.names : Line → List String
  | .ioStart _ _ _ pending => [pending.stage]
  | .ioEnd fields => [fields.stage]
  | .socketEvent fields => [fields.trace.name]
  | .packetEvent fields => [fields.trace.name]
  | _ => []

def Line.bytes (inetNtop : Address → List Char) (line : Line) : List UInt8 :=
  lineBytes (line.members inetNtop)

def fileBytes (inetNtop : Address → List Char) (file : List Line) : List UInt8 :=
  file.flatMap fun line => line.bytes inetNtop

end Anettrace.Jsonl
