import Anettrace.Library.Numbers
import Anettrace.Shared.Trace

/-!
# Identities in the export

The hashes of `src/perfetto_export.c` that name sockets, tuples, packets and calls, and what the
exporter reads off a function name. Integers are hashed as they lie in memory on a little-endian
host.
-/

namespace Anettrace.Export

open Library

def ipprotoTcp : UInt8 := 6

def ipprotoUdp : UInt8 := 17

def ipprotoIcmp : UInt8 := 1

def ipprotoIcmpv6 : UInt8 := 58

def ethPIp : UInt16 := 0x0800

def ethPIpv6 : UInt16 := 0x86DD

def ntohs (port : UInt16) : UInt16 :=
  (port <<< 8) ||| (port >>> 8)

def hashBytes (hash : UInt64) (data : List UInt8) : UInt64 :=
  data.foldl (fun hash byte => (hash ^^^ byte.toUInt64) * 1099511628211) hash

def hashU64 (hash value : UInt64) : UInt64 :=
  hashBytes hash (littleEndian 8 value.toNat)

def hashU32 (hash : UInt64) (value : UInt32) : UInt64 :=
  hashBytes hash (littleEndian 4 value.toNat)

def hashU16 (hash : UInt64) (value : UInt16) : UInt64 :=
  hashBytes hash (littleEndian 2 value.toNat)

/-- `1469598103934665603ULL ^ export_salt`. -/
def hashSeed (salt : UInt64) : UInt64 :=
  1469598103934665603 ^^^ salt

def hashKind (salt : UInt64) (kind : String) : UInt64 :=
  hashBytes (hashSeed salt) kind.toUTF8.data.toList

def objectId (salt : UInt64) (kind : String) (key : UInt64) : UInt64 :=
  hashU64 (hashKind salt kind) key

def socketInstanceId (salt key : UInt64) (generation : UInt32) : UInt64 :=
  hashU32 (hashU64 (hashKind salt "socket") key) generation

def detailSocketInstanceId (salt : UInt64) (detail : DetailEvent) : UInt64 :=
  if detail.ownerSocketKey ≠ 0 then
    socketInstanceId salt detail.ownerSocketKey detail.ownerSocketGeneration
  else
    socketInstanceId salt detail.key detail.keyGeneration

/-- The socket a packet record names, or 0: the expression shared by `detail_flow_id`,
`packet_submission_ids` and `flow_from_packet`. -/
def ownerSocketId (salt : UInt64) (detail : DetailEvent) : UInt64 :=
  if detail.ownerSocketKey ≠ 0 then
    socketInstanceId salt detail.ownerSocketKey detail.ownerSocketGeneration
  else 0

def nativeUuid (salt : UInt64) (kind : String) (first second : UInt64) : UInt64 :=
  let hash := hashU64 (hashU64 (hashKind salt kind) first) second
  if hash ≠ 0 then hash else 1

def threadWord (tgid tid : UInt32) : UInt64 :=
  (tgid.toUInt64 <<< 32) ||| tid.toUInt64

def ipv6IsV4Mapped (address : List UInt8) : Bool :=
  address.take 12 == [0, 0, 0, 0, 0, 0, 0, 0, 0, 0, 0xff, 0xff]

/-- The family and the two addresses that `packet_flow_hash` hashes. -/
def flowAddresses (pkt : Endpoints) : UInt16 × List UInt8 × List UInt8 :=
  if pkt.protoL3 = ethPIpv6 then
    let source := pkt.l3.take 16
    let dest := (pkt.l3.drop 16).take 16
    if ipv6IsV4Mapped source && ipv6IsV4Mapped dest then
      (ethPIp, source.drop 12, dest.drop 12)
    else (pkt.protoL3, source, dest)
  else (pkt.protoL3, pkt.l3.take 4, (pkt.l3.drop 4).take 4)

def packetFlowHash (salt : UInt64) (pkt : Endpoints) (reverse : Bool) : UInt64 :=
  let (protoL3, source, dest) := flowAddresses pkt
  let hash := hashU16 (hashSeed salt) protoL3
  let hash := hashBytes hash [pkt.protoL4]
  let hash := hashBytes hash (if reverse then dest else source)
  let hash := hashBytes hash (if reverse then source else dest)
  let hash := hashU16 hash (if reverse then pkt.dport else pkt.sport)
  hashU16 hash (if reverse then pkt.sport else pkt.dport)

def packetFlowId (salt : UInt64) (pkt : Endpoints) : UInt64 :=
  let forward := packetFlowHash salt pkt false
  let reverse := packetFlowHash salt pkt true
  if forward < reverse then forward else reverse

def socketFlowId (salt : UInt64) (sock : Endpoints) : UInt64 :=
  packetFlowId salt sock

def packetId (salt ts key : UInt64) (generation : UInt32) : UInt64 :=
  let hash := objectId salt "packet" key
  if generation = 0 then hashU64 hash ts else hashU32 hash generation

/-- A printed address: the empty string, or the family and bytes given to `inet_ntop`. -/
inductive Address where
  | none
  | inet (bytes : List UInt8)
  | inet6 (bytes : List UInt8)
  deriving DecidableEq, Repr, Inhabited

def ipv6Address (address : List UInt8) : Address :=
  if ipv6IsV4Mapped address then .inet (address.drop 12) else .inet6 address

/-- `packet_addresses`, and `socket_addresses` on the fields that a socket shares with a packet. -/
def packetAddresses (pkt : Endpoints) : Address × Address :=
  if pkt.protoL3 = ethPIp then (.inet (pkt.l3.take 4), .inet ((pkt.l3.drop 4).take 4))
  else if pkt.protoL3 = ethPIpv6 then
    (ipv6Address (pkt.l3.take 16), ipv6Address ((pkt.l3.drop 16).take 16))
  else (.none, .none)

/-- The C string that `strncpy` leaves in a zeroed buffer of `size` bytes whose last byte stays
zero. -/
def strncpy (source : List UInt8) (size : Nat) : List UInt8 :=
  (source.takeWhile (· ≠ 0)).take (size - 1)

/-- The loop of `json_escape`, with `out` bytes written and the rest of the source ahead. -/
def jsonEscapeFrom (size : Nat) : Nat → List UInt8 → List UInt8
  | _, [] => []
  | out, ch :: rest =>
      if ch = 0 ∨ size ≤ out + 1 then []
      else if (ch = 34 ∨ ch = 92) ∧ out + 2 < size then
        92 :: ch :: jsonEscapeFrom size (out + 2) rest
      else if 0x20 ≤ ch then ch :: jsonEscapeFrom size (out + 1) rest
      else jsonEscapeFrom size out rest

def jsonEscape (source : List UInt8) (size : Nat) : List UInt8 :=
  jsonEscapeFrom size 0 source

/-! ## Function names -/

/-- `trace_name_matches`: the name, possibly with a suffix the compiler gave it. -/
def traceNameMatches (trace : Trace) (name : String) : Bool :=
  name.toList.isPrefixOf trace.name.toList &&
    ((trace.name.toList.drop name.length).head?.all (· = '.'))

def traceIsRxRead (trace : Trace) : Bool :=
  trace.name = "tcp_recvmsg" || trace.name = "udp_recvmsg" || trace.name = "udpv6_recvmsg"

def traceIsTxWrite (trace : Trace) : Bool :=
  trace.name = "tcp_sendmsg" || trace.name = "udp_sendmsg" || trace.name = "udpv6_sendmsg"

def traceIsIo (trace : Trace) : Bool :=
  traceIsRxRead trace || traceIsTxWrite trace

def socketTraceTerminal (trace : Trace) : Bool :=
  trace.name = "tcp_v4_destroy_sock" || trace.name = "udp_destroy_sock" ||
    trace.name = "udpv6_destroy_sock"

def packetTraceTerminal (trace : Trace) : Bool :=
  trace.drop || trace.free || trace.cfree

def flowPacketSupported (pkt : Endpoints) (trace : Trace) : Bool :=
  if pkt.protoL4 ≠ ipprotoTcp ∧ pkt.protoL4 ≠ ipprotoUdp then false
  else if trace.name = "tcp_skb_entail" ∨ trace.name = "skb_entail" ∨
      trace.name = "udp_send_skb" ∨ trace.name = "udp_v6_send_skb" then false
  else pkt.sport ≠ 0 || pkt.dport ≠ 0

def flowSocketSupported (sock : Endpoints) : Bool :=
  if sock.protoL3 ≠ ethPIp ∧ sock.protoL3 ≠ ethPIpv6 then false
  else if sock.sport = 0 ∨ sock.dport = 0 then false
  else sock.protoL4 = ipprotoTcp || sock.protoL4 = ipprotoUdp

def flowPacketAnchor (context : TraceContext) (trace : Trace) (protocol : UInt8)
    (direction : Direction) : Bool :=
  if protocol ≠ ipprotoTcp ∧ protocol ≠ ipprotoUdp then false
  else
    match direction with
    | .tx =>
        if protocol = ipprotoTcp ∧ (context.traceDetail ∨ context.connectDiagnostics) then
          trace.name = "__tcp_transmit_skb"
        else trace.name = "ip_output" || trace.name = "ip6_output"
    | .rx =>
        if protocol = ipprotoTcp then trace.name = "tcp_v4_rcv" || trace.name = "tcp_v6_rcv"
        else trace.name = "udp_rcv" || trace.name = "udpv6_rcv"
    | .unknown => false

def tagEvents : List String :=
  ["sk_alloc", "inet_sock_set_state", "tcp_sendmsg", "tcp_recvmsg", "tcp_close",
    "tcp_v4_destroy_sock", "udp_destroy_sock", "udpv6_destroy_sock", "udp_sendmsg",
    "udpv6_sendmsg", "udp_recvmsg", "udpv6_recvmsg", "ip_output", "ip6_output", "tcp_v4_rcv",
    "tcp_v6_rcv", "udp_rcv", "udpv6_rcv", "icmp_rcv", "icmpv6_rcv"]

def compactEvents : List String :=
  ["sk_alloc", "inet_sock_set_state", "tcp_sendmsg", "tcp_recvmsg", "tcp_close",
    "tcp_v4_destroy_sock", "udp_destroy_sock", "udpv6_destroy_sock", "skb_consume_udp",
    "skb_copy_datagram_iter", "skb_copy_and_csum_datagram_msg", "tcp_v4_rcv", "tcp_v6_rcv",
    "tcp_queue_rcv", "tcp_data_queue_ofo", "udp_queue_rcv_skb", "udpv6_queue_rcv_skb",
    "__udp_queue_rcv_skb", "__udp_enqueue_schedule_skb", "sock_def_readable", "udp_sendmsg",
    "udpv6_sendmsg", "udp_rcv", "udpv6_rcv", "icmp_rcv", "icmpv6_rcv", "udp_recvmsg",
    "udpv6_recvmsg", "connect_sys_enter", "connect_sys_exit", "inet_stream_connect",
    "connect_tcp_retransmit", "tcp_retransmit_skb", "tcp_v4_send_reset", "tcp_v6_send_reset",
    "tcp_send_active_reset", "tcp_ack_update_rtt", "kfree_skb"]

def traceEventVisible (context : TraceContext) (trace : Trace) (detail : DetailEvent) : Bool :=
  if !context.perfetto || context.traceDetail then true
  else if context.traceTags then tagEvents.any (traceNameMatches trace)
  else if traceNameMatches trace "__tcp_transmit_skb" then context.connectDiagnostics
  else if traceNameMatches trace "ip_output" || traceNameMatches trace "ip6_output" then
    detail.pkt.protoL4 = ipprotoTcp || detail.pkt.protoL4 = ipprotoUdp ||
      detail.pkt.protoL4 = ipprotoIcmp || detail.pkt.protoL4 = ipprotoIcmpv6
  else compactEvents.any (traceNameMatches trace)

/-- The renamings of `trace_event_name` that do not look at an event, in the order of its tests. -/
def stageNames : List (String × String) :=
  [("sk_alloc", "socket create"), ("inet_sock_set_state", "TCP state change"),
    ("udp_destroy_sock", "UDP socket destroy"), ("udpv6_destroy_sock", "UDP socket destroy"),
    ("skb_copy_datagram_iter", "socket data copy to application"),
    ("skb_copy_and_csum_datagram_msg", "socket data copy to application"),
    ("skb_consume_udp", "UDP receive buffer release"), ("tcp_close", "TCP socket close"),
    ("tcp_sendmsg", "TCP write"), ("tcp_recvmsg", "TCP read"),
    ("tcp_queue_rcv", "TCP receive queue attempt"),
    ("tcp_data_queue_ofo", "TCP out-of-order queue attempt"),
    ("udp_queue_rcv_skb", "UDP receive queue attempt"),
    ("udpv6_queue_rcv_skb", "UDP receive queue attempt"),
    ("__udp_queue_rcv_skb", "UDP receive queue attempt"),
    ("__udp_enqueue_schedule_skb", "UDP receive queue attempt"),
    ("udp_sendmsg", "UDP write"), ("udpv6_sendmsg", "UDP write"),
    ("udp_recvmsg", "UDP read"), ("udpv6_recvmsg", "UDP read")]

def traceEventName (context : TraceContext) (trace : Option Trace) : String :=
  match trace with
  | none => "unknown"
  | some trace =>
      if !context.perfetto || context.traceDetail then trace.name
      else
        match stageNames.find? (fun entry => traceNameMatches trace entry.1) with
        | some entry => entry.2
        | none => trace.name

end Anettrace.Export
