import Anettrace.Export.TupleIdentity

/-!
# The packet filter

The filter of `src/progs/skb_parse.h`, and the options of `src/anettrace.c` that it is made from. A
packet is parsed from its headers, a socket from its fields, and a packet without headers from its
socket and what the socket knows of it. Each of the three parsers tests the filter for itself.
Fields of the network are kept as they lie in memory; reads of kernel memory succeed.
-/

namespace Anettrace.Filter

open Export (ethPIp ethPIpv6 ipprotoTcp ipprotoUdp ipprotoIcmp ipprotoIcmpv6 ntohs Transport)

/-! ## The filter -/

/-- An IPv6 address: four words. -/
abbrev Ipv6 := Vector UInt32 4

/-- `pkt_args_t` -/
structure PktArgs where
  saddr : UInt32
  daddr : UInt32
  addr : UInt32
  pktLen1 : UInt32
  pktLen2 : UInt32
  saddrV6 : Ipv6
  daddrV6 : Ipv6
  addrV6 : Ipv6
  sport : UInt16
  dport : UInt16
  port : UInt16
  l3Proto : UInt16
  l4Proto : UInt8
  tcpFlags : UInt8
  saddrV6Enable : Bool
  daddrV6Enable : Bool
  addrV6Enable : Bool
  deriving DecidableEq, Repr

/-- The filter that accepts everything. -/
def PktArgs.zero : PktArgs where
  saddr := 0
  daddr := 0
  addr := 0
  pktLen1 := 0
  pktLen2 := 0
  saddrV6 := Vector.replicate 4 0
  daddrV6 := Vector.replicate 4 0
  addrV6 := Vector.replicate 4 0
  sport := 0
  dport := 0
  port := 0
  l3Proto := 0
  l4Proto := 0
  tcpFlags := 0
  saddrV6Enable := false
  daddrV6Enable := false
  addrV6Enable := false

/-- An address as `inet_pton` leaves it in an option's buffer. -/
inductive IpAddress where
  | v4 (address : UInt32)
  | v6 (address : Ipv6)
  deriving DecidableEq, Repr

/-- `saddr_pf`, `daddr_pf` and `addr_pf` of an option that is given. -/
def IpAddress.family : IpAddress → UInt16
  | .v4 _ => ethPIp
  | .v6 _ => ethPIpv6

/-- The value of `--proto` and its layer. -/
inductive Proto where
  | l3 (value : UInt16)
  | l4 (value : UInt16)
  deriving DecidableEq, Repr

/-- The options for addresses, ports and protocols. A port that is not given is zero. -/
structure Options where
  saddr : Option IpAddress
  daddr : Option IpAddress
  addr : Option IpAddress
  sport : UInt16
  dport : UInt16
  port : UInt16
  proto : Option Proto
  deriving DecidableEq, Repr

/-- The test and the assignment of `l3_proto` in `FILL_ADDR_PROTO`. -/
def PktArgs.setL3Proto (args : PktArgs) (pf : UInt16) : Option PktArgs :=
  if args.l3Proto ≠ 0 ∧ args.l3Proto ≠ pf then none else some { args with l3Proto := pf }

/-- `FILL_ADDR`, with the two fields that it writes to. -/
def fillAddr (setV4 : PktArgs → UInt32 → PktArgs) (setV6 : PktArgs → Ipv6 → PktArgs)
    (option : Option IpAddress) (args : PktArgs) : Option PktArgs :=
  match option with
  | none => some args
  | some (.v4 address) => (setV4 args address).setL3Proto ethPIp
  | some (.v6 address) => (setV6 args address).setL3Proto ethPIpv6

def fillSaddr : Option IpAddress → PktArgs → Option PktArgs :=
  fillAddr (fun args address => { args with saddr := address })
    fun args address => { args with saddrV6 := address }

def fillDaddr : Option IpAddress → PktArgs → Option PktArgs :=
  fillAddr (fun args address => { args with daddr := address })
    fun args address => { args with daddrV6 := address }

def fillEither : Option IpAddress → PktArgs → Option PktArgs :=
  fillAddr (fun args address => { args with addr := address })
    fun args address => { args with addrV6 := address }

/-- The ports and the protocol of the options. -/
def Options.start (options : Options) : PktArgs :=
  { PktArgs.zero with
    sport := options.sport
    dport := options.dport
    port := options.port
    l3Proto := match options.proto with | some (.l3 value) => value | _ => 0
    l4Proto := match options.proto with | some (.l4 value) => value.toUInt8 | _ => 0 }

/-- The filter of the options, or the error of two families. -/
def Options.filter (options : Options) : Option PktArgs := do
  let args ← fillSaddr options.saddr options.start
  let args ← fillDaddr options.daddr args
  let args ← fillEither options.addr args
  -- set for an address of either family
  some { args with
    saddrV6Enable := options.saddr.isSome
    daddrV6Enable := options.daddr.isSome
    addrV6Enable := options.addr.isSome }

/-- `filter_check`, of the fields of two protocols. -/
def filterL3 (args : Option PktArgs) (value : UInt16) : Bool :=
  match args with
  | none => false
  | some args => args.l3Proto != 0 && args.l3Proto != value

def filterL4 (args : Option PktArgs) (value : UInt8) : Bool :=
  match args with
  | none => false
  | some args => args.l4Proto != 0 && args.l4Proto != value

def anyAddr (args : Option PktArgs) : Bool :=
  match args with
  | none => false
  | some args => args.addr != 0 || args.saddr != 0 || args.daddr != 0

def anyAddrV6 (args : Option PktArgs) : Bool :=
  match args with
  | none => false
  | some args => args.addrV6[0] != 0 || args.saddrV6[0] != 0 || args.daddrV6[0] != 0

def anyPort (args : Option PktArgs) : Bool :=
  match args with
  | none => false
  | some args => args.port != 0 || args.sport != 0 || args.dport != 0

def filterIpv6Check (args : Option PktArgs) (saddr daddr : Ipv6) : Bool :=
  match args with
  | none => false
  | some args =>
      (args.saddrV6Enable && args.saddrV6 != saddr) ||
        (args.daddrV6Enable && args.daddrV6 != daddr) ||
        (args.addrV6Enable && args.addrV6 != daddr && args.addrV6 != saddr)

def filterIpv4Check (args : Option PktArgs) (saddr daddr : UInt32) : Bool :=
  match args with
  | none => false
  | some args =>
      (args.saddr != 0 && args.saddr != saddr) || (args.daddr != 0 && args.daddr != daddr) ||
        (args.addr != 0 && args.addr != daddr && args.addr != saddr)

def filterPort (args : Option PktArgs) (sport dport : UInt16) : Bool :=
  match args with
  | none => false
  | some args =>
      (args.sport != 0 && args.sport != sport) || (args.dport != 0 && args.dport != dport) ||
        (args.port != 0 && args.port != dport && args.port != sport)

/-! ## Headers -/

/-- `struct iphdr` -/
structure Ipv4Header where
  first : UInt8
  totLen : UInt16
  id : UInt16
  protocol : UInt8
  saddr : UInt32
  daddr : UInt32
  deriving DecidableEq, Repr

/-- `struct ipv6hdr` -/
structure Ipv6Header where
  nexthdr : UInt8
  saddr : Ipv6
  daddr : Ipv6
  deriving DecidableEq, Repr

/-- What the parsers read at a transport header, by the structure they read it with. -/
structure L4Header where
  /-- The first two fields of `struct tcphdr` and `struct udphdr`. -/
  source : UInt16
  dest : UInt16
  seq : UInt32
  ackSeq : UInt32
  /-- Byte 13 of a TCP header. -/
  flags : UInt8
  udpLen : UInt16
  /-- The word behind a UDP header, if it can be read. -/
  behindUdp : Option UInt16
  icmpType : UInt8
  icmpCode : UInt8
  icmpSequence : UInt16
  icmpId : UInt16
  espSpi : UInt32
  espSeq : UInt32
  deriving DecidableEq, Repr

/-- `struct arphdr_all` -/
structure ArpHeader where
  op : UInt16
  sha : List UInt8
  sip : UInt32
  tha : List UInt8
  tip : UInt32
  deriving DecidableEq, Repr

/-- `struct sk_buff`: its offsets from `head`, the headers that can be read there, and its control
block. -/
structure Skb where
  networkHeader : UInt16
  transportHeader : UInt16
  ipv4At : Nat → Ipv4Header
  ipv6At : Nat → Ipv6Header
  arpAt : Nat → ArpHeader
  l4At : Nat → L4Header
  cbSeq : UInt32
  cbTcpFlags : UInt8

/-- The union `l4` of `packet_t`. -/
inductive L4Fields where
  | none
  | tcp (sport dport : UInt16) (seq ack : UInt32) (flags : UInt8)
  | udp (sport dport : UInt16) (dnsTransactionId : Option UInt16)
  | icmp (type code : UInt8) (seq id : UInt16)
  | arp (op : UInt16) (source dest : List UInt8)
  | esp (spi seq : UInt32)
  deriving DecidableEq, Repr

/-- The union `l3` of `packet_t`. -/
inductive L3Fields where
  | none
  | ipv4 (saddr daddr : UInt32) (id : UInt16)
  | ipv6 (saddr daddr : Ipv6)
  deriving DecidableEq, Repr

/-- `packet_t` -/
structure Packet where
  l3 : L3Fields
  l4 : L4Fields
  protoL3 : UInt16
  protoL4 : UInt8
  ipIdValid : Bool
  deriving DecidableEq, Repr

def getIpHeaderLen (first : UInt8) : Nat := max ((first &&& 0x0f).toNat * 4) 20

def skbL4WasSet (transportHeader : UInt16) : Bool := transportHeader != 0xffff

/-- The transport header that `probe_parse_l3` parses, with the length of the network header. -/
def l4Offset (skb : Skb) (l3 headerLen : Nat) : Nat :=
  if skbL4WasSet skb.transportHeader && skb.networkHeader < skb.transportHeader then
    skb.transportHeader.toNat
  else l3 + headerLen

/-- Where the kernel keeps the protocol of a socket: in a field of two bytes, or in a word of
flags. -/
inductive SkProtocol where
  | field (value : UInt16)
  | flags (word : UInt32)
  deriving DecidableEq, Repr

/-- The protocol of a socket. Without a field it is `sk_get_protocol`, on a little-endian kernel. -/
def SkProtocol.read : SkProtocol → UInt8
  | .field value => value.toUInt8
  | .flags word => ((word <<< 16) >>> 24).toUInt8

/-- `struct sock` and the structures around it. -/
structure Sock where
  family : UInt16
  rcvSaddr : UInt32
  daddr : UInt32
  v6RcvSaddr : Ipv6
  v6Daddr : Ipv6
  num : UInt16
  dport : UInt16
  protocol : SkProtocol
  state : UInt8
  receiveQlen : UInt32
  writeQlen : UInt32
  packetsOut : UInt32
  retransOut : UInt32
  sndUna : UInt32
  rcvNxt : UInt32
  caState : UInt8
  pending : UInt8
  deriving DecidableEq, Repr

def afInet : UInt16 := 2

def afInet6 : UInt16 := 10

/-- What the running kernel offers: `struct inet_connection_sock`, and the time left on the timer of
a socket, if it and the clock can be read. -/
structure Kernel where
  inetConnectionSock : Bool
  timeLeft : Sock → Option UInt32

def sockL4Proto (sk : Sock) : UInt8 :=
  if sk.protocol.read = 0 then ipprotoTcp else sk.protocol.read

/-- The ports of `pkt->l4`, which TCP and UDP keep in the same place. -/
def L4Fields.ports : L4Fields → UInt16 × UInt16
  | .tcp sport dport _ _ _ => (sport, dport)
  | .udp sport dport _ => (sport, dport)
  | _ => (0, 0)

end Anettrace.Filter
