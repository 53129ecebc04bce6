import Anettrace.Filter.Model

/-!
# The three parsers agree

A filter made from options names at most one family, and names it as the network protocol too, so
that nothing of the other family passes any of the three parsers. On what carries a tuple each of
them decides like `accepts`, a test of the filter on the tuple itself. The parsers of a socket test
its local end as the source: a socket that receives carries the tuple the other way round, which a
filter does not tell apart only if it names no side. The parser of the headers takes the protocol
that the network header names, so that a filter that names a protocol or a port has to find the
transport header there.
-/

namespace Anettrace.Filter

open Export (ethPIp ethPIpv6 ipprotoTcp ipprotoUdp ntohs Transport)

/-! ## Tuples and what carries them -/

/-- The addresses of a tuple, as they lie in memory. -/
inductive Addresses where
  | v4 (saddr daddr : UInt32)
  | v6 (saddr daddr : Ipv6)
  deriving DecidableEq, Repr

/-- A TCP or UDP tuple. The ports are in the byte order of the network. -/
structure Tuple where
  addresses : Addresses
  transport : Transport
  sport : UInt16
  dport : UInt16
  deriving DecidableEq, Repr

/-- `ETH_P_IP` or `ETH_P_IPV6` -/
def Tuple.protoL3 (tuple : Tuple) : UInt16 :=
  match tuple.addresses with
  | .v4 _ _ => ethPIp
  | .v6 _ _ => ethPIpv6

def L4Header.Carries (header : L4Header) (tuple : Tuple) : Prop :=
  header.source = tuple.sport ∧ header.dest = tuple.dport

def Tuple.reverse (tuple : Tuple) : Tuple where
  addresses :=
    match tuple.addresses with
    | .v4 saddr daddr => .v4 daddr saddr
    | .v6 saddr daddr => .v6 daddr saddr
  transport := tuple.transport
  sport := tuple.dport
  dport := tuple.sport

/-- The network header has the given addresses. -/
def Skb.HasAddresses (skb : Skb) (l3 : Nat) : Addresses → Prop
  | .v4 saddr daddr => (skb.ipv4At l3).saddr = saddr ∧ (skb.ipv4At l3).daddr = daddr
  | .v6 saddr daddr => (skb.ipv6At l3).saddr = saddr ∧ (skb.ipv6At l3).daddr = daddr

/-- The protocol that the network header names. -/
def Skb.protocolAt (skb : Skb) (l3 : Nat) : Addresses → UInt8
  | .v4 _ _ => (skb.ipv4At l3).protocol
  | .v6 _ _ => (skb.ipv6At l3).nexthdr

/-- The transport header: behind the network header, or where the packet says it is. -/
def Skb.transportAt (skb : Skb) (l3 : Nat) : Addresses → L4Header
  | .v4 _ _ => skb.l4At (l4Offset skb l3 (getIpHeaderLen (skb.ipv4At l3).first))
  | .v6 _ _ => skb.l4At (l4Offset skb l3 40)

def Options.NamesPort (options : Options) : Prop :=
  options.port ≠ 0 ∨ options.sport ≠ 0 ∨ options.dport ≠ 0

def Options.NamesTransport (options : Options) : Prop :=
  (∃ value, options.proto = some (.l4 value)) ∨ options.NamesPort

/-- The headers of a packet are those of a tuple, as far as the options ask for them. A network
header that names an extension header in front of the transport header does for addresses. -/
structure Skb.Carries (skb : Skb) (options : Options) (l3 : Nat) (tuple : Tuple) : Prop where
  addresses : skb.HasAddresses l3 tuple.addresses
  protocol : options.NamesTransport → skb.protocolAt l3 tuple.addresses = tuple.transport.protoL4
  ports : options.NamesPort → (skb.transportAt l3 tuple.addresses).Carries tuple

/-- A socket with the tuple's source as its local endpoint, and its destination as the remote
one. -/
structure Sock.Carries (sk : Sock) (tuple : Tuple) : Prop where
  addresses : match tuple.addresses with
    | .v4 saddr daddr => sk.family = afInet ∧ sk.rcvSaddr = saddr ∧ sk.daddr = daddr
    | .v6 saddr daddr => sk.family = afInet6 ∧ sk.v6RcvSaddr = saddr ∧ sk.v6Daddr = daddr
  protocol : sockL4Proto sk = tuple.transport.protoL4
  sport : ntohs sk.num = tuple.sport
  dport : sk.dport = tuple.dport

/-- What holds of a filter of addresses, ports and protocols: the family of an address is the
network protocol that it asks for. -/
structure OneFamily (args : PktArgs) : Prop where
  v4 : anyAddr (some args) = true → args.l3Proto = ethPIp
  v6 : anyAddrV6 (some args) = true → args.l3Proto = ethPIpv6
  pktLen : args.pktLen1 = 0 ∧ args.pktLen2 = 0
  tcpFlags : args.tcpFlags = 0

theorem setL3Proto_some {args after : PktArgs} {pf : UInt16} (h : args.setL3Proto pf = some after) :
    after = { args with l3Proto := pf } ∧ (args.l3Proto = 0 ∨ args.l3Proto = pf) := by
  unfold PktArgs.setL3Proto at h
  split at h
  · cases h
  · rename_i hfamily
    push Not at hfamily
    exact ⟨(Option.some.inj h).symm, or_iff_not_imp_left.mpr hfamily⟩

/-- The writes of an address option touch the addresses of their own family only. -/
structure AddressWrites (setV4 : PktArgs → UInt32 → PktArgs) (setV6 : PktArgs → Ipv6 → PktArgs) :
    Prop where
  v6 : ∀ args address, anyAddrV6 (some (setV4 args address)) = anyAddrV6 (some args)
  v4 : ∀ args address, anyAddr (some (setV6 args address)) = anyAddr (some args)
  others : ∀ args written, (∃ address, written = setV4 args address) ∨
      (∃ address, written = setV6 args address) →
    written.l3Proto = args.l3Proto ∧ written.pktLen1 = args.pktLen1 ∧
      written.pktLen2 = args.pktLen2 ∧ written.tcpFlags = args.tcpFlags

theorem saddr_writes : AddressWrites (fun args address => { args with saddr := address })
    fun args address => { args with saddrV6 := address } :=
  ⟨fun _ _ => rfl, fun _ _ =>
    rfl, by rintro _ _ (⟨_, rfl⟩ | ⟨_, rfl⟩) <;> exact ⟨rfl, rfl, rfl, rfl⟩⟩

theorem daddr_writes : AddressWrites (fun args address => { args with daddr := address })
    fun args address => { args with daddrV6 := address } :=
  ⟨fun _ _ => rfl, fun _ _ =>
    rfl, by rintro _ _ (⟨_, rfl⟩ | ⟨_, rfl⟩) <;> exact ⟨rfl, rfl, rfl, rfl⟩⟩

theorem addr_writes : AddressWrites (fun args address => { args with addr := address })
    fun args address => { args with addrV6 := address } :=
  ⟨fun _ _ => rfl, fun _ _ =>
    rfl, by rintro _ _ (⟨_, rfl⟩ | ⟨_, rfl⟩) <;> exact ⟨rfl, rfl, rfl, rfl⟩⟩

theorem oneFamily_start (options : Options) : OneFamily options.start :=
  ⟨fun h => (by cases h), fun h => (by cases h), ⟨rfl, rfl⟩, rfl⟩

variable {setV4 : PktArgs → UInt32 → PktArgs} {setV6 : PktArgs → Ipv6 → PktArgs}

/-- An address option keeps a filter to one family: it fails where the other one is asked for. -/
theorem oneFamily_fillAddr (hwrites : AddressWrites setV4 setV6) {option : Option IpAddress}
    {args after : PktArgs} (h : OneFamily args)
    (hfill : fillAddr setV4 setV6 option args = some after) : OneFamily after := by
  cases option with
  | none => exact Option.some.inj hfill ▸ h
  | some address =>
      cases address with
      | v4 address =>
          obtain ⟨rfl, hfamily⟩ := setL3Proto_some hfill
          obtain ⟨hl3, hlen1, hlen2, hflags⟩ := hwrites.others args _ (Or.inl ⟨address, rfl⟩)
          refine ⟨fun _ => rfl, fun hany => ?_,
            ⟨hlen1.trans h.pktLen.1, hlen2.trans h.pktLen.2⟩, hflags.trans h.tcpFlags⟩
          have hv6 := h.v6 ((hwrites.v6 args address).symm.trans hany)
          rw [hl3, hv6] at hfamily
          exact absurd hfamily (by decide)
      | v6 address =>
          obtain ⟨rfl, hfamily⟩ := setL3Proto_some hfill
          obtain ⟨hl3, hlen1, hlen2, hflags⟩ := hwrites.others args _ (Or.inr ⟨address, rfl⟩)
          refine ⟨fun hany => ?_, fun _ => rfl,
            ⟨hlen1.trans h.pktLen.1, hlen2.trans h.pktLen.2⟩, hflags.trans h.tcpFlags⟩
          have hv4 := h.v4 ((hwrites.v4 args address).symm.trans hany)
          rw [hl3, hv4] at hfamily
          exact absurd hfamily (by decide)

/-- The network protocol of a filter is settled by the first address, and stays. -/
theorem fillAddr_l3Proto (hwrites : AddressWrites setV4 setV6) {option : Option IpAddress}
    {args after : PktArgs} (hfill : fillAddr setV4 setV6 option args = some after) :
    (args.l3Proto ≠ 0 → after.l3Proto = args.l3Proto) ∧
      ∀ address, option = some address → after.l3Proto = address.family := by
  cases option with
  | none =>
      refine ⟨fun _ => by rw [Option.some.inj hfill], fun address haddress => ?_⟩
      cases haddress
  | some address =>
      have hset : ∃ written : PktArgs, written.l3Proto = args.l3Proto ∧
          written.setL3Proto address.family = some after := by
        cases address with
        | v4 address => exact ⟨_, (hwrites.others args _ (Or.inl ⟨address, rfl⟩)).1, hfill⟩
        | v6 address => exact ⟨_, (hwrites.others args _ (Or.inr ⟨address, rfl⟩)).1, hfill⟩
      obtain ⟨written, hl3, hwritten⟩ := hset
      obtain ⟨rfl, hfamily⟩ := setL3Proto_some hwritten
      rw [hl3] at hfamily
      refine ⟨fun hne => (hfamily.resolve_left hne).symm, fun other hother => ?_⟩
      cases hother
      rfl

theorem fillAddr_frame {α : Type} (read : PktArgs → α) {option : Option IpAddress}
    {args after : PktArgs} (hfill : fillAddr setV4 setV6 option args = some after)
    (hv4 : ∀ args address, read (setV4 args address) = read args)
    (hv6 : ∀ args address, read (setV6 args address) = read args)
    (hl3 : ∀ args pf, read { args with l3Proto := pf } = read args) :
    read after = read args := by
  cases option with
  | none => rw [Option.some.inj hfill]
  | some address =>
      cases address with
      | v4 address =>
          obtain ⟨rfl, -⟩ := setL3Proto_some hfill
          rw [hl3, hv4]
      | v6 address =>
          obtain ⟨rfl, -⟩ := setL3Proto_some hfill
          rw [hl3, hv6]

theorem IpAddress.family_ne_zero (address : IpAddress) : address.family ≠ 0 := by
  have hip : ethPIp ≠ 0 := by decide
  have hipv6 : ethPIpv6 ≠ 0 := by decide
  cases address
  · exact hip
  · exact hipv6

section

variable {options : Options} {args : PktArgs} (h : options.filter = some args)
include h

theorem filter_some :
    OneFamily args ∧
      ∀ address, options.saddr = some address ∨ options.daddr = some address ∨
        options.addr = some address → args.l3Proto = address.family := by
  obtain ⟨first, hfirst, h⟩ := Option.bind_eq_some_iff.mp h
  obtain ⟨second, hsecond, h⟩ := Option.bind_eq_some_iff.mp h
  obtain ⟨third, hthird, h⟩ := Option.bind_eq_some_iff.mp h
  have hone := oneFamily_fillAddr addr_writes (oneFamily_fillAddr daddr_writes
    (oneFamily_fillAddr saddr_writes (oneFamily_start options) hfirst) hsecond) hthird
  obtain ⟨-, hsaddr⟩ := fillAddr_l3Proto saddr_writes hfirst
  obtain ⟨hkept, hdaddr⟩ := fillAddr_l3Proto daddr_writes hsecond
  obtain ⟨hkept', haddr⟩ := fillAddr_l3Proto addr_writes hthird
  cases h
  refine ⟨⟨hone.v4, hone.v6, hone.pktLen, hone.tcpFlags⟩, ?_⟩
  rintro address (hoption | hoption | hoption)
  · have hfamily := hsaddr address hoption
    have hne : first.l3Proto ≠ 0 := hfamily ▸ address.family_ne_zero
    have hsame := hkept hne
    exact (hkept' (hsame ▸ hne)).trans (hsame.trans hfamily)
  · have hfamily := hdaddr address hoption
    exact (hkept' (hfamily ▸ address.family_ne_zero)).trans hfamily
  · exact haddr address hoption

theorem filter_ports :
    (args.sport, args.dport, args.port, args.l4Proto) =
      (options.sport, options.dport, options.port, options.start.l4Proto) := by
  obtain ⟨first, hfirst, h⟩ := Option.bind_eq_some_iff.mp h
  obtain ⟨second, hsecond, h⟩ := Option.bind_eq_some_iff.mp h
  obtain ⟨third, hthird, h⟩ := Option.bind_eq_some_iff.mp h
  cases h
  let read (args : PktArgs) := (args.sport, args.dport, args.port, args.l4Proto)
  calc read third
    _ = read second := fillAddr_frame read hthird (fun _ _ => rfl) (fun _ _ => rfl) fun _ _ => rfl
    _ = read first := fillAddr_frame read hsecond (fun _ _ => rfl) (fun _ _ => rfl) fun _ _ => rfl
    _ = read options.start :=
      fillAddr_frame read hfirst (fun _ _ => rfl) (fun _ _ => rfl) fun _ _ => rfl

end

/-! ## The decision -/

def rejects (args : PktArgs) : Addresses → Bool
  | .v4 saddr daddr => filterIpv4Check (some args) saddr daddr
  | .v6 saddr daddr => filterIpv6Check (some args) saddr daddr

/-- The decision of a filter on a tuple. -/
def accepts (args : PktArgs) (tuple : Tuple) : Bool :=
  !filterL3 (some args) tuple.protoL3 && !rejects args tuple.addresses &&
    !filterL4 (some args) tuple.transport.protoL4 && !filterPort (some args) tuple.sport tuple.dport

variable {args : PktArgs} {tuple : Tuple}

/-- What the parser of the headers reads of a packet, as far as the filter tests it. -/
theorem Skb.Carries.tested {options : Options} (hfilter : options.filter = some args) {skb : Skb}
    {l3 : Nat} (hskb : skb.Carries options l3 tuple) :
    filterL4 (some args) (skb.protocolAt l3 tuple.addresses) =
        filterL4 (some args) tuple.transport.protoL4 ∧
      (anyPort (some args) = true → (skb.transportAt l3 tuple.addresses).Carries tuple ∧
        skb.protocolAt l3 tuple.addresses = tuple.transport.protoL4) := by
  have hports := filter_ports hfilter
  simp only [Prod.mk.injEq] at hports
  obtain ⟨hsport, hdport, hport, hl4⟩ := hports
  constructor
  · by_cases hnamed : options.NamesTransport
    · rw [hskb.protocol hnamed]
    · -- without a protocol in the options the filter has none
      have hzero : args.l4Proto = 0 := by
        rw [hl4]
        unfold Options.start
        cases hproto : options.proto with
        | none => rfl
        | some proto =>
            cases proto with
            | l3 value => rfl
            | l4 value => exact absurd (Or.inl ⟨value, hproto⟩) hnamed
      simp [filterL4, hzero]
  · intro hany
    have hnamed : options.NamesPort := by
      simpa [anyPort, hport, hsport, hdport, Options.NamesPort, or_assoc] using hany
    exact ⟨hskb.ports hnamed, hskb.protocol (Or.inr hnamed)⟩

end Anettrace.Filter
