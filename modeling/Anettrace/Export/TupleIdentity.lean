import Mathlib.Data.Sym.Sym2
import Anettrace.Export.Identity

/-!
# The identity of a tuple

What `packet_flow_id` keeps of a packet or of a socket. The id depends on the protocol, the family
once a pair of IPv4-mapped addresses is read as IPv4, and the unordered pair of endpoints; and the
bytes that are hashed for it determine these three.
-/

namespace Anettrace.Export

open Library

/-- The transport protocols of a tuple. -/
inductive Transport where
  | tcp
  | udp
  deriving DecidableEq, Repr

def Transport.protoL4 : Transport → UInt8
  | .tcp => ipprotoTcp
  | .udp => ipprotoUdp

/-- The source and the destination address. -/
inductive AddressPair where
  | v4 (source dest : Vector UInt8 4)
  | v6 (source dest : Vector UInt8 16)
  deriving DecidableEq, Repr

/-- A TCP or UDP tuple. The ports are as they lie in the record. Of a socket the source is the local
endpoint. -/
structure FlowTuple where
  transport : Transport
  addresses : AddressPair
  sport : UInt16
  dport : UInt16
  deriving DecidableEq, Repr

namespace FlowTuple

/-- The record that a tuple has in a `packet_t` or a `sock_t`. Behind two IPv4 addresses the union
holds other bytes. -/
def record (tuple : FlowTuple) (others : List UInt8) : Endpoints :=
  match tuple.addresses with
  | .v4 source dest =>
      { l3 := source.toList ++ dest.toList ++ others, protoL3 := ethPIp
        protoL4 := tuple.transport.protoL4, sport := tuple.sport, dport := tuple.dport }
  | .v6 source dest =>
      { l3 := source.toList ++ dest.toList, protoL3 := ethPIpv6
        protoL4 := tuple.transport.protoL4, sport := tuple.sport, dport := tuple.dport }

/-- The tuple of the opposite direction. -/
def exchange (tuple : FlowTuple) : FlowTuple where
  transport := tuple.transport
  addresses :=
    match tuple.addresses with
    | .v4 source dest => .v4 dest source
    | .v6 source dest => .v6 dest source
  sport := tuple.dport
  dport := tuple.sport

/-- The first bytes of an IPv4-mapped address. -/
def mappedPrefix : Vector UInt8 12 := #v[0, 0, 0, 0, 0, 0, 0, 0, 0, 0, 0xff, 0xff]

def mapped (address : Vector UInt8 4) : Vector UInt8 16 := mappedPrefix ++ address

/-- The IPv4-mapped IPv6 form of a tuple. -/
def toMapped (tuple : FlowTuple) : FlowTuple :=
  match tuple.addresses with
  | .v4 source dest => { tuple with addresses := .v6 (mapped source) (mapped dest) }
  | .v6 _ _ => tuple

/-- The family and the addresses, two mapped addresses read as IPv4. -/
def family (tuple : FlowTuple) : UInt16 × List UInt8 × List UInt8 :=
  match tuple.addresses with
  | .v4 source dest => (ethPIp, source.toList, dest.toList)
  | .v6 source dest =>
      if source.toList.take 12 = mappedPrefix.toList ∧ dest.toList.take 12 =
        mappedPrefix.toList then
        (ethPIp, source.toList.drop 12, dest.toList.drop 12)
      else (ethPIpv6, source.toList, dest.toList)

/-- The source endpoint, or the local one. -/
def source (tuple : FlowTuple) : List UInt8 × UInt16 := (tuple.family.2.1, tuple.sport)

/-- The destination endpoint, or the remote one. -/
def dest (tuple : FlowTuple) : List UInt8 × UInt16 := (tuple.family.2.2, tuple.dport)

/-- What a tuple is up to its direction: the protocol, the family, and the two endpoints. -/
def key (tuple : FlowTuple) : Transport × UInt16 × Sym2 (List UInt8 × UInt16) :=
  (tuple.transport, tuple.family.1, s(tuple.source, tuple.dest))

variable {tuple : FlowTuple}

@[simp] theorem flowAddresses_record (others : List UInt8) :
    flowAddresses (tuple.record others) = tuple.family := by
  unfold flowAddresses record family
  cases tuple.addresses with
  | v4 source dest =>
      have hsource : (source.toList ++ dest.toList ++ others).take 4 = source.toList := by
        rw [List.append_assoc, List.take_left' source.length_toList]
      have hdest : ((source.toList ++ dest.toList ++ others).drop 4).take 4 = dest.toList := by
        rw [List.append_assoc, List.drop_left' source.length_toList,
          List.take_left' dest.length_toList]
      simp only [hsource, hdest]
      exact if_neg (by decide)
  | v6 source dest =>
      have hsource : (source.toList ++ dest.toList).take 16 = source.toList :=
        List.take_left' source.length_toList
      have hdest : ((source.toList ++ dest.toList).drop 16).take 16 = dest.toList := by
        rw [List.drop_left' source.length_toList, List.take_of_length_le (by simp)]
      simp only [hsource, hdest, if_true, ipv6IsV4Mapped, Bool.and_eq_true, beq_iff_eq]
      rfl

theorem family_length :
    (tuple.family.1 = ethPIp ∧ tuple.family.2.1.length = 4 ∧ tuple.family.2.2.length = 4) ∨
      (tuple.family.1 = ethPIpv6 ∧ tuple.family.2.1.length = 16 ∧
        tuple.family.2.2.length = 16) := by
  unfold family
  cases tuple.addresses with
  | v4 source dest => exact Or.inl ⟨rfl, source.length_toList, dest.length_toList⟩
  | v6 source dest =>
      dsimp only
      split
      · refine Or.inl ⟨rfl, ?_, ?_⟩ <;> rw [List.length_drop, Vector.length_toList]
      · exact Or.inr ⟨rfl, source.length_toList, dest.length_toList⟩

theorem family_length_eq {other : FlowTuple} (h : tuple.family.1 = other.family.1) :
    tuple.family.2.1.length = other.family.2.1.length ∧
      tuple.family.2.1.length = other.family.2.2.length ∧
      tuple.family.2.2.length = other.family.2.1.length ∧
      tuple.family.2.2.length = other.family.2.2.length := by
  have hne : ethPIp ≠ ethPIpv6 := by decide
  rcases @family_length tuple with ⟨hfamily, hsource, hdest⟩ | ⟨hfamily, hsource, hdest⟩ <;>
    rcases @family_length other with ⟨hfamily', hsource', hdest'⟩ | ⟨hfamily', hsource', hdest'⟩
  · omega
  · exact absurd (hfamily.symm.trans (h.trans hfamily')) hne
  · exact absurd (hfamily'.symm.trans (h.symm.trans hfamily)) hne
  · omega

@[simp] theorem family_exchange :
    tuple.exchange.family = (tuple.family.1, tuple.family.2.2, tuple.family.2.1) := by
  unfold exchange family
  cases tuple.addresses with
  | v4 source dest => rfl
  | v6 source dest =>
      dsimp only
      by_cases hmapped : source.toList.take 12 = mappedPrefix.toList ∧
          dest.toList.take 12 = mappedPrefix.toList
      · rw [if_pos hmapped, if_pos hmapped.symm]
      · rw [if_neg hmapped, if_neg (fun h => hmapped h.symm)]

theorem mapped_toList (address : Vector UInt8 4) :
    (mapped address).toList = mappedPrefix.toList ++ address.toList :=
  Vector.toList_append

@[simp] theorem family_toMapped : tuple.toMapped.family = tuple.family := by
  obtain ⟨transport, addresses, sport, dport⟩ := tuple
  cases addresses with
  | v4 source dest =>
      have hlength : mappedPrefix.toList.length = 12 := rfl
      simp only [family, toMapped, mapped_toList, List.take_left' hlength, List.drop_left' hlength]
      rfl
  | v6 source dest => rfl

theorem transport_toMapped : tuple.toMapped.transport = tuple.transport := by
  unfold toMapped
  split <;> rfl

theorem ports_toMapped :
    tuple.toMapped.sport = tuple.sport ∧ tuple.toMapped.dport = tuple.dport := by
  unfold toMapped
  split <;> exact ⟨rfl, rfl⟩

end FlowTuple

/-! ## The bytes that are hashed -/

/-- The bytes that `packet_flow_hash` feeds to `hash_bytes`, in their order. -/
def flowBytes (pkt : Endpoints) (reverse : Bool) : List UInt8 :=
  let (protoL3, source, dest) := flowAddresses pkt
  littleEndian 2 protoL3.toNat ++ [pkt.protoL4] ++ (if reverse then dest else source) ++
    (if reverse then source else dest) ++
    littleEndian 2 (if reverse then pkt.dport else pkt.sport).toNat ++
    littleEndian 2 (if reverse then pkt.sport else pkt.dport).toNat

theorem packetFlowHash_bytes (salt : UInt64) (pkt : Endpoints) (reverse : Bool) :
    packetFlowHash salt pkt reverse = hashBytes (hashSeed salt) (flowBytes pkt reverse) := by
  simp only [packetFlowHash, flowBytes, hashU16, hashBytes, List.foldl_append]

theorem littleEndian_u16_inj {first second : UInt16}
    (h : littleEndian 2 first.toNat = littleEndian 2 second.toNat) : first = second := by
  have hvalues := congrArg ofLittleEndian h
  have hfirst : first.toNat < 256 ^ 2 := first.toNat_lt
  have hsecond : second.toNat < 256 ^ 2 := second.toNat_lt
  rw [ofLittleEndian_littleEndian, ofLittleEndian_littleEndian, Nat.mod_eq_of_lt hfirst,
    Nat.mod_eq_of_lt hsecond] at hvalues
  exact UInt16.toNat_inj.mp hvalues

theorem protoL4_inj {first second : Transport} (h : first.protoL4 = second.protoL4) :
    first = second := by
  cases first <;> cases second <;> first | rfl | exact absurd h (by decide)

namespace FlowTuple

variable {tuple other : FlowTuple}

/-- The two endpoints, in the order in which they are hashed. -/
def ordered (tuple : FlowTuple) (reverse : Bool) :
    (List UInt8 × UInt16) × (List UInt8 × UInt16) :=
  if reverse then (tuple.dest, tuple.source) else (tuple.source, tuple.dest)

theorem ordered_pair (reverse : Bool) :
    s((tuple.ordered reverse).1, (tuple.ordered reverse).2) = s(tuple.source, tuple.dest) := by
  cases reverse with
  | false => rfl
  | true => exact Sym2.eq_swap

theorem record_ports (others : List UInt8) :
    (tuple.record others).protoL4 = tuple.transport.protoL4 ∧
      (tuple.record others).sport = tuple.sport ∧ (tuple.record others).dport = tuple.dport := by
  unfold record
  split <;> exact ⟨rfl, rfl, rfl⟩

theorem flowBytes_record (others : List UInt8) (reverse : Bool) :
    flowBytes (tuple.record others) reverse =
      littleEndian 2 tuple.family.1.toNat ++ [tuple.transport.protoL4] ++
        (tuple.ordered reverse).1.1 ++ (tuple.ordered reverse).2.1 ++
        littleEndian 2 (tuple.ordered reverse).1.2.toNat ++
        littleEndian 2 (tuple.ordered reverse).2.2.toNat := by
  obtain ⟨hproto, hsport, hdport⟩ := @record_ports tuple others
  unfold flowBytes ordered
  rw [flowAddresses_record, hproto, hsport, hdport]
  cases reverse <;> rfl

/-- The bytes determine the protocol, the family and the endpoints in their order. -/
theorem flowBytes_inj {others others' : List UInt8} {reverse reverse' : Bool}
    (h : flowBytes (tuple.record others) reverse = flowBytes (other.record others') reverse') :
    tuple.transport = other.transport ∧ tuple.family.1 = other.family.1 ∧
      tuple.ordered reverse = other.ordered reverse' := by
  rw [flowBytes_record, flowBytes_record] at h
  simp only [List.append_assoc] at h
  obtain ⟨hfamily, h⟩ := List.append_inj h (by simp)
  have hfamily : tuple.family.1 = other.family.1 := littleEndian_u16_inj hfamily
  obtain ⟨hproto, h⟩ := List.append_inj h (by simp)
  obtain ⟨hss, hsd, hds, hdd⟩ := family_length_eq hfamily
  have hfirst : (tuple.ordered reverse).1.1.length = (other.ordered reverse').1.1.length := by
    cases reverse <;> cases reverse' <;> assumption
  have hsecond : (tuple.ordered reverse).2.1.length = (other.ordered reverse').2.1.length := by
    cases reverse <;> cases reverse' <;> assumption
  obtain ⟨hsource, h⟩ := List.append_inj h hfirst
  obtain ⟨hdest, h⟩ := List.append_inj h hsecond
  obtain ⟨hsport, hdport⟩ := List.append_inj h (by simp)
  refine ⟨protoL4_inj (List.singleton_inj.mp hproto), hfamily, ?_⟩
  exact Prod.ext (Prod.ext hsource (littleEndian_u16_inj hsport))
    (Prod.ext hdest (littleEndian_u16_inj hdport))

/-- What is hashed depends on the protocol, the family and the endpoints in their order only. -/
theorem packetFlowHash_congr {salt : UInt64} {others others' : List UInt8} {reverse reverse' : Bool}
    (htransport : tuple.transport = other.transport) (hfamily : tuple.family.1 = other.family.1)
    (hordered : tuple.ordered reverse = other.ordered reverse') :
    packetFlowHash salt (tuple.record others) reverse =
      packetFlowHash salt (other.record others') reverse' := by
  rw [packetFlowHash_bytes, packetFlowHash_bytes, flowBytes_record, flowBytes_record, htransport,
    hfamily, hordered]

/-- The id does not depend on which of the two hashes is the forward one. -/
theorem packetFlowId_swap {salt : UInt64} {pkt pkt' : Endpoints}
    (hforward : packetFlowHash salt pkt false = packetFlowHash salt pkt' true)
    (hreverse : packetFlowHash salt pkt true = packetFlowHash salt pkt' false) :
    packetFlowId salt pkt = packetFlowId salt pkt' := by
  unfold packetFlowId
  rw [hforward, hreverse]
  dsimp only
  by_cases hlt : packetFlowHash salt pkt' true < packetFlowHash salt pkt' false
  · rw [if_pos hlt, if_neg (UInt64.lt_asymm hlt)]
  · rw [if_neg hlt]
    by_cases hgt : packetFlowHash salt pkt' false < packetFlowHash salt pkt' true
    · rw [if_pos hgt]
    · rw [if_neg hgt]
      exact UInt64.le_antisymm (UInt64.not_lt.mp hlt) (UInt64.not_lt.mp hgt)

theorem packetFlowId_key {salt : UInt64} {others others' : List UInt8} (h : tuple.key = other.key) :
    packetFlowId salt (tuple.record others) = packetFlowId salt (other.record others') := by
  obtain ⟨htransport, hrest⟩ := Prod.mk.inj h
  obtain ⟨hfamily, hpair⟩ := Prod.mk.inj hrest
  have hhash : ∀ reverse reverse', tuple.ordered reverse = other.ordered reverse' →
      packetFlowHash salt (tuple.record others) reverse =
        packetFlowHash salt (other.record others') reverse' :=
    fun reverse reverse' => packetFlowHash_congr htransport hfamily
  rcases Sym2.eq_iff.mp hpair with ⟨hsource, hdest⟩ | ⟨hsource, hdest⟩
  · unfold packetFlowId
    rw [hhash false false (Prod.ext hsource hdest), hhash true true (Prod.ext hdest hsource)]
  · exact packetFlowId_swap (hhash false true (Prod.ext hsource hdest))
      (hhash true false (Prod.ext hdest hsource))

theorem key_exchange : tuple.exchange.key = tuple.key := by
  simp only [key, source, dest, family_exchange]
  exact Prod.ext rfl (Prod.ext rfl Sym2.eq_swap)

theorem key_toMapped : tuple.toMapped.key = tuple.key := by
  simp only [key, source, dest, family_toMapped, transport_toMapped, ports_toMapped]

end FlowTuple

/-- The id of a tuple is the same in both directions, the same for the IPv4-mapped form, and the
same for a packet and a socket; and tuples that differ in what identifies them have no byte string
in common that is hashed for them. -/
theorem flow_tuple_identity :
    (∀ salt (tuple : FlowTuple) others others',
      packetFlowId salt (tuple.exchange.record others) = packetFlowId salt (tuple.record others')) ∧
    (∀ salt (tuple : FlowTuple) others others',
      packetFlowId salt (tuple.toMapped.record others) = packetFlowId salt (tuple.record others')) ∧
    (∀ salt (tuple : FlowTuple) others others',
      socketFlowId salt (tuple.record others) = packetFlowId salt (tuple.record others')) ∧
    (∀ salt pkt reverse,
      packetFlowHash salt pkt reverse = hashBytes (hashSeed salt) (flowBytes pkt reverse)) ∧
    ∀ (tuple other : FlowTuple) others others' reverse reverse', tuple.key ≠ other.key →
      flowBytes (tuple.record others) reverse ≠ flowBytes (other.record others') reverse' := by
  refine ⟨?_, ?_, ?_, packetFlowHash_bytes, ?_⟩
  · intro salt tuple others others'
    exact FlowTuple.packetFlowId_key FlowTuple.key_exchange
  · intro salt tuple others others'
    exact FlowTuple.packetFlowId_key FlowTuple.key_toMapped
  · intro salt tuple others others'
    exact FlowTuple.packetFlowId_key rfl
  · intro tuple other others others' reverse reverse' hkey hbytes
    obtain ⟨htransport, hfamily, hordered⟩ := FlowTuple.flowBytes_inj hbytes
    apply hkey
    have hpair : s(tuple.source, tuple.dest) = s(other.source, other.dest) := by
      rw [← FlowTuple.ordered_pair reverse, hordered, FlowTuple.ordered_pair]
    exact Prod.ext htransport (Prod.ext hfamily hpair)

end Anettrace.Export
