import Anettrace.Convert.Model
import Anettrace.Library.Fallible
import Anettrace.Library.Keyed

/-!
# Records of a JSONL file

What `PerfettoExporter` of `tools/anettrace_to_perfetto.py` reads of a record, and what it learns
from all of them before the first one is shown: `index_socket_evidence` and `packet_socket_id`. A
field that a record does not have is empty or zero. The reading of hexadecimal texts and of
addresses is a parameter, as are the digest that the ids of tracks are made of and the order of a
set.
-/

namespace Anettrace.Convert

open Anettrace.Native (ConnectKind)
open Library Library.Fallible

/-- `direction`; any other text than `tx` and `rx` is unknown. -/
inductive Way where
  | tx | rx | unknown
  deriving DecidableEq, Repr

/-- What `stable_uuid` is called with. -/
inductive UuidKey where
  | global
  | process (tgid : Int)
  | thread (tgid tid : Int)
  | socket (socket : Int)
  | socketPackets (socket : Int) (way : Way)
  | flow (flowId : String)
  | connect (attemptId : String)
  | networkSyscalls (tgid tid : Int)
  | navigation (serial : Nat)
  deriving DecidableEq, Repr

/-- What the converter takes from Python. -/
structure Python where
  /-- `int(text, 16)`, if it does not raise. -/
  hex : String → Option Int
  /-- `str` of `ipaddress.ip_address`, where an IPv4-mapped address is the IPv4 one. -/
  address : String → Option String
  /-- The first eight bytes of `hashlib.blake2b`. -/
  digest : UuidKey → Nat
  /-- The order in which the members of a set are visited. -/
  visit : List String → List String
  visit_perm : ∀ members, (visit members).Perm members

def Python.stableUuid (python : Python) (key : UuidKey) : Nat :=
  if python.digest key = 0 then 1 else python.digest key

/-- Why a conversion fails. -/
inductive Failure where
  | badText | missingField | noClock | clockOrder | beforeFirstClock | callOrder | uuidTaken
  | missingTrack
  deriving DecidableEq, Repr

/-- `type` -/
inductive RecordType where
  | clockSnapshot | socketCreate | socketState | socketEvent | packetEvent | packetIoLink
  | socketFlowLink
  | ioComplete | rxHandoff | flowStart | flowEnd | rxReadStart | rxReadEnd | txWriteStart
  | txWriteEnd
  | networkSyscall | connect
      (kind : ConnectKind) | lostEvents | traceEnd | rxContext | probeStatus | other
  deriving DecidableEq, Repr

/-- A record of the file. -/
structure JsonRecord where
  type : RecordType
  tsNs : Option Int := none
  startTsNs : Option Int := none
  firstTsNs : Option Int := none
  realtimeNs : Int := 0
  monotonicNs : Int := 0
  boottimeNs : Int := 0
  traceTags : Bool := false
  tgid : Int := 0
  tid : Int := 0
  task : String := ""
  socketId : String := ""
  socketInstanceId : String := ""
  ownerSocketId : String := ""
  flowId : String := ""
  packetId : String := ""
  ioId : String := ""
  callId : String := ""
  attemptId : String := ""
  way : Way := .unknown
  stage : String := ""
  protoL4 : Int := 0
  flowAnchor : Option Bool := none
  ownerTgid : Option Int := none
  /-- `owner_valid` is there and false. -/
  ownerInvalid : Bool := false
  saddr : String := ""
  sport : Option Int := none
  daddr : String := ""
  dport : Option Int := none
  localAddr : String := ""
  localPort : Option Int := none
  terminal : Bool := false
  asyncPending : Bool := false
  error : Int64 := 0
  deriving DecidableEq, Repr

variable (python : Python)

def idValue (text : String) : Except Failure Int :=
  match python.hex text with
  | some value => .ok value
  | none => .error .badText

def nonzeroId (text : String) : Except Failure (Option Int) :=
  if text = "" then .ok none
  else (idValue python text).map fun value => if value = 0 then none else some value

def firstNonzeroId (first second : String) : Except Failure (Option Int) := do
  match ← nonzeroId python first with
  | some value => return some value
  | none => nonzeroId python second

def networkEndpoint (address : String) (port : Option Int) :
    Except Failure (Option (String × Int)) :=
  match port with
  | none => .ok none
  | some port =>
      if address = "" then .ok none
      else
        match python.address address with
        | some text => .ok (some (text, port))
        | none => .error .badText

def packetFlowAnchor (record : JsonRecord) : Bool :=
  match record.flowAnchor, record.way with
  | some anchor, _ => anchor
  | none, .tx =>
      record.stage = "ip_output" || record.stage = "ip6_output" ||
        (record.protoL4 = 6 && record.stage = "__tcp_transmit_skb")
  | none, .rx =>
      if record.protoL4 = 6 then record.stage = "tcp_v4_rcv" || record.stage = "tcp_v6_rcv"
      else record.stage = "udp_rcv" || record.stage = "udpv6_rcv"
  | none, .unknown => false

/-! ## Evidence -/

/-- The sets of a `dict[K, set[V]]`. -/
abbrev Sets (κ ν : Type) := Keyed κ (List ν)

def Sets.members {κ ν : Type} (sets : Sets κ ν) (key : κ) : List ν :=
  (sets key).getD []

def Sets.add {κ ν : Type} [DecidableEq κ] [DecidableEq ν] (sets : Sets κ ν) (key : κ) (value : ν) :
    Sets κ ν :=
  sets.put key ((sets.members key).insert value)

abbrev PacketKey := Option Int × Way

/-- `(priority, tgid, task)` -/
structure OwnerCandidate where
  priority : Nat
  tgid : Int
  task : String
  deriving DecidableEq, Repr

/-- The evidence that `index_socket_evidence` collects. -/
structure SocketEvidence where
  flowSockets : Sets Int Int := .empty
  packetSockets : Sets PacketKey Int := .empty
  packetFlows : Sets PacketKey Int := .empty
  flowEndpoints : Sets Int (String × Int) := .empty
  ownerCandidates : Keyed Int (List OwnerCandidate) := .empty

/-- The ids of a record. -/
structure RecordIds where
  socket : Option Int
  flow : Option Int
  packet : Option Int
  /-- The local endpoint of a record that begins or ends a flow. -/
  endpoint : Option (String × Int)
  deriving DecidableEq, Repr

/-- What `index_socket_evidence` reads of a record. -/
def readIds (record : JsonRecord) : Except Failure RecordIds := do
  let socket ← firstNonzeroId python record.socketId record.ownerSocketId
  let flow ← nonzeroId python record.flowId
  let packet ← nonzeroId python record.packetId
  let bounds := flow.isSome && (record.type = .flowStart || record.type = .flowEnd)
  let endpoint ← if bounds then networkEndpoint python record.localAddr record.localPort
    else .ok none
  return { socket := socket, flow := flow, packet := packet, endpoint := endpoint }

def ownerCandidate (record : JsonRecord) : Option OwnerCandidate :=
  let priority := if record.type = .socketCreate then 2 else 1
  let tgid :=
    if record.type = .socketCreate then record.tgid
    else if record.ownerInvalid then 0 else record.ownerTgid.getD 0
  if tgid = 0 then none
  else
    let task := if priority = 2 ∨ tgid = record.tgid then record.task else ""
    some { priority := priority, tgid := tgid, task := task }

/-- A record for which `add` is called if both of its ids are there. -/
def Sets.addBoth {κ ν : Type} [DecidableEq κ] [DecidableEq ν] (sets : Sets κ ν) :
    Option κ → Option ν → Sets κ ν
  | some key, some value => sets.add key value
  | _, _ => sets

def packetKeyOf (record : JsonRecord) (packet : Option Int) : Option PacketKey :=
  packet.map fun packet => (some packet, record.way)

def addCandidate (candidates : Keyed Int (List OwnerCandidate)) :
    Option Int → Option OwnerCandidate → Keyed Int (List OwnerCandidate)
  | some socket, some candidate =>
    candidates.put socket ((candidates socket).getD [] ++ [candidate])
  | _, _ => candidates

/-- The body of the first loop of `index_socket_evidence`. -/
def indexRecord (evidence : SocketEvidence) (record : JsonRecord) :
    Except Failure SocketEvidence := do
  let ids ← readIds python record
  let key := packetKeyOf record ids.packet
  return {
    packetFlows := evidence.packetFlows.addBoth key ids.flow
    flowEndpoints := evidence.flowEndpoints.addBoth ids.flow ids.endpoint
    flowSockets := evidence.flowSockets.addBoth ids.flow ids.socket
    packetSockets := evidence.packetSockets.addBoth key ids.socket
    ownerCandidates := addCandidate evidence.ownerCandidates ids.socket (ownerCandidate record) }

def indexSocketEvidence (records : List JsonRecord) : Except Failure SocketEvidence :=
  records.foldlM (indexRecord python) {}

/-- The element of a set that has only one. -/
def onlyMember {ν : Type} : List ν → Option ν
  | [value] => some value
  | _ => none

/-- The processes that candidates of a priority name. -/
def ownersAt (priority : Nat) (candidates : List OwnerCandidate) : List Int :=
  ((candidates.filter fun candidate => candidate.priority = priority).map OwnerCandidate.tgid).foldl
    (fun owners tgid => owners.insert tgid) []

/-- The second loop of `index_socket_evidence`: the owner and its name, of the candidates of a
socket. -/
def ownerOf (candidates : List OwnerCandidate) : Option (Int × String) := do
  let priority ← (candidates.map OwnerCandidate.priority).max?
  let tgid ← onlyMember (ownersAt priority candidates)
  let named := candidates.find? fun candidate => candidate.priority = priority ∧ candidate.task ≠ ""
  return (tgid, (named.map OwnerCandidate.task).getD "")

def SocketEvidence.socketOwners (evidence : SocketEvidence) (socket : Int) :
    Option (Int × String) :=
  (evidence.ownerCandidates socket).bind ownerOf

/-- The end of a packet that is on this host. -/
def localEndpoint (record : JsonRecord) : Except Failure (Option (String × Int)) :=
  if record.way = .tx then networkEndpoint python record.saddr record.sport
  else networkEndpoint python record.daddr record.dport

/-- The sockets that a flow of a packet stands for in `packet_socket_id`. -/
def flowSocketsOf (evidence : SocketEvidence) (record : JsonRecord) (flow : Int) :
    Except Failure (List Int) := do
  let endpoints := evidence.flowEndpoints.members flow
  if endpoints = [] then return evidence.flowSockets.members flow
  else if record.way = .unknown || endpoints.length ≠ 1 then return []
  else
    match ← localEndpoint python record with
    | some endpoint => return if endpoint ∈ endpoints then evidence.flowSockets.members flow else []
    | none => return evidence.flowSockets.members flow

def flowsOf (evidence : SocketEvidence) (key : PacketKey) (flow : Option Int) : List Int :=
  match flow with
  | some flow => (evidence.packetFlows.members key).insert flow
  | none => evidence.packetFlows.members key

def packetSocketId (evidence : SocketEvidence) (record : JsonRecord) :
    Except Failure (Option Int) := do
  match ← firstNonzeroId python record.socketId record.ownerSocketId with
  | some socket => return some socket
  | none =>
      let packet ← nonzeroId python record.packetId
      let key : PacketKey := (packet, record.way)
      let sockets := evidence.packetSockets.members key
      if sockets ≠ [] then return onlyMember sockets
      else
        let flow ← nonzeroId python record.flowId
        let sockets ← (flowsOf evidence key flow).mapM (flowSocketsOf python evidence record)
        return onlyMember (sockets.flatten.foldl (fun sockets socket => sockets.insert socket) [])

end Anettrace.Convert
