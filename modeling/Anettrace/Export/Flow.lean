import Anettrace.Export.State

/-!
# Flows

The flow functions of `src/perfetto_export.c`. A function on `struct flow_state *` maps the entry
to the changed entry and the records it writes; `State.updateFlow` applies it to the table. A new
entry is filled before it is appended, since nothing reads the table in between.
-/

namespace Anettrace.Export

/-! ## Searches -/

def flowFind (state : State) (id : UInt64) : Option Nat :=
  state.flows.findIdx? fun flow => flow.active && flow.id = id

def flowFindAny (state : State) (id : UInt64) : Option FlowState :=
  state.flows.find? fun flow => flow.id = id

/-- The loops that keep a match in `found` and give up at a second one. -/
def flowUnique (state : State) (found : FlowState → Bool) : Option Nat :=
  match state.flows.zipIdx.filter fun entry => found entry.1 with
  | [entry] => some entry.2
  | _ => none

def flowFindBySocket (state : State) (socketId : UInt64) (protocol : UInt8) : Option Nat :=
  if socketId = 0 then none
  else
    flowUnique state fun flow =>
      flow.active && flow.socketId = socketId && (protocol = 0 || flow.protocol = protocol)

def flowFindDestroyed (state : State) (tupleId socketId : UInt64) (netns : UInt32)
    (ts : UInt64) : Option Nat :=
  if socketId = 0 then none
  else
    flowUnique state fun flow =>
      !flow.active && flow.closed && flow.socketId = socketId && flow.tupleId = tupleId &&
        flow.netns = netns && flow.firstTs ≤ ts && flow.endTs ≤ ts

def FlowState.lastCovered (flow : FlowState) : UInt64 :=
  if flow.endTs ≠ 0 then flow.endTs else flow.lastTs

/-- The tuple, namespace and time tests of `flow_lookup`. -/
def FlowState.inScope (flow : FlowState) (tupleId : UInt64) (netns : UInt32)
    (ts : UInt64) : Bool :=
  flow.tupleId = tupleId && flow.netns = netns && flow.firstTs ≤ ts &&
    (flow.active || ts ≤ flow.lastCovered)

def FlowState.isExact (flow : FlowState) (socketId : UInt64) : Bool :=
  socketId ≠ 0 && flow.socketId = socketId

def FlowState.isCandidate (flow : FlowState) (socketId : UInt64) : Bool :=
  !flow.isExact socketId && !(socketId ≠ 0 && flow.socketId ≠ 0)

/-- What `flow_lookup` returns, and `flow_lookup_ambiguous`. -/
structure Lookup where
  flow : Option Nat
  ambiguous : Bool
  deriving DecidableEq, Repr

def flowLookup (flows : List FlowState) (tupleId socketId : UInt64) (netns : UInt32)
    (ts : UInt64) : Lookup :=
  let scope := flows.zipIdx.filter fun entry => entry.1.inScope tupleId netns ts
  let exacts := scope.filter fun entry => entry.1.isExact socketId
  let candidates := scope.filter fun entry => entry.1.isCandidate socketId
  match exacts, candidates with
  | [exact], _ => ⟨some exact.2, false⟩
  | [], [] => ⟨none, false⟩
  | [], [candidate] => ⟨some candidate.2, false⟩
  | _, _ => ⟨none, true⟩

/-! ## Labels -/

def flowLabelPrefix (protocol : UInt8) (localPort remotePort : UInt16) : FlowKind :=
  if protocol = ipprotoTcp then .tcp
  else if protocol = ipprotoUdp ∧ (localPort = 53 ∨ remotePort = 53) then .dns
  else if protocol = ipprotoUdp then .udp
  else .flow

def formatFlowLabel (flow : FlowState) : FlowTag :=
  ⟨flowLabelPrefix flow.protocol flow.localPort flow.remotePort, flow.displayIndex⟩

def formatKnownFlowLabel (state : State) (flowId : UInt64) : Option FlowTag :=
  (flowFindAny state flowId).map formatFlowLabel

def flowProtocolName (flow : FlowState) : ProtocolName :=
  if flow.protocol = ipprotoUdp ∧ (flow.localPort = 53 ∨ flow.remotePort = 53) then .udpDns
  else if flow.protocol = ipprotoUdp then .udp
  else .tcp

def flowAssignDisplayIndex (state : State) (flow : FlowState) : State × FlowState :=
  if flow.displayIndex ≠ 0 then (state, flow)
  else if flow.protocol = ipprotoTcp then
    ({ state with tcpFlowCount := state.tcpFlowCount + 1 },
      { flow with displayIndex := state.tcpFlowCount + 1 })
  else if flow.localPort = 53 ∨ flow.remotePort = 53 then
    ({ state with dnsFlowCount := state.dnsFlowCount + 1 },
      { flow with displayIndex := state.dnsFlowCount + 1 })
  else
    ({ state with udpFlowCount := state.udpFlowCount + 1 },
      { flow with displayIndex := state.udpFlowCount + 1 })

/-! ## Entries -/

def flowLinkSocket (flow : FlowState) (ts : UInt64) : FlowState × List Record :=
  if flow.socketId = 0 ∨ flow.linkedSocketId = flow.socketId then (flow, [])
  else
    ({ flow with linkedSocketId := flow.socketId },
      [.socketFlowLink
        { ts := ts
          socketId := flow.socketId
          flowId := flow.id
          flowTag := formatFlowLabel flow
          ownerTid := flow.ownerTid
          ownerTgid := flow.ownerTgid
          ownerUid := flow.ownerUid
          task := jsonEscape flow.task 64 }])

def flowStartRecord (flow : FlowState) : FlowStart where
  ts := flow.firstTs
  flowId := flow.id
  flowTag := formatFlowLabel flow
  protocol := flowProtocolName flow
  socketId := flow.socketId
  ownerTid := flow.ownerTid
  ownerTgid := flow.ownerTgid
  ownerUid := flow.ownerUid
  task := jsonEscape flow.task 64
  localAddr := flow.localAddr
  localPort := flow.localPort
  remoteAddr := flow.remoteAddr
  remotePort := flow.remotePort
  netns := flow.netns
  tupleId := flow.tupleId

def flowEmitStart (flow : FlowState) : FlowState × List Record :=
  let (flow, link) := flowLinkSocket flow flow.firstTs
  (flow, link ++ [.flowStart (flowStartRecord flow)])

def FlowState.finishTs (flow : FlowState) (endTs : UInt64) : UInt64 :=
  let endTs := if endTs < flow.lastTs then flow.lastTs else endTs
  if endTs < flow.firstTs then flow.firstTs else endTs

def flowEndRecord (flow : FlowState) (endTs : UInt64) (reason : EndReason)
    (incomplete : Bool) : FlowEnd where
  ts := endTs
  firstTs := flow.firstTs
  lastTs := flow.lastTs
  duration := endTs - flow.firstTs
  flowId := flow.id
  flowTag := formatFlowLabel flow
  protocol := flowProtocolName flow
  socketId := flow.socketId
  txBytes := flow.txBytes
  rxBytes := flow.rxBytes
  txPackets := flow.txPackets
  rxPackets := flow.rxPackets
  ownerTid := flow.ownerTid
  ownerTgid := flow.ownerTgid
  ownerUid := flow.ownerUid
  task := jsonEscape flow.task 64
  localAddr := flow.localAddr
  localPort := flow.localPort
  remoteAddr := flow.remoteAddr
  remotePort := flow.remotePort
  endReason := reason
  incomplete := incomplete

def flowFinish (endTs : UInt64) (reason : EndReason) (incomplete : Bool)
    (flow : FlowState) : FlowState × List Record :=
  if !flow.active then (flow, [])
  else
    let endTs := flow.finishTs endTs
    ({ flow with
        endTs := endTs
        active := false
        closed := !incomplete && reason = .socketDestroy },
      [.flowEnd (flowEndRecord flow endTs reason incomplete)])

def flowSetOwner (flow : FlowState) (detail : DetailEvent) (socketId : UInt64) : FlowState :=
  let flow :=
    if socketId ≠ 0 then
      { flow with
        socketAmbiguous :=
          flow.socketAmbiguous || (flow.socketId ≠ 0 && flow.socketId ≠ socketId)
        socketId := socketId }
    else flow
  let flow :=
    if detail.ownerValid ≠ 0 then
      { flow with
        task := if !flow.ownerValid || flow.ownerTgid ≠ detail.ownerTgid then [] else flow.task
        ownerValid := true
        ownerTid := detail.ownerTid
        ownerTgid := detail.ownerTgid
        ownerUid := detail.ownerUid }
    else if flow.ownerTgid = 0 then
      { flow with ownerTid := detail.tid, ownerTgid := detail.tgid, ownerUid := detail.uid }
    else flow
  if flow.task.isEmpty ∧ (flow.ownerTgid = 0 ∨ flow.ownerTgid = detail.tgid) then
    { flow with task := strncpy detail.task 16 }
  else flow

/-! ## The table -/

/-- Apply an entry function to the flow that a pointer designates. -/
def State.updateFlow (state : State) (flow : Nat)
    (change : FlowState → FlowState × List Record) : State :=
  match state.flows[flow]? with
  | none => state
  | some entry =>
      { state with
        flows := state.flows.set flow (change entry).1
        out := state.out ++ (change entry).2 }

/-- The size a full table is reallocated to. -/
def grown (capacity : Nat) : Nat :=
  if capacity = 0 then 32 else capacity * 2

/-- `flow_create` and `flow_add`: the serial number, the allocation, and the entry to be filled and
appended. `realloc` tells whether `realloc` succeeds when it is needed. -/
def flowCreate (state : State) (realloc : Bool) (tupleId socketId : UInt64) (netns : UInt32)
    (ts : UInt64) : State × Option FlowState :=
  let serial := state.flowSerial + 1
  let id := hashU64 (hashU32 (hashU64 tupleId socketId) netns) serial
  let state := { state with flowSerial := serial }
  let full := state.flows.length = state.flowCapacity
  if full ∧ !realloc then (state, none)
  else
    ({ state with flowCapacity := if full then grown state.flowCapacity else state.flowCapacity },
      some { FlowState.fresh id with
        tupleId := tupleId
        socketId := socketId
        netns := netns
        firstTs := ts
        lastTs := ts })

/-- The branch of `flow_from_socket` and `flow_from_packet` that found no flow. `fill` sets the
protocol, the addresses and the ports. -/
def flowOpen (state : State) (realloc : Bool) (detail : DetailEvent)
    (tupleId socketId ts : UInt64) (fill : FlowState → FlowState) : State × Option Nat :=
  match flowCreate state realloc tupleId socketId detail.netns ts with
  | (state, none) => (state, none)
  | (state, some flow) =>
      let (state, flow) := flowAssignDisplayIndex state (fill flow)
      let (flow, records) := flowEmitStart (flowSetOwner flow detail socketId)
      ({ state with flows := state.flows ++ [flow], out := state.out ++ records },
        some state.flows.length)

def FlowState.reach (flow : FlowState) (ts : UInt64) : FlowState :=
  if flow.lastTs < ts then { flow with lastTs := ts } else flow

def flowTouch (detail : DetailEvent) (socketId ts : UInt64) (flow : FlowState) :
    FlowState × List Record :=
  flowLinkSocket (flowSetOwner (flow.reach ts) detail socketId) ts

/-- The protocol, addresses and ports of a flow that `flow_from_socket` creates. -/
def socketFill (detail : DetailEvent) (flow : FlowState) : FlowState :=
  { flow with
    protocol := detail.ske.protoL4
    localAddr := (packetAddresses detail.ske).1
    remoteAddr := (packetAddresses detail.ske).2
    localPort := ntohs detail.ske.sport
    remotePort := ntohs detail.ske.dport }

def flowFromSocket (session : Session) (state : State) (realloc : Bool)
    (detail : DetailEvent) (ts : UInt64) : State × Option Nat :=
  let socketId := detailSocketInstanceId session.salt detail
  if !flowSocketSupported detail.ske then (state, none)
  else
    let id := socketFlowId session.salt detail.ske
    match flowLookup state.flows id socketId detail.netns ts with
    | ⟨none, true⟩ => (state, none)
    | ⟨none, false⟩ => flowOpen state realloc detail id socketId ts (socketFill detail)
    | ⟨some flow, _⟩ => (state.updateFlow flow (flowTouch detail socketId ts), some flow)

/-- The protocol, addresses and ports of a flow that `flow_from_packet` creates. -/
def packetFill (detail : DetailEvent) (flow : FlowState) : FlowState :=
  let (source, dest) := packetAddresses detail.pkt
  if detail.direction = .rx then
    { flow with
      protocol := detail.pkt.protoL4
      localAddr := dest
      remoteAddr := source
      localPort := ntohs detail.pkt.dport
      remotePort := ntohs detail.pkt.sport }
  else
    { flow with
      protocol := detail.pkt.protoL4
      localAddr := source
      remoteAddr := dest
      localPort := ntohs detail.pkt.sport
      remotePort := ntohs detail.pkt.dport }

def countPacket (direction : Direction) (flow : FlowState) : FlowState :=
  match direction with
  | .tx => { flow with txPackets := flow.txPackets + 1 }
  | .rx => { flow with rxPackets := flow.rxPackets + 1 }
  | .unknown => flow

/-- The end of `flow_from_packet`: count the packet at its anchor. -/
def flowAnchor (session : Session) (detail : DetailEvent) (trace : Trace)
    (result : State × Option Nat) : State × Option Nat :=
  match result.2 with
  | none => result
  | some flow =>
      if flowPacketAnchor session.toTraceContext trace detail.pkt.protoL4 detail.direction then
        (result.1.setFlow flow (countPacket detail.direction), some flow)
      else result

def flowFromPacket (session : Session) (state : State) (realloc : Bool)
    (detail : DetailEvent) (trace : Trace) : State × Option Nat :=
  let socketId := ownerSocketId session.salt detail
  if !flowPacketSupported detail.pkt trace then (state, none)
  else
    let id := packetFlowId session.salt detail.pkt
    match flowLookup state.flows id socketId detail.netns detail.ts with
    | ⟨none, true⟩ => (state, none)
    | ⟨found, _⟩ =>
        if packetTraceTerminal trace then
          match found with
          | some flow => (state, some flow)
          | none => (state, flowFindDestroyed state id socketId detail.netns detail.ts)
        else
          flowAnchor session detail trace
            (match found with
            | none => flowOpen state realloc detail id socketId detail.ts (packetFill detail)
            | some flow =>
                (state.updateFlow flow (flowTouch detail socketId detail.ts), some flow))

end Anettrace.Export
