import Anettrace.Export.Flow

/-!
# Protocol calls

The pending I/O functions of `src/perfetto_export.c`: a call of a protocol's `sendmsg` or `recvmsg`
is pending from its entry to its return, and packets recorded in between link it to a flow.
-/

namespace Anettrace.Export

def pendingIoFind (state : State) (func : UInt16) (tid : UInt32) : Option Nat :=
  state.ios.findIdx? fun pending => pending.active && pending.func = func && pending.tid = tid

def pendingIoFindLogical (state : State) (tid : UInt32) (socketId : UInt64)
    (tx : Bool) : Option Nat :=
  state.ios.findIdx? fun pending =>
    pending.active && pending.tid = tid && pending.socketId = socketId && pending.tx = tx

def pendingIoAdd (state : State) (realloc : Bool) (func : UInt16) (tid : UInt32) :
    State × Option Nat :=
  match pendingIoFind state func tid with
  | some io => (state, some io)
  | none =>
      match state.ios.findIdx? fun pending => !pending.active with
      | some io => ({ state with ios := state.ios.set io (PendingIo.fresh func tid) }, some io)
      | none =>
          let full := state.ios.length = state.ioCapacity
          if full ∧ !realloc then (state, none)
          else
            ({ state with
                ios := state.ios ++ [PendingIo.fresh func tid]
                ioCapacity := if full then grown state.ioCapacity else state.ioCapacity },
              some state.ios.length)

def PendingIo.callId (salt : UInt64) (pending : PendingIo) : UInt64 :=
  if pending.syscallStartTs ≠ 0 then
    nativeUuid salt "syscall-call" (threadWord pending.tgid pending.tid) pending.syscallStartTs
  else 0

def PendingIo.association (pending : PendingIo) : Association :=
  if pending.flowAmbiguous then .multipleFlows
  else if pending.flowId ≠ 0 then .associated
  else .unassociated

def ioStartRecord (session : Session) (state : State) (protocol : ProtocolName)
    (pending : PendingIo) : IoStart where
  tx := pending.tx
  ts := pending.startTs
  stage := pending.stage
  socketId := pending.socketId
  flowId := pending.flowId
  flowTag := formatKnownFlowLabel state pending.flowId
  protocol := protocol
  cpu := pending.cpu
  tid := pending.tid
  tgid := pending.tgid
  uid := pending.uid
  task := jsonEscape pending.task 64
  ownerTid := pending.ownerTid
  ownerTgid := pending.ownerTgid
  ownerUid := pending.ownerUid
  ioId := pending.ioId
  callId := pending.callId session.salt

/-- The stage `pending_io_emit_start` stores: at most 31 characters. -/
def ioStage (session : Session) (trace : Option Trace) (flow : Option FlowState)
    (tx : Bool) : String :=
  let stage :=
    if flow.any (fun flow => flowProtocolName flow = .udpDns) then
      if tx then "DNS write" else "DNS read"
    else traceEventName session.toTraceContext trace
  String.ofList (stage.toList.take 31)

def pendingIoEmitStart (session : Session) (state : State) (trace : Option Trace)
    (flow : Option FlowState) (pending : PendingIo) : PendingIo × List Record :=
  if pending.visible then (pending, [])
  else
    let protocol :=
      match flow with
      | some flow => flowProtocolName flow
      | none => if pending.protocol = ipprotoTcp then .tcp else .udp
    let pending :=
      { pending with
        flowId := (flow.map FlowState.id).getD pending.flowId
        stage := ioStage session trace flow pending.tx }
    ({ pending with visible := true },
      [.ioStart (ioStartRecord session state protocol pending)])

def resultBytes (result : Int64) : UInt64 :=
  if 0 < result then result.toUInt64 else 0

def resultError (result : Int64) : UInt64 :=
  if result < 0 then (-result).toUInt64 else 0

def ioEndRecord (session : Session) (state : State) (stage : String) (ts : UInt64)
    (result : Int64) (incomplete : Bool) (pending : PendingIo) : IoEnd where
  tx := pending.tx
  ts := ts
  stage := stage
  tid := pending.tid
  socketId := pending.socketId
  flowId := pending.flowId
  flowTag := formatKnownFlowLabel state pending.flowId
  result := result
  bytes := resultBytes result
  error := resultError result
  incomplete := incomplete
  ioId := pending.ioId
  callId := pending.callId session.salt
  association := pending.association

def ioCompleteRecord (session : Session) (state : State) (ts : UInt64) (result : Int64)
    (incomplete : Bool) (pending : PendingIo) : IoComplete where
  ts := ts
  ioId := pending.ioId
  callId := pending.callId session.salt
  socketId := pending.socketId
  flowId := pending.flowId
  flowTag := formatKnownFlowLabel state pending.flowId
  tid := pending.tid
  tgid := pending.tgid
  tx := pending.tx
  result := result
  bytes := resultBytes result
  error := resultError result
  incomplete := incomplete
  association := pending.association

def ioProtocol (trace : Option Trace) : UInt8 :=
  if trace.any (fun trace => "tcp_".toList.isPrefixOf trace.name.toList) then ipprotoTcp
  else ipprotoUdp

def ioFlow (session : Session) (state : State) (pending : PendingIo) : Option Nat :=
  let protocol := ioProtocol (session.getTrace pending.func)
  let linked := if pending.flowId ≠ 0 then flowFind state pending.flowId else none
  match linked with
  | some flow => some flow
  | none =>
      if !pending.flowAmbiguous ∧ protocol = ipprotoTcp then
        flowFindBySocket state pending.socketId protocol
      else none

/-- The syscall in whose course a pending I/O began takes over its flow, except for the calls that
move several messages. -/
def bindSyscallFlow (pending : PendingIo) (flowId : UInt64) (slot : SyscallSlot) : SyscallSlot :=
  if slot.active ∧ slot.event.tid = pending.tid ∧ slot.event.tgid = pending.tgid ∧
      slot.event.startTs ≤ pending.startTs then
    { slot with
      flowId :=
        if slot.event.kind = .sendmmsg ∨ slot.event.kind = .recvmmsg then 0 else flowId }
  else slot

/-- The traffic that `pending_io_finish` adds to a flow. -/
def creditFlow (pending : PendingIo) (ts bytes : UInt64) (flow : FlowState) : FlowState :=
  let flow := flow.reach ts
  if bytes = 0 then flow
  else if pending.tx then { flow with txBytes := flow.txBytes + bytes }
  else { flow with rxBytes := flow.rxBytes + bytes }

def pendingIoFinish (session : Session) (state : State) (io : Option Nat) (ts : UInt64)
    (result : Int64) (incomplete : Bool) : State :=
  match io, io.bind (state.ios[·]?) with
  | some io, some pending =>
      if !pending.active then state
      else
        let trace := session.getTrace pending.func
        let stage :=
          if pending.stage ≠ "" then pending.stage
          else traceEventName session.toTraceContext trace
        let flow := ioFlow session state pending
        let entry := flow.bind (state.flows[·]?)
        let pending := { pending with flowId := (entry.map FlowState.id).getD pending.flowId }
        let (pending, start) := pendingIoEmitStart session state trace entry pending
        let state :=
          match flow, entry with
          | some flow, some entry =>
              { state with
                syscalls := state.syscalls.map (bindSyscallFlow pending entry.id)
                flows := state.flows.set flow (creditFlow pending ts (resultBytes result) entry) }
          | _, _ => state
        { state with
          ios := state.ios.set io { pending with active := false }
          out := state.out ++ start ++
            [.ioEnd (ioEndRecord session state stage ts result incomplete pending),
              .ioComplete (ioCompleteRecord session state ts result incomplete pending)] }
  | _, _ => state

/-- The syscall in whose course a protocol call begins takes over its socket. -/
def bindSyscallSocket (detail : DetailEvent) (slot : SyscallSlot) : SyscallSlot :=
  if slot.active ∧ slot.event.tid = detail.tid ∧ slot.event.tgid = detail.tgid ∧
      slot.event.startTs ≤ detail.ts then
    { slot with
      event := { slot.event with
        socketKey := if detail.ownerSocketKey ≠ 0 then detail.ownerSocketKey else detail.key
        socketGeneration :=
          if detail.ownerSocketKey ≠ 0 then detail.ownerSocketGeneration
          else detail.keyGeneration } }
  else slot

/-- `pending_io_start` up to its search for the call of the same function and thread. -/
def pendingIoObserve (state : State) (detail : DetailEvent) : State :=
  { state with syscalls := state.syscalls.map (bindSyscallSocket detail) }

/-- The return of `pending_io_start` at a record of a call it already holds. -/
def pendingIoRepeats (state : State) (detail : DetailEvent) : Bool :=
  match (pendingIoFind state detail.func detail.tid).bind (state.ios[·]?) with
  | some pending => detail.ioStartTs ≠ 0 && pending.startTs = detail.ioStartTs
  | none => false

/-- `pending_io_start` from that search to `pending_io_add`: the state reached there and the new
entry, if there is one. -/
def pendingIoAccept (session : Session) (state : State) (realloc : Bool)
    (detail : DetailEvent) (trace : Trace) : State × Option Nat :=
  let socketId := detailSocketInstanceId session.salt detail
  let stale := pendingIoFind state detail.func detail.tid
  if pendingIoRepeats state detail then (state, none)
  else
    let state := pendingIoFinish session state stale detail.ts 0 true
    match pendingIoFindLogical state detail.tid socketId (traceIsTxWrite trace) with
    | some _ => (state, none)
    | none => pendingIoAdd state realloc detail.func detail.tid

/-- `pending->start_ts` of the call a record begins. -/
def ioStartTs (detail : DetailEvent) : UInt64 :=
  if detail.ioStartTs ≠ 0 then detail.ioStartTs else detail.ts

/-- The `io_id` of the call a record begins. -/
def startIoId (salt : UInt64) (detail : DetailEvent) : UInt64 :=
  nativeUuid salt "io-call" (threadWord detail.tgid detail.tid) (ioStartTs detail)

/-- The assignments of `pending_io_start` to a new entry. -/
def ioFill (session : Session) (detail : DetailEvent) (trace : Trace) (cpu : Int)
    (pending : PendingIo) : PendingIo :=
  { pending with
    startTs := ioStartTs detail
    syscallStartTs := detail.syscallStartTs
    ioId := startIoId session.salt detail
    socketId := detailSocketInstanceId session.salt detail
    tx := traceIsTxWrite trace
    protocol := detail.ske.protoL4
    tgid := detail.tgid
    uid := detail.uid
    cpu := cpu
    ownerTid := detail.ownerTid
    ownerTgid := detail.ownerTgid
    ownerUid := detail.ownerUid
    task := strncpy detail.task 16 }

/-- Whether `realloc` succeeds, for the table of flows and for the table of calls. -/
structure Realloc where
  flow : Bool
  io : Bool
  deriving DecidableEq, Repr

/-- The end of `pending_io_start`: the flow of the socket, unless the socket may be unconnected,
and the start record of the entry `io`. -/
def pendingIoBegin (session : Session) (state : State) (realloc : Realloc)
    (detail : DetailEvent) (trace : Trace) (cpu : Int) (io : Nat) : State :=
  let state := state.setIo io (ioFill session detail trace cpu)
  let (state, flow) :=
    if detail.ske.protoL4 = ipprotoUdp then (state, none)
    else flowFromSocket session state realloc.flow detail detail.ts
  match state.ios[io]? with
  | none => state
  | some pending =>
      let (pending, start) :=
        pendingIoEmitStart session state (some trace) (flow.bind (state.flows[·]?)) pending
      { state with ios := state.ios.set io pending, out := state.out ++ start }

def pendingIoStart (session : Session) (state : State) (realloc : Realloc)
    (detail : DetailEvent) (trace : Trace) (cpu : Int) : State :=
  match pendingIoAccept session (pendingIoObserve state detail) realloc.io detail trace with
  | (state, none) => state
  | (state, some io) => pendingIoBegin session state realloc detail trace cpu io

/-! ## Links -/

/-- The test before `export_packet_io_link` does anything. -/
def packetIoLinked (detail : DetailEvent) : Bool :=
  detail.ioStartTs ≠ 0 && detail.ioRole ≠ 0 && detail.ioRole ≠ 4 && detail.ioMultiple = 0

/-- The `io_id` of the call a packet was submitted or copied in. -/
def linkIoId (salt : UInt64) (detail : DetailEvent) : UInt64 :=
  nativeUuid salt "io-call" (threadWord detail.ioTgid detail.ioTid) detail.ioStartTs

def linkIo (ioId flowId : UInt64) (pending : PendingIo) : PendingIo :=
  if !pending.active ∨ pending.ioId ≠ ioId then pending
  else
    let ambiguous :=
      pending.flowAmbiguous || (pending.flowId ≠ 0 && pending.flowId ≠ flowId)
    { pending with
      flowAmbiguous := ambiguous
      flowId := if ambiguous then 0 else flowId }

def packetIoLinkRecord (session : Session) (state : State) (detail : DetailEvent)
    (flow : Option FlowState) : PacketIoLink where
  ts := detail.ts
  ioId := linkIoId session.salt detail
  callId :=
    if detail.syscallStartTs ≠ 0 then
      nativeUuid session.salt "syscall-call" (threadWord detail.ioTgid detail.ioTid)
        detail.syscallStartTs
    else 0
  packetId := packetId session.salt detail.ts detail.key detail.keyGeneration
  flowId := (flow.map FlowState.id).getD 0
  socketId :=
    if detail.ownerSocketKey ≠ 0 then ownerSocketId session.salt detail
    else (flow.map FlowState.socketId).getD 0
  flowTag := formatKnownFlowLabel state ((flow.map FlowState.id).getD 0)
  tid := detail.ioTid
  tgid := detail.ioTgid
  tx := detail.ioRole = 1
  offset := detail.ioOffset
  copyBytes := detail.ioBytes
  evidence :=
    if detail.ioRole = 1 then .submissionContext
    else if detail.ioRole = 2 then .copyAttempt
    else .receiveRelease

def exportPacketIoLink (session : Session) (state : State) (detail : DetailEvent)
    (flow : Option FlowState) : State :=
  if !packetIoLinked detail then state
  else
    let ios :=
      match flow with
      | some flow => state.ios.map (linkIo (linkIoId session.salt detail) flow.id)
      | none => state.ios
    { state with
      ios := ios
      out := state.out ++
        [.packetIoLink (packetIoLinkRecord session state detail flow)] }

end Anettrace.Export
