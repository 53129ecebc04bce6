import Anettrace.Export.Syscall
import Anettrace.Library.Run

/-!
# Runs of the exporter

The entry points of `src/perfetto_export.c` as one step function, and `perfetto_export_close`. An
input is one call of an entry point; a run feeds any list of them, in any order of timestamps, to
the state after the export is opened. Once closed, every entry point returns at its first test, so
a run ends with at most one close.

Records that neither read nor change flows, calls and syscalls are left out: clock snapshots, socket
and packet events, connect diagnostics, receive handoffs, probe status and losses.
-/

namespace Anettrace.Export

open Library.Run

def udpFlowIdleNs : UInt64 :=
  30 * 1000 * 1000 * 1000

/-- `retevent_t`. -/
structure RetEvent where
  func : UInt16
  tid : UInt32
  ts : UInt64
  val : UInt64
  deriving DecidableEq, Repr, Inhabited

/-- A call of an entry point. -/
inductive Input where
  /-- A `FUNC_TYPE_RET` record. -/
  | ret (event : RetEvent) (size : UInt32)
  /-- A `FUNC_TYPE_FUNC` or `FUNC_TYPE_TRACING_RET` record. -/
  | event (sample : Sample) (cpu : Int) (realloc : Realloc)
  /-- A `FUNC_TYPE_SYSCALL` record. -/
  | syscall (call : SyscallEvent) (size : UInt32)
  /-- A `FUNC_TYPE_CONNECT` or `FUNC_TYPE_RX_HANDOFF` record of full size. -/
  | diagnostic
  /-- `perfetto_export_lost`. -/
  | lost (count : UInt64)
  /-- `perfetto_export_queue_lost`. -/
  | queueLost (count : UInt64)
  /-- `perfetto_export_mark_capture_end` at time `now`. -/
  | markCaptureEnd (now : UInt64)
  /-- `perfetto_export_tick` at time `now`, or 0 when the clock cannot be read. -/
  | tick (now : UInt64)
  deriving DecidableEq, Repr

def State.countExported (state : State) : State :=
  { state with exportedEvents := state.exportedEvents + 1 }

/-- `(s32)val`, widened to `s64`. -/
def returnValue (val : UInt64) : Int64 :=
  val.toUInt32.toInt32.toInt64

def finishFlows (state : State) (test : FlowState → Bool)
    (finish : FlowState → FlowState × List Record) : State :=
  (List.range state.flows.length).foldl
    (fun state flow =>
      state.updateFlow flow fun entry => if test entry then finish entry else (entry, []))
    state

/-- The branch of `perfetto_export_event_now` for packets: the flow of the packet and the link to
the call it was handled in. -/
def packetEvent (session : Session) (state : State) (realloc : Realloc)
    (detail : DetailEvent) (trace : Trace) : State :=
  let (state, flow) := flowFromPacket session state realloc.flow detail trace
  exportPacketIoLink session state detail (flow.bind (state.flows[·]?))

/-- The branch of `perfetto_export_event_now` for sockets. -/
def socketEvent (session : Session) (state : State) (realloc : Realloc)
    (detail : DetailEvent) (trace : Trace) : State :=
  let terminal := socketTraceTerminal trace
  let state :=
    if !terminal ∧ trace.name ≠ "tcp_close" then
      (flowFromSocket session state realloc.flow detail detail.ts).1
    else state
  if terminal then
    finishFlows state (fun flow => flow.socketId = detailSocketInstanceId session.salt detail)
      (flowFinish detail.ts .socketDestroy false)
  else state

/-- The branches of `perfetto_export_event_now` for records that start with a `detail_event_t`. -/
inductive Branch where
  /-- One of the early returns. -/
  | ignored
  /-- A `FUNC_TYPE_TRACING_RET` record of a protocol call. -/
  | returned
  /-- A packet at a stage that is not shown. Compact mode hides stages, not the ownership and
  submission evidence they carry. -/
  | hidden (trace : Trace)
  /-- The entry of a protocol call. -/
  | io (trace : Trace)
  /-- A `sk_alloc` or `inet_sock_set_state` record of full size. -/
  | lifecycle
  /-- Any other socket record. -/
  | socket (trace : Trace)
  /-- Any other packet record. -/
  | packet (trace : Trace)
  deriving DecidableEq, Repr

/-- The branch that `perfetto_export_event_now` takes on a visible `FUNC_TYPE_FUNC` record. -/
def visibleBranch (session : Session) (size : UInt32) (trace : Trace) : Branch :=
  if traceIsIo trace then .io trace
  else if trace.name = "sk_alloc" ∧ session.createSize ≤ size then .lifecycle
  else if trace.name = "inet_sock_set_state" ∧ session.stateSize ≤ size then .lifecycle
  else if trace.usingSk then .socket trace
  else .packet trace

/-- The branch that `perfetto_export_event_now` takes on a record. -/
def branch (session : Session) (sample : Sample) : Branch :=
  match session.getTrace sample.detail.func with
  | none => .ignored
  | some trace =>
      if sample.size < session.detailSize then .ignored
      else
        match sample.detail.metaType with
        | .tracingRet => if traceIsIo trace then .returned else .ignored
        | .func =>
            if traceEventVisible session.toTraceContext trace sample.detail then
              visibleBranch session sample.size trace
            else if trace.usingSk then .ignored
            else .hidden trace
        | _ => .ignored

/-- `perfetto_export_event_now` on a record that starts with a `detail_event_t`. -/
def exportEvent (session : Session) (state : State) (sample : Sample) (cpu : Int)
    (realloc : Realloc) : State :=
  let detail := sample.detail
  match branch session sample with
  | .ignored => state
  | .returned =>
      (pendingIoFinish session state (pendingIoFind state detail.func detail.tid) detail.ts
        (returnValue detail.retval) false).countExported
  | .hidden trace => packetEvent session state realloc detail trace
  | .io trace => (pendingIoStart session state realloc detail trace cpu).countExported
  | .lifecycle => state.countExported
  | .socket trace => (socketEvent session state realloc detail trace).countExported
  | .packet trace => (packetEvent session state realloc detail trace).countExported

/-- `perfetto_export_event_now` on a `FUNC_TYPE_RET` record. -/
def exportRet (session : Session) (state : State) (event : RetEvent) (size : UInt32) : State :=
  if size < session.retSize ∨ !(session.getTrace event.func).any traceIsIo then state
  else
    (pendingIoFinish session state (pendingIoFind state event.func event.tid) event.ts
      (returnValue event.val) false).countExported

/-- `now` in `perfetto_export_tick`: no later than the end of the capture. -/
def tickTime (state : State) (now : UInt64) : UInt64 :=
  if state.captureEndNs ≠ 0 ∧ state.captureEndNs < now then state.captureEndNs else now

/-- The flows that `perfetto_export_tick` finishes. -/
def idle (now : UInt64) (flow : FlowState) : Bool :=
  flow.active && flow.protocol = ipprotoUdp && flow.lastTs + udpFlowIdleNs ≤ now

/-- `perfetto_export_tick`. -/
def tick (state : State) (now : UInt64) : State :=
  if tickTime state now = 0 then state
  else
    finishFlows state (idle (tickTime state now))
      (fun flow => flowFinish (flow.lastTs + udpFlowIdleNs) .idleTimeout true flow)

/-- One call of an entry point. -/
def step (session : Session) (state : State) : Input → State
  | .ret event size => exportRet session state event size
  | .event sample cpu realloc => exportEvent session state sample cpu realloc
  | .syscall call size =>
      if size < session.syscallSize then state
      else (handleNetworkSyscall session.salt state call).countExported
  | .diagnostic => state.countExported
  | .lost count => { state with lostEvents := state.lostEvents + count }
  | .queueLost count =>
      { state with
        lostEvents := state.lostEvents + count
        queueLostEvents := state.queueLostEvents + count }
  | .markCaptureEnd now => if now = 0 then state else { state with captureEndNs := now }
  | .tick now => tick state now

def reached (session : Session) (inputs : List Input) : State :=
  run (step session) State.init inputs

/-! ## What a step observes -/

def anchoredIn (session : Session) (detail : DetailEvent) (trace : Trace) (flows : List FlowState)
    (flow : Option Nat) : List (UInt64 × Direction) :=
  if flowPacketAnchor session.toTraceContext trace detail.pkt.protoL4 detail.direction then
    (flow.bind (flows[·]?)).toList.map fun flow => (flow.id, detail.direction)
  else []

/-- The anchor packet of a packet record and the flow it is attributed to. A record of a packet's
end refers back to a flow and is not attributed to it. -/
def anchored (session : Session) (state : State) (realloc : Realloc) (detail : DetailEvent)
    (trace : Trace) : List (UInt64 × Direction) :=
  let (after, flow) := flowFromPacket session state realloc.flow detail trace
  if packetTraceTerminal trace then [] else anchoredIn session detail trace after.flows flow

def attributed (session : Session) (state : State) : Input → List (UInt64 × Direction)
  | .event sample _ realloc =>
      match branch session sample with
      | .hidden trace | .packet trace => anchored session state realloc sample.detail trace
      | _ => []
  | _ => []

/-- The anchor packets of a run. -/
def attributions (session : Session) (inputs : List Input) : List (UInt64 × Direction) :=
  observations (step session) (attributed session) State.init inputs

/-- The `io_id` of the call that a record begins, if `pending_io_start` accepts it. -/
def acceptedIn (session : Session) (state : State) (realloc : Realloc) (detail : DetailEvent)
    (trace : Trace) : List UInt64 :=
  match (pendingIoAccept session (pendingIoObserve state detail) realloc.io detail trace).2 with
  | some _ => [startIoId session.salt detail]
  | none => []

/-- The calls that an input begins. -/
def accepted (session : Session) (state : State) : Input → List UInt64
  | .event sample _ realloc =>
      match branch session sample with
      | .io trace => acceptedIn session state realloc sample.detail trace
      | _ => []
  | _ => []

/-- The calls that a run accepts, in order. -/
def acceptances (session : Session) (inputs : List Input) : List UInt64 :=
  observations (step session) (accepted session) State.init inputs

/-! ## Closing -/

/-- The loop of `perfetto_export_close` over `pending_ios`. -/
def closeIos (session : Session) (state : State) (endTs : UInt64) : State :=
  (List.range state.ios.length).foldl
    (fun state io => pendingIoFinish session state (some io) endTs 0 true) state

/-- The loop of `perfetto_export_close` over `pending_syscalls`, and the `memset` after it. -/
def closeSyscalls (session : Session) (state : State) (endTs : UInt64) : State :=
  { state with syscalls := [] }.writeSyscalls
    (state.syscalls.flatMap (closeSlot session.salt endTs state))

/-- `end_ts` in `perfetto_export_close`. -/
def closeTime (state : State) (now : UInt64) : UInt64 :=
  if state.captureEndNs ≠ 0 then state.captureEndNs else now

/-- `perfetto_export_close` up to the last record, at time `now`. -/
def closeTables (session : Session) (state : State) (now : UInt64) : State :=
  let endTs := closeTime state now
  let state := closeSyscalls session (closeIos session state endTs) endTs
  finishFlows state (fun _ => true) (flowFinish endTs .traceEnd true)

/-- The JSONL file that `perfetto_export_close` leaves. -/
def close (session : Session) (state : State) (now eventCount : UInt64) : List Record :=
  (closeTables session state now).out ++
    [.traceEnd
      { ts := closeTime state now
        eventCount := eventCount
        exportedEvents := state.exportedEvents
        lostEvents := state.lostEvents
        queueLostEvents := state.queueLostEvents }]

/-! ## A small session -/

/-- A session that traces three functions, for concrete runs. -/
def smallSession : Session where
  getTrace func :=
    [⟨"ip_output", false, false, false, false⟩, ⟨"udp_rcv", false, false, false, false⟩,
      ⟨"tcp_sendmsg", true, false, false, false⟩][func.toNat]?
  perfetto := true
  rxContext := false
  uidEnabled := false
  pid := 0
  uid := 0
  traceDetail := false
  traceTags := false
  connectDiagnostics := false
  salt := 7
  detailSize := 232
  createSize := 256
  stateSize := 256
  retSize := 24
  syscallSize := 200

/-- A record of thread 7 on a connection of socket 9. -/
def smallInput (func : UInt16) (protocol : UInt8) (direction : Direction) (ts : UInt64) : Input :=
  let endpoints : Endpoints := ⟨[10, 0, 0, 1, 10, 0, 0, 2], ethPIp, protocol, 0x5000, 0xBB01⟩
  let detail : DetailEvent :=
    { (default : DetailEvent) with
      metaType := .func
      func := func
      key := 1
      keyGeneration := 1
      ts := ts
      pkt := endpoints
      ske := endpoints
      tid := 7
      tgid := 7
      direction := direction
      ownerSocketKey := 9
      ownerSocketGeneration := 1
      ownerValid := 1 }
  .event ⟨detail, 232, []⟩ 0 ⟨true, true⟩

end Anettrace.Export
