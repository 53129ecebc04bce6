import Anettrace.Export.FlowAgreement
import Anettrace.Native.Overview
import Anettrace.Native.Ring
import Anettrace.Native.Sockets

/-!
# Captures

The entry points of `src/perfetto_export.c` with both outputs open: the tables and the records of
`Anettrace.Export`, the native trace, and all lines of the JSONL file. An input is one call of an
entry point, or a clock snapshot that one of them writes first. The writes of one output look at the
other nowhere, so the native trace is the one that a capture without a JSONL file writes.
-/

namespace Anettrace.Capture

open Anettrace.Export Anettrace.Native Library.Run

/-! ## Lines -/

/-- A line of the JSONL file: a record of the tables, or one of the lines that the converter reads
times and ids of. Of the other lines it is the time that matters: packets, handoffs, losses, probes
and the receive context. -/
inductive Line where
  | record (record : Record)
  | clockSnapshot (monotonicNs boottimeNs realtimeNs : UInt64)
  | socketCreate (startTs ts socketId : UInt64)
  | socketState (ts socketId : UInt64) (terminal : Bool)
  | socketEvent (ts socketId : UInt64) (terminal : Bool)
  | connect (kind : ConnectKind) (ts attemptId socketId : UInt64) (error : Int64)
      (asyncPending : Bool)
  | other (ts : UInt64)
  deriving DecidableEq, Repr

/-- `fprintf(export_file, …)` on the records between two states. -/
def newLines (before after : State) : List Line :=
  (after.out.drop before.out.length).map .record

def exportConnectEvent (salt : UInt64) (connect : ConnectEvent) : List Line :=
  let socketId :=
    if connect.socketKey ≠ 0 then socketInstanceId salt connect.socketKey connect.socketGeneration
    else 0
  if connect.kind = .other then []
  else
    [.connect connect.kind connect.ts (connect.attemptId salt) socketId connect.result
      connect.asyncPending]

/-! ## Inputs -/

/-- The fields that `detail_socket_create_event_t` and `detail_sock_state_event_t` add. -/
structure SocketExtension where
  startTs : UInt64
  newstate : Int
  deriving DecidableEq, Repr, Inhabited

/-- A call of an entry point. -/
inductive CaptureInput where
  /-- `write_clock_snapshot` in `write_clock_snapshot_if_due`. -/
  | clock (monotonicNs boottimeNs realtimeNs : UInt64)
  | ret (event : RetEvent) (size : UInt32)
  | event (sample : Sample) (extension : SocketExtension) (cpu : Int) (realloc : Realloc)
  | syscall (call : SyscallEvent) (size : UInt32)
  /-- A `FUNC_TYPE_CONNECT` record of full size. -/
  | connect (connect : ConnectEvent)
  /-- A `FUNC_TYPE_RX_HANDOFF` record of full size. -/
  | handoff (ready : RxHandoff)
  | lost (now count : UInt64)
  | queueLost (now count : UInt64)
  | markCaptureEnd (now : UInt64)
  | tick (now : UInt64)
  deriving DecidableEq, Repr

def CaptureInput.toInput : CaptureInput → Option Input
  | .clock _ _ _ => none
  | .ret record size => some (.ret record size)
  | .event sample _ cpu realloc => some (.event sample cpu realloc)
  | .syscall call size => some (.syscall call size)
  | .connect _ | .handoff _ => some .diagnostic
  | .lost _ count => some (.lost count)
  | .queueLost _ count => some (.queueLost count)
  | .markCaptureEnd now => some (.markCaptureEnd now)
  | .tick now => some (.tick now)

/-- The state of the exporter in a capture. -/
structure Exporter where
  state : State
  native : Overview
  lines : List Line

/-- The exporter after both outputs were opened. -/
def Exporter.init : Exporter :=
  ⟨State.init, Overview.init, []⟩

def tablesStep (session : Session) (state : State) (input : CaptureInput) : State :=
  match input.toInput with
  | none => state
  | some input => step session state input

/-! ## The native half -/

/-- Change the native trace. -/
def withTrail (overview : Overview) (trail : Trail) : Overview :=
  { overview with toTrail := trail }

/-- The native half of `flow_from_packet` and `export_packet_io_link`. -/
def nativePacketEvent (session : Session) (state : State) (trail : Trail) (realloc : Realloc)
    (detail : DetailEvent) (trace : Trace) : Trail :=
  nativePacketIoLink session (nativeFlowFromPacket session state trail realloc.flow detail trace)
    detail

def nativeEventCorrelation (event : ProtoBuffer) (correlationId : UInt64) : ProtoBuffer :=
  if correlationId ≠ 0 then event.protoUint 52 correlationId else event

/-- The event of `native_export_packet_event` before its annotations. -/
def packetEventStart (session : CaptureSession) (state : State) (detail : DetailEvent)
    (trace : Trace) : ProtoBuffer :=
  let event := ProtoBuffer.empty.nativeEventStart EventType.instant.code
    (threadUuid session.salt detail.tgid detail.tid) (session.packetName state detail trace)
    (session.packetCategory trace)
  let event := event.nativeEventFlow session.traceTags
    (packetId session.salt detail.ts detail.key detail.keyGeneration) (packetTraceTerminal trace)
  nativeEventCorrelation event (detailFlowId session.toSession state detail false)

/-- The end of `native_export_packet_event`: the annotation of the socket, which tags mode leaves to
the overview unless the packet names one. -/
def packetEventEnd (session : CaptureSession) (detail : DetailEvent) (event : ProtoBuffer) :
    ProtoBuffer :=
  let socketId := ownerSocketId session.salt detail
  if !session.traceTags ∨ socketId ≠ 0 then event.nativeAnnotationId "socket_id" socketId else event

theorem packetEventEnd_length (session : CaptureSession) (detail : DetailEvent)
    (event : ProtoBuffer) :
    event.data.length ≤ (packetEventEnd session detail event).data.length := by
  unfold packetEventEnd
  dsimp only
  split
  · rw [ProtoBuffer.nativeAnnotationId_appends "socket_id" _ event, List.length_append]
    exact Nat.le_add_right _ _
  · exact Nat.le_refl _

/-- The arguments of `native_packet_overview_queue`. -/
def packetRequest (session : CaptureSession) (state : State) (sample : Sample) (cpu : Int)
    (trace : Trace) : QueueRequest :=
  let detail := sample.detail
  let start := packetEventStart session state detail trace
  let fields := session.packetFields state sample cpu trace
  { detail := detail
    flowId := detailFlowId session.toSession state detail false
    threadUuid := threadUuid session.salt detail.tgid detail.tid
    name := session.packetName state detail trace
    event := packetEventEnd session detail (start.protoBytes fields)
    annotationOffset := start.data.length
    annotationSize := fields.length
    within := by
      refine le_trans (le_of_eq ?_) (packetEventEnd_length session detail _)
      exact List.length_append.symm }

def nativeExportPacketEvent (session : CaptureSession) (state : State) (overview : Overview)
    (sample : Sample) (cpu : Int) (trace : Trace) : Overview :=
  let detail := sample.detail
  let overview := overviewObserve session.toSession state overview detail
  let (trail, _) :=
    nativeThreadTrack session.salt overview.toTrail detail.tgid detail.tid detail.task
  overviewQueue session.toSession state (withTrail overview trail)
    (packetRequest session state sample cpu trace)

/-- The tables after `flow_from_socket` in the branch of `perfetto_export_event_now` for sockets. -/
def socketFlowState (session : Session) (state : State) (realloc : Realloc)
    (detail : DetailEvent) (trace : Trace) : State :=
  if !socketTraceTerminal trace ∧ trace.name ≠ "tcp_close" then
    (flowFromSocket session state realloc.flow detail detail.ts).1
  else state

/-- The native half of the branch of `perfetto_export_event_now` for sockets. -/
def nativeSocketEvent (session : Session) (state : State) (trail : Trail) (realloc : Realloc)
    (detail : DetailEvent) (trace : Trace) : Trail :=
  let terminal := socketTraceTerminal trace
  let trail :=
    if !terminal ∧ trace.name ≠ "tcp_close" then
      nativeFlowFromSocket session state trail realloc.flow detail detail.ts
    else trail
  let trail := nativeExportSocketEvent session trail detail trace
  if terminal then
    nativeFinishFlows session (socketFlowState session state realloc detail trace) trail
      (fun flow => flow.socketId = detailSocketInstanceId session.salt detail) (fun _ => detail.ts)
  else trail

/-- The record is one of `sk_alloc`. -/
def createsSocket (session : Session) (detail : DetailEvent) : Bool :=
  (session.getTrace detail.func).any fun trace => trace.name = "sk_alloc"

/-- The native half of `perfetto_export_event_now` on a record that starts with a
`detail_event_t`. -/
def nativeExportEvent (session : CaptureSession) (state : State) (overview : Overview)
    (sample : Sample) (extension : SocketExtension) (cpu : Int) (realloc : Realloc) : Overview :=
  let detail := sample.detail
  let flushed := overviewFlush session.toSession state overview detail.ts false
  match branch session.toSession sample with
  | .ignored => overview
  | .returned =>
      withTrail overview (nativePendingIoFinish session.toSession state overview.toTrail
        (pendingIoFind state detail.func detail.tid) detail.ts)
  | .hidden trace =>
      let overview := overviewObserve session.toSession state overview detail
      withTrail overview
        (nativePacketEvent session.toSession state overview.toTrail realloc detail trace)
  | .io trace =>
      withTrail flushed
        (nativePendingIoStart session.toSession state flushed.toTrail realloc detail trace cpu)
  | .lifecycle =>
      withTrail flushed
        (if createsSocket session.toSession detail then
          nativeExportSocketCreate session.toSession flushed.toTrail detail extension.startTs
        else nativeExportSocketState session.toSession flushed.toTrail detail extension.newstate)
  | .socket trace =>
      withTrail flushed
        (nativeSocketEvent session.toSession state flushed.toTrail realloc detail trace)
  | .packet trace =>
      let overview := withTrail flushed
        (nativePacketEvent session.toSession state flushed.toTrail realloc detail trace)
      nativeExportPacketEvent session
        (packetEvent session.toSession state realloc detail trace) overview sample cpu trace

/-- The native half of an entry point. -/
def nativeStep (session : CaptureSession) (state : State) (overview : Overview) :
    CaptureInput → Overview
  | .clock monotonicNs boottimeNs realtimeNs =>
      withTrail overview
        (nativeClockSnapshot overview.toTrail monotonicNs boottimeNs realtimeNs)
  | .ret event size =>
      if size < session.retSize ∨ !(session.getTrace event.func).any traceIsIo then overview
      else
        withTrail overview (nativePendingIoFinish session.toSession state overview.toTrail
          (pendingIoFind state event.func event.tid) event.ts)
  | .event sample extension cpu realloc =>
      nativeExportEvent session state overview sample extension cpu realloc
  | .syscall call size =>
      if size < session.syscallSize then overview
      else withTrail overview (nativeHandleNetworkSyscall session state overview.toTrail call)
  | .connect connect =>
      withTrail overview (nativeExportConnectEvent session.toSession overview.toTrail connect)
  | .handoff ready =>
      withTrail overview (nativeExportRxHandoff session.toSession overview.toTrail ready)
  | .lost now _ | .queueLost now _ =>
      withTrail overview
        (nativeExportMeta session.toSession overview.toTrail (tickTime state now))
  | .markCaptureEnd _ => overview
  | .tick now =>
      if tickTime state now = 0 then overview
      else
        let overview := overviewFlush session.toSession state overview (tickTime state now) false
        withTrail overview (nativeFinishFlows session.toSession state overview.toTrail
          (idle (tickTime state now)) fun flow => flow.lastTs + udpFlowIdleNs)

/-! ## The JSONL file -/

/-- The lines of `perfetto_export_event_now` on a record that starts with a `detail_event_t`. -/
def eventLines (session : Session) (state : State) (sample : Sample)
    (extension : SocketExtension) (cpu : Int) (realloc : Realloc) : List Line :=
  let detail := sample.detail
  let socketId := recordSocketId session.salt detail
  let after := exportEvent session state sample cpu realloc
  match branch session sample with
  | .ignored | .returned | .hidden _ | .io _ => newLines state after
  | .lifecycle =>
      if createsSocket session detail then [.socketCreate extension.startTs detail.ts socketId]
      else [.socketState detail.ts socketId (extension.newstate = tcpClose)]
  | .socket trace =>
      let linked := socketFlowState session state realloc detail trace
      newLines state linked ++
        .socketEvent detail.ts socketId (socketTraceTerminal trace) :: newLines linked after
  | .packet _ => newLines state after ++ [.other detail.ts]

/-- The lines of an entry point. -/
def stepLines (session : Session) (state : State) : CaptureInput → List Line
  | .clock monotonicNs boottimeNs realtimeNs => [.clockSnapshot monotonicNs boottimeNs realtimeNs]
  | .event sample extension cpu realloc => eventLines session state sample extension cpu realloc
  | .connect connect => exportConnectEvent session.salt connect
  | .handoff ready => if ready.shown then [.other ready.ts] else []
  | .lost now _ | .queueLost now _ => [.other (tickTime state now)]
  | input => newLines state (tablesStep session state input)

/-! ## Runs -/

def captureStep (session : CaptureSession) (exporter : Exporter) (input : CaptureInput) :
    Exporter where
  state := tablesStep session.toSession exporter.state input
  native := nativeStep session exporter.state exporter.native input
  lines := exporter.lines ++ stepLines session.toSession exporter.state input

def captured (session : CaptureSession) (inputs : List CaptureInput) : Exporter :=
  run (captureStep session) Exporter.init inputs

/-! ## Closing -/

/-- The body of the loop of `perfetto_export_close` over the tracks of sockets. -/
def nativeCloseSocketTrack (session : Session) (endTs : UInt64) (trail : Trail) (place : Nat) :
    Trail :=
  if (trail.tracks[place]?).any (·.kind = .socket) then
    nativeCloseSocket session trail endTs place
  else trail

/-- The loop of `perfetto_export_close` over the tracks of sockets. -/
def nativeCloseSockets (session : Session) (trail : Trail) (endTs : UInt64) : Trail :=
  (List.range trail.tracks.length).foldl (nativeCloseSocketTrack session endTs) trail

/-- The body of the loop of `perfetto_export_close` over the tracks of connect attempts. -/
def nativeCloseAttempt (session : Session) (endTs : UInt64) (trail : Trail) (place : Nat) : Trail :=
  match trail.tracks[place]? with
  | none => trail
  | some track =>
      if track.kind ≠ .connect ∨ !track.active then trail
      else
        (nativeSlice session trail endTs
          ⟨.sliceEnd, track.uuid, .connect, track.object⟩).setActive place false

/-- The loop of `perfetto_export_close` over the tracks of connect attempts. -/
def nativeCloseAttempts (session : Session) (trail : Trail) (endTs : UInt64) : Trail :=
  (List.range trail.tracks.length).foldl (nativeCloseAttempt session endTs) trail

/-- What `perfetto_export_close` reads of the clock: `now`, and the snapshot it writes if it can. -/
structure CloseClock where
  now : UInt64
  snapshot : Option (UInt64 × UInt64 × UInt64)
  deriving DecidableEq, Repr

/-- The clock snapshot and the metadata at the start of `perfetto_export_close`. -/
def nativeCloseStart (session : CaptureSession) (trail : Trail) (endTs : UInt64)
    (clock : CloseClock) : Trail :=
  let trail :=
    match clock.snapshot with
    | some (monotonicNs, boottimeNs, realtimeNs) =>
        nativeClockSnapshot trail monotonicNs boottimeNs realtimeNs
    | none => trail
  let trail := (List.range session.ambiguousProbes).foldl
    (fun trail _ => nativeExportMeta session.toSession trail endTs) trail
  if session.rxContext then nativeExportMeta session.toSession trail endTs else trail

/-- The part of `perfetto_export_close` on calls and flows. -/
def nativeCloseTables (session : CaptureSession) (state : State) (trail : Trail)
    (endTs : UInt64) : Trail :=
  let trail := nativeCloseIos session.toSession state trail endTs
  let state := closeIos session.toSession state endTs
  let trail := (closedCalls state endTs).foldl (nativeExportNetworkSyscall session) trail
  let state := closeSyscalls session.toSession state endTs
  nativeFinishFlows session.toSession state trail (fun _ => true) (fun _ => endTs)

/-- The end of `perfetto_export_close`: the metadata of the overview, the tracks that are open, and
the metadata of the trace. -/
def nativeCloseTracks (session : CaptureSession) (trail : Trail) (endTs : UInt64) : Trail :=
  let session' := session.toSession
  let trail := nativeExportMeta session' (nativeExportMeta session' trail endTs) endTs
  let trail := nativeCloseSockets session' trail endTs
  let trail := nativeCloseAttempts session' trail endTs
  let trail := if session.windowNs ≠ 0 then nativeExportMeta session' trail endTs else trail
  nativeExportMeta session' (nativeExportMeta session' trail endTs) endTs

/-- The native trace that `perfetto_export_close` leaves. -/
def captureClose (session : CaptureSession) (exporter : Exporter) (clock : CloseClock) : Trail :=
  let endTs := closeTime exporter.state clock.now
  let overview := withTrail exporter.native
    (nativeCloseStart session exporter.native.toTrail endTs clock)
  let overview := overviewFlush session.toSession exporter.state overview endTs true
  nativeCloseTracks session
    (nativeCloseTables session exporter.state overview.toTrail endTs) endTs

/-- The JSONL file that `perfetto_export_close` leaves. -/
def closeLines (session : CaptureSession) (exporter : Exporter) (clock : CloseClock)
    (eventCount : UInt64) : List Line :=
  let endTs := closeTime exporter.state clock.now
  let snapshot :=
    match clock.snapshot with
    | some (monotonicNs, boottimeNs, realtimeNs) =>
        [.clockSnapshot monotonicNs boottimeNs realtimeNs]
    | none => []
  exporter.lines ++ snapshot ++ List.replicate session.ambiguousProbes (.other endTs) ++
    (if session.rxContext then [.other endTs] else []) ++
    ((close session.toSession exporter.state clock.now eventCount).drop
      exporter.state.out.length).map .record

def arrival (session : CaptureSession) (packet : Packet × Nat) : NativePacket (Packet × Nat) :=
  ⟨packet.1.timestampNs.toNat, session.packetSize packet.1, packet⟩

def arrivals (session : CaptureSession) (out : List Packet) : List (NativePacket (Packet × Nat)) :=
  out.zipIdx.map (arrival session)

/-- The native file that `perfetto_export_close` leaves. -/
def captureFile (session : CaptureSession) (out : List Packet) : NativeFile (Packet × Nat) :=
  (NativeFile.writeAll session.windowNs.toNat (arrivals session out)).close session.windowNs.toNat

/-! ## A small capture -/

/-- The small session with a native trace of the given window, for concrete runs. -/
def smallCapture (windowNs : UInt64) : CaptureSession :=
  { smallSession with
    windowNs := windowNs
    connectSize := 200
    handoffSize := 100
    ambiguousProbes := 0
    callTask := fun _ => []
    packetName := fun _ _ _ => []
    packetCategory := fun _ => []
    packetFields := fun _ _ _ _ => []
    packetSize := fun _ => 32 }

def smallStart : ConnectEvent where
  kind := .start
  flags := 0
  ts := 1000
  attemptKey := 5
  socketKey := 0
  socketGeneration := 0
  result := 0
  tid := 3
  tgid := 2
  task := []

end Anettrace.Capture
