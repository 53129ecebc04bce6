import Anettrace.Export.Simulation
import Anettrace.Native.Flows

/-!
# Calls in the native trace

The native halves of the functions of `src/perfetto_export.c` on protocol calls, on the packets
linked to them and on system calls. A protocol call is a slice on its thread, begun and ended with
its records. A system call is written at its end, as a slice clipped to the window of the ring.
-/

namespace Anettrace.Native

open Anettrace.Export Library.Labelled Library.Table

variable {told : UInt64 → UInt64 → Prop}

/-- A capture with a native trace: `native_ring_window_ns`, the sizes of the diagnostic records, the
number of probes with an ambiguous symbol, the `task` of a syscall record, and what
`native_export_packet_event` makes of a packet record: its name, its category, the bytes of its
annotations but for the socket, and the bytes that a packet of the trace takes. -/
structure CaptureSession extends Session where
  windowNs : UInt64
  connectSize : UInt32
  handoffSize : UInt32
  ambiguousProbes : Nat
  callTask : SyscallEvent → List UInt8
  packetName : State → DetailEvent → Trace → List UInt8
  packetCategory : Trace → List UInt8
  packetFields : State → Sample → Int → Trace → List UInt8
  packetSize : Packet → Nat

/-! ## Protocol calls -/

def ioSliceEnd (salt : UInt64) (call : PendingIo) : TrackEvent :=
  ⟨.sliceEnd, threadUuid salt call.tgid call.tid, .io call.tx, call.ioId⟩

/-- The native half of `pending_io_emit_start`. A distinct event on the track of the socket connects
its lifetime to the call. -/
def nativePendingIoEmitStart (session : Session) (trail : Trail) (pending : PendingIo) : Trail :=
  if pending.visible ∨ session.traceTags then trail
  else
    let trail :=
      if pending.socketId ≠ 0 then
        nativeEventWrite
          (nativeSocketTrack session.salt trail pending.socketId pending.tgid pending.task).1
          pending.startTs
          ⟨.instant, socketUuid session.salt pending.socketId, .socketIo, pending.ioId⟩
      else trail
    nativeEventWrite trail pending.startTs (ioSlice session.salt pending)

def nativePendingIoFinish (session : Session) (state : State) (trail : Trail) (io : Option Nat)
    (ts : UInt64) : Trail :=
  match io.bind (state.ios[·]?) with
  | none => trail
  | some pending =>
      if !pending.active then trail
      else
        let trail := nativePendingIoEmitStart session trail pending
        if session.traceTags then trail
        else
          nativeEventWrite (nativeEventWrite trail ts (ioSliceEnd session.salt pending)) ts
            ⟨.instant, threadUuid session.salt pending.tgid pending.tid, .ioComplete, pending.ioId⟩

/-- The native half of the end of `pending_io_start`. -/
def nativePendingIoBegin (session : Session) (state : State) (trail : Trail) (realloc : Realloc)
    (detail : DetailEvent) (trace : Trace) (cpu : Int) (io : Nat) : Trail :=
  let state := state.setIo io (ioFill session detail trace cpu)
  let (trail, _) := nativeThreadTrack session.salt trail detail.tgid detail.tid detail.task
  let trail :=
    if detail.ske.protoL4 = ipprotoUdp then trail
    else nativeFlowFromSocket session state trail realloc.flow detail detail.ts
  match state.ios[io]? with
  | none => trail
  | some pending => nativePendingIoEmitStart session trail pending

def nativePendingIoStart (session : Session) (state : State) (trail : Trail) (realloc : Realloc)
    (detail : DetailEvent) (trace : Trace) (cpu : Int) : Trail :=
  let observed := pendingIoObserve state detail
  let trail :=
    if pendingIoRepeats observed detail then trail
    else
      nativePendingIoFinish session observed trail (pendingIoFind observed detail.func detail.tid)
        detail.ts
  match pendingIoAccept session observed realloc.io detail trace with
  | (_, none) => trail
  | (state, some io) => nativePendingIoBegin session state trail realloc detail trace cpu io

/-- The native half of the loop of `perfetto_export_close` over `pending_ios`, next to the other
half. -/
def nativeCloseIos (session : Session) (state : State) (trail : Trail) (endTs : UInt64) : Trail :=
  ((List.range state.ios.length).foldl
    (fun (halves : State × Trail) io =>
      (pendingIoFinish session halves.1 (some io) endTs 0 true,
        nativePendingIoFinish session halves.1 halves.2 (some io) endTs))
    (state, trail)).2

def nativePacketIoLink (session : Session) (trail : Trail) (detail : DetailEvent) : Trail :=
  if !packetIoLinked detail ∨ session.traceTags then trail
  else
    nativeEventWrite
      (nativeThreadTrack session.salt trail detail.ioTgid detail.ioTid detail.task).1 detail.ts
      ⟨.instant, threadUuid session.salt detail.ioTgid detail.ioTid, .ioLink,
        linkIoId session.salt detail⟩

/-! ## System calls -/

def SyscallEvent.callId (salt : UInt64) (call : SyscallEvent) : UInt64 :=
  nativeUuid salt "syscall-call" (threadWord call.tgid call.tid) call.startTs

def syscallSlice (salt : UInt64) (call : SyscallEvent) : TrackEvent :=
  ⟨.sliceBegin, syscallsUuid salt call.tgid call.tid, .syscall, SyscallEvent.callId salt call⟩

def syscallSliceEnd (salt : UInt64) (call : SyscallEvent) : TrackEvent :=
  ⟨.sliceEnd, syscallsUuid salt call.tgid call.tid, .syscall, SyscallEvent.callId salt call⟩

/-- `native_ring_latest_ns` after packets were written in ring mode. -/
def ringLatest (out : List Packet) : UInt64 :=
  out.foldl
    (fun latest packet => if packet.timestampNs > latest then packet.timestampNs else latest) 0

/-- `display_start` in `export_network_syscall`. A call may start before the retained ring window,
and one that has entirely expired is not shown. -/
def displayStart (windowNs latest : UInt64) (call : SyscallEvent) : Option UInt64 :=
  if windowNs ≠ 0 ∧ latest > windowNs then
    let cutoff := latest - windowNs
    if call.ts < cutoff then none
    else some (if call.startTs < cutoff then cutoff else call.startTs)
  else some call.startTs

def nativeSyscallsTrack (salt : UInt64) (trail : Trail) (tgid tid : UInt32) (task : List UInt8) :
    Trail × Nat :=
  let uuid := syscallsUuid salt tgid tid
  match nativeFindTrack trail uuid with
  | some track => (trail, track)
  | none =>
      let (trail, _) := nativeThreadTrack salt trail tgid tid task
      nativeAddTrack trail (threadWord tgid tid)
        ⟨uuid, .syscalls, threadUuid salt tgid tid, .syscall, tgid, tid⟩

def nativeExportNetworkSyscall (session : CaptureSession) (trail : Trail) (call : SyscallEvent) :
    Trail :=
  if syscallFiltered session.salt call then trail
  else
    let latest :=
      if call.ts > ringLatest trail.out then call.ts else ringLatest trail.out
    match displayStart session.windowNs latest call with
    | none => trail
    | some start =>
        let (trail, _) :=
          nativeSyscallsTrack session.salt trail call.tgid call.tid (session.callTask call)
        let trail := nativeEventWrite trail start (syscallSlice session.salt call)
        let trail := nativeEventWrite trail call.ts (syscallSliceEnd session.salt call)
        if session.traceTags then trail
        else
          nativeEventWrite trail call.ts
            ⟨.instant, syscallsUuid session.salt call.tgid call.tid, .syscallComplete,
              SyscallEvent.callId session.salt call⟩

/-- The calls that `handle_network_syscall` exports once it found the slot of the thread. -/
def slotExports (call : SyscallEvent) (slot : SyscallSlot) : List SyscallEvent :=
  if call.finished then [call]
  else if entersSlot call slot ∧ slot.active then [displaced call slot]
  else []

def handledCalls (state : State) (call : SyscallEvent) : List SyscallEvent :=
  if call.kind = .other then []
  else
    match syscallSlot state.syscalls call with
    | some index =>
        match state.syscalls[index]? with
        | some slot => slotExports call slot
        | none => []
    | none =>
        if state.syscalls.length = syscallSlots then if call.finished then [call] else []
        else slotExports call ⟨call, 0, 0, false⟩

def nativeHandleNetworkSyscall (session : CaptureSession) (state : State) (trail : Trail)
    (call : SyscallEvent) : Trail :=
  (handledCalls state call).foldl (nativeExportNetworkSyscall session) trail

/-- The calls that `perfetto_export_close` exports. -/
def closedCalls (state : State) (endTs : UInt64) : List SyscallEvent :=
  (state.syscalls.filter SyscallSlot.active).map fun slot => { slot.event with ts := endTs }

/-! ## Calls mirror -/

theorem pendingIoFinish_records (session : Session) {state : State} {place : Nat}
    {pending : PendingIo} (hsound : state.books.Sound) (hpending : state.ios[place]? = some pending)
    (hactive : pending.active = true) (ts : UInt64) (result : Int64) (incomplete : Bool) :
    ∃ ioEnd complete, (pendingIoFinish session state (some place) ts result incomplete).out =
        state.out ++ [.ioEnd ioEnd, .ioComplete complete] ∧
      mirrored session.salt (.ioComplete complete) =
        some ⟨ts, ioSliceEnd session.salt pending⟩ := by
  have hvisible := hsound.visible pending (List.mem_of_getElem? hpending) hactive
  have hemit (trace : Option Trace) (flow : Option FlowState) (flowId : UInt64) :
      pendingIoEmitStart session state trace flow { pending with flowId := flowId } =
        ({ pending with flowId := flowId }, []) := if_pos hvisible
  unfold pendingIoFinish
  simp only [Option.bind_some, hpending]
  rw [if_neg (by simp [hactive])]
  cases hflow : ioFlow session state pending with
  | none =>
      simp only [Option.bind_none, Option.map_none, Option.getD_none, hemit, List.append_nil]
      exact ⟨_, _, rfl, rfl⟩
  | some found =>
      cases hentry : state.flows[found]? with
      | none =>
          simp only [Option.bind_some, hentry, Option.map_none, Option.getD_none, hemit,
            List.append_nil]
          exact ⟨_, _, rfl, rfl⟩
      | some flow =>
          simp only [Option.bind_some, hentry, Option.map_some, Option.getD_some, hemit,
            List.append_nil]
          exact ⟨_, _, rfl, rfl⟩

/-- The boundaries written with the two records of the end of a call. -/
theorem mirroredMarks_end {session : Session} {ioEnd : IoEnd} {complete : IoComplete} {mark : Mark}
    (htags : session.traceTags = false)
    (hmark : mirrored session.salt (.ioComplete complete) = some mark) :
    mirroredMarks session [.ioEnd ioEnd, .ioComplete complete] = [mark] := by
  unfold mirroredMarks
  rw [if_neg (by simp [htags])]
  show [mirrored session.salt (.ioComplete complete)].filterMap id = [mark]
  rw [hmark]
  rfl

theorem Tracked.ended {session : Session} {before after : State} {trail : Trail}
    (h : Tracked session before trail) {place : Nat} {pending : PendingIo}
    (hios : after.ios = before.ios.set place pending) (hended : pending.active = false)
    (hflows : after.flows.map FlowState.opening = before.flows.map FlowState.opening) :
    Tracked session after trail := by
  refine ⟨hflows ▸ h.flows, fun htags call hcall hactive => ?_⟩
  rw [hios] at hcall
  obtain ⟨i, hi⟩ := List.mem_iff_getElem?.mp hcall
  obtain ⟨-, rfl⟩ | ⟨-, hold⟩ := getElem?_set_cases hi
  · rw [hended] at hactive
    cases hactive
  · exact h.calls htags call (List.mem_of_getElem? hold) hactive

theorem nativePendingIoFinish_mirrors {session : Session} {state : State} {trail : Trail}
    (h : Tracked session state trail) (hsound : state.books.Sound) (io : Option Nat) (ts : UInt64)
    (result : Int64) (incomplete : Bool) :
    Mirrors session told state trail (pendingIoFinish session state io ts result incomplete)
      (nativePendingIoFinish session state trail io ts) := by
  have hinactive (hnone : ∀ place pending, io = some place → state.ios[place]? = some pending →
      pending.active = false) :
      Mirrors session told state trail (pendingIoFinish session state io ts result incomplete)
        (nativePendingIoFinish session state trail io ts) := by
    have hstate : pendingIoFinish session state io ts result incomplete = state := by
      cases io with
      | none => rfl
      | some place =>
          exact pendingIoFinish_inactive (fun pending => hnone place pending rfl) _ _ _
    have htrail : nativePendingIoFinish session state trail io ts = trail := by
      unfold nativePendingIoFinish
      split
      · rfl
      · rename_i pending hbind
        obtain ⟨place, rfl, hpending⟩ := Option.bind_eq_some_iff.mp hbind
        exact if_pos (by simp [hnone place pending rfl hpending])
    rw [hstate, htrail]
    exact Mirrors.refl h
  by_cases hfound : ∃ place pending, io = some place ∧ state.ios[place]? = some pending ∧
      pending.active = true
  · obtain ⟨place, pending, rfl, hpending, hactive⟩ := hfound
    have hvisible := hsound.visible pending (List.mem_of_getElem? hpending) hactive
    obtain ⟨flowId, _, _, hios, -⟩ :=
      (pendingIoFinish_moves session hsound hpending hactive ts result incomplete).spec
    obtain ⟨ioEnd, complete, hout, hmark⟩ :=
      pendingIoFinish_records session hsound hpending hactive ts result incomplete
    have hended := h.ended hios rfl (@pendingIoFinish_view session state (some place) ts result
      incomplete _ FlowState.opening fun pending => creditFlow_opening pending ts)
    have hbegun := fun htags => h.calls htags pending (List.mem_of_getElem? hpending) hactive
      hvisible
    generalize pendingIoFinish session state (some place) ts result incomplete = after at *
    have hnative : nativePendingIoFinish session state trail (some place) ts =
        if session.traceTags then trail
        else
          nativeEventWrite (nativeEventWrite trail ts (ioSliceEnd session.salt pending)) ts
            ⟨.instant, threadUuid session.salt pending.tgid pending.tid, .ioComplete,
              pending.ioId⟩ := by
      unfold nativePendingIoFinish nativePendingIoEmitStart
      rw [Option.bind_some, hpending]
      dsimp only
      rw [if_neg (by simp [hactive]), if_pos (Or.inl hvisible)]
    rw [hnative]
    cases htags : session.traceTags with
    | true =>
        have hnone (records : List Record) : mirroredMarks session records = [] := if_pos htags
        rw [if_pos rfl]
        exact ⟨hended, _, [], hout, Moves.refl _, (hnone _).symm, .nil⟩
    | false =>
        rw [if_neg Bool.false_ne_true]
        have hslice := @TrailMove.sliceEnd trail ts (ioSliceEnd session.salt pending)
          ⟨_, hbegun htags⟩ rfl ⟨Category.noConfusion, Category.noConfusion⟩
        have hend : TrailMoves trail _ _ := Moves.single hslice
        have hinstant := @TrailMove.instant _ ts ⟨.instant,
          threadUuid session.salt pending.tgid pending.tid, .ioComplete, pending.ioId⟩
          (hend.hasTrack (hbegun htags).track) rfl
        have hmoves : TrailMoves trail _ _ := hend.then_silent (Moves.single hinstant)
        refine ⟨hended.moves hmoves, _, _, hout, hmoves, ?_, .nil⟩
        rw [mirroredMarks_end htags hmark]
        rfl
  · refine hinactive fun place pending hio hpending => ?_
    exact Bool.eq_false_iff.mpr fun hactive => hfound ⟨place, pending, hio, hpending, hactive⟩

theorem pendingIoAdd_none {state after : State} {realloc : Bool} {func : UInt16} {tid : UInt32}
    (h : pendingIoAdd state realloc func tid = (after, none)) : after = state := by
  unfold pendingIoAdd at h
  split at h
  · cases h
  · split at h
    · cases h
    · dsimp only at h
      split at h <;> cases h
      rfl

theorem pendingIoEmitStart_mirrored (session : Session) (state : State) (trace : Option Trace)
    (flow : Option FlowState) {pending : PendingIo} (hvisible : pending.visible = false) :
    ∃ call record, pendingIoEmitStart session state trace flow pending =
        (call, [.ioStart record]) ∧
      (call.startTs, ioSlice session.salt call) =
        (pending.startTs, ioSlice session.salt pending) ∧
      mirrored session.salt (.ioStart record) =
        some ⟨pending.startTs, ioSlice session.salt pending⟩ := by
  unfold pendingIoEmitStart
  rw [if_neg (by simp [hvisible])]
  exact ⟨_, _, rfl, rfl, rfl⟩

theorem nativePendingIoEmitStart_moves {session : Session} {trail : Trail} {pending : PendingIo}
    (hvisible : pending.visible = false)
    (hthread : trail.HasTrack (threadUuid session.salt pending.tgid pending.tid)) :
    TrailMoves trail
        (if session.traceTags then []
          else [⟨pending.startTs, ioSlice session.salt pending⟩])
        (nativePendingIoEmitStart session trail pending) ∧
      (session.traceTags = false →
        (nativePendingIoEmitStart session trail pending).BegunAt
          ⟨pending.startTs, ioSlice session.salt pending⟩) := by
  unfold nativePendingIoEmitStart
  cases htags : session.traceTags with
  | true =>
      rw [if_pos (Or.inr rfl), if_pos rfl]
      exact ⟨Moves.refl _, fun h => by cases h⟩
  | false =>
      have hshown : ¬(pending.visible = true ∨ false = true) := by simp [hvisible]
      rw [if_neg Bool.false_ne_true, if_neg hshown]
      -- the socket has a track before the call is shown on it
      have hsocket : TrailMoves trail []
          (if pending.socketId ≠ 0 then
            nativeEventWrite
              (nativeSocketTrack session.salt trail pending.socketId pending.tgid pending.task).1
              pending.startTs
              ⟨.instant, socketUuid session.salt pending.socketId, .socketIo, pending.ioId⟩
          else trail) := by
        split
        · have hcreated := nativeSocketTrack_created session.salt trail pending.socketId
            pending.tgid pending.task
          exact @Created.instant _ _ _
            ⟨.instant, socketUuid session.salt pending.socketId, .socketIo, pending.ioId⟩ hcreated
            pending.startTs rfl
        · exact Moves.refl _
      dsimp only
      generalize (if pending.socketId ≠ 0 then _ else trail) = linked at *
      have hslice : TrailMoves linked _ _ := Moves.single (@TrailMove.slice linked pending.startTs
        (ioSlice session.salt pending) (hsocket.hasTrack hthread) rfl
        ⟨Category.noConfusion, Category.noConfusion⟩)
      exact ⟨hsocket.silent_then hslice, fun _ =>
        hslice.begins (hslice.hasTrack (hsocket.hasTrack hthread))⟩

/-- A new call is not shown yet. -/
theorem Tracked.placed {session : Session} {before after : State} {trail : Trail}
    (h : Tracked session before trail) {call : PendingIo} {place : Nat}
    (hplaced : Placed before.ios call place after.ios) (hvisible : call.visible = false)
    (hflows : after.flows = before.flows) : Tracked session after trail := by
  refine ⟨hflows ▸ h.flows, fun htags entry hentry hactive hshown => ?_⟩
  obtain ⟨i, hi⟩ := List.mem_iff_getElem?.mp hentry
  obtain ⟨-, rfl⟩ | ⟨-, hold⟩ := hplaced.cases hi
  · rw [hvisible] at hshown
    cases hshown
  · exact h.calls htags entry (List.mem_of_getElem? hold) hactive hshown

/-- The end of `pending_io_start` in both halves. -/
theorem nativePendingIoBegin_mirrors {session : Session} {settled state : State} {trail : Trail}
    (h : Tracked session settled trail) {realloc : Realloc} {detail : DetailEvent} {trace : Trace}
    {place : Nat} (cpu : Int)
    (hplaced : Placed settled.ios (PendingIo.fresh detail.func detail.tid) place state.ios)
    (hflows : state.flows = settled.flows) (hout : state.out = settled.out) :
    Mirrors session told settled trail (pendingIoBegin session state realloc detail trace cpu place)
      (nativePendingIoBegin session state trail realloc detail trace cpu place) := by
  obtain ⟨filled, hfilled⟩ : ∃ filled, filled =
      ioFill session detail trace cpu (PendingIo.fresh detail.func detail.tid) := ⟨_, rfl⟩
  obtain ⟨entered, hentered⟩ : ∃ entered, entered =
      state.setIo place (ioFill session detail trace cpu) := ⟨_, rfl⟩
  have hstart : entered.ios = state.ios.set place filled := by
    rw [hentered, hfilled]
    exact modify_some hplaced.get
  have hfill : Placed settled.ios filled place entered.ios := by
    rw [hstart]
    exact hplaced.fill
  have hunseen : filled.visible = false := by
    rw [hfilled]
    rfl
  have hentry : Mirrors session told settled trail entered trail := by
    refine ⟨h.placed hfill hunseen (by rw [hentered]; exact hflows), [], [], ?_, Moves.refl _, ?_,
      .nil⟩
    · rw [hentered, List.append_nil]
      exact hout
    · rw [mirroredMarks_nil]
      rfl
  have hthread := nativeThreadTrack_created session.salt trail detail.tgid detail.tid detail.task
  have hcreated := hentry.trans (hentry.tracked.quiet hthread.creates.moves)
  have htrack : (nativeThreadTrack session.salt trail detail.tgid detail.tid detail.task).1.HasTrack
      (threadUuid session.salt filled.tgid filled.tid) := by
    rw [hfilled]
    exact hthread.hasTrack
  unfold pendingIoBegin nativePendingIoBegin
  dsimp only
  rw [← hentered]
  generalize (nativeThreadTrack session.salt trail detail.tgid detail.tid detail.task).1 =
    threaded at *
  -- the flow of the socket, which a socket without a peer does not have yet
  have hflow : Mirrors session told entered threaded
      (if detail.ske.protoL4 = ipprotoUdp then (entered, none)
        else flowFromSocket session entered realloc.flow detail detail.ts).1
      (if detail.ske.protoL4 = ipprotoUdp then threaded
        else nativeFlowFromSocket session entered threaded realloc.flow detail detail.ts) := by
    split
    · exact Mirrors.refl hcreated.tracked
    · exact nativeFlowFromSocket_mirrors hcreated.tracked _ _ _
  have hios := (beginFlow_moves session entered realloc.flow detail).ios
  generalize (if detail.ske.protoL4 = ipprotoUdp then (entered, none)
    else flowFromSocket session entered realloc.flow detail detail.ts) = flowed at *
  generalize (if detail.ske.protoL4 = ipprotoUdp then threaded
    else nativeFlowFromSocket session entered threaded realloc.flow detail detail.ts) = next at *
  obtain ⟨flowed, flow⟩ := flowed
  dsimp only at hflow hios ⊢
  have hentered : entered.ios[place]? = some filled := hfill.get
  have hget : flowed.ios[place]? = some filled := by
    rw [hios]
    exact hentered
  rw [hget, hentered]
  dsimp only
  have hbegun := hcreated.trans hflow
  obtain ⟨_, marks, -, hmoves, -, -⟩ := hflow.written
  obtain ⟨hstartMoves, hstartBegun⟩ := nativePendingIoEmitStart_moves hunseen
    (hmoves.hasTrack htrack)
  obtain ⟨call, record, hemit, hslice, hmark⟩ := pendingIoEmitStart_mirrored session flowed
    (some trace) (flow.bind (flowed.flows[·]?)) hunseen
  rw [hemit]
  obtain ⟨hstarted, hsame⟩ := Prod.mk.injEq .. ▸ hslice
  have hmarks : (if session.traceTags then []
      else [⟨filled.startTs, ioSlice session.salt filled⟩]) =
      mirroredMarks session [.ioStart record] := by
    unfold mirroredMarks
    split
    · rfl
    · show _ = [mirrored session.salt (.ioStart record)].filterMap id
      rw [hmark]
      rfl
  rw [hmarks] at hstartMoves
  refine hbegun.trans ⟨⟨fun htags entry hentry => ?_, fun htags entry hmem hactive hvisible => ?_⟩,
    [.ioStart record], _, rfl, hstartMoves, mirroredMarks_filter _ _,
    paired_lasting (mirroredMarks_filter _ _) told⟩
  · exact hstartMoves.begun (hflow.tracked.flows htags entry hentry)
  · obtain ⟨i, hi⟩ := List.mem_iff_getElem?.mp hmem
    obtain ⟨-, rfl⟩ | ⟨-, hold⟩ := getElem?_set_cases hi
    · rw [hstarted, hsame]
      exact hstartBegun htags
    · exact hstartMoves.begun
        (hflow.tracked.calls htags entry (List.mem_of_getElem? hold) hactive hvisible)

section

variable {session : Session} {state : State} {trail : Trail} (h : Tracked session state trail)
include h

theorem nativePendingIoStart_mirrors (hsound : state.books.Sound) (realloc : Realloc)
    (detail : DetailEvent) (trace : Trace) (cpu : Int) :
    Mirrors session told state trail (pendingIoStart session state realloc detail trace cpu)
      (nativePendingIoStart session state trail realloc detail trace cpu) := by
  have hobserved : Tracked session (pendingIoObserve state detail) trail := h.same rfl rfl
  have hsoundObserved : (pendingIoObserve state detail).books.Sound := hsound
  have hbefore : Mirrors session told state trail (pendingIoObserve state detail) trail :=
    (Mirrors.refl h).same rfl rfl rfl
  refine hbefore.trans ?_
  unfold pendingIoStart nativePendingIoStart
  generalize pendingIoObserve state detail = observed at *
  dsimp only
  unfold pendingIoAccept
  dsimp only
  by_cases hrepeats : pendingIoRepeats observed detail = true
  · simp only [if_pos hrepeats]
    exact Mirrors.refl hobserved
  · simp only [if_neg hrepeats]
    have hfinish : Mirrors session told _ _ _ _ := nativePendingIoFinish_mirrors hobserved
      hsoundObserved (pendingIoFind observed detail.func detail.tid) detail.ts 0 true
    have hfind := pendingIoFinish_stale session hsoundObserved detail.func detail.tid detail.ts 0
      true
    generalize pendingIoFinish session observed (pendingIoFind observed detail.func detail.tid)
      detail.ts 0 true = settled at *
    generalize nativePendingIoFinish session observed trail
      (pendingIoFind observed detail.func detail.tid) detail.ts = next at *
    cases pendingIoFindLogical settled detail.tid (detailSocketInstanceId session.salt detail)
        (traceIsTxWrite trace) with
    | some _ => exact hfinish
    | none =>
        cases hadd : pendingIoAdd settled realloc.io detail.func detail.tid with
        | mk after io =>
            cases io with
            | none =>
                obtain rfl := pendingIoAdd_none hadd
                exact hfinish
            | some place =>
                obtain ⟨hplaced, hflows, hout, -⟩ := pendingIoAdd_placed hfind hadd
                exact hfinish.trans
                  (nativePendingIoBegin_mirrors hfinish.tracked cpu hplaced hflows hout)

/-- The loop of `perfetto_export_close` over `pending_ios` in both halves. -/
theorem nativeCloseIos_mirrors (hsound : state.books.Sound) (endTs : UInt64) :
    Mirrors session told state trail (closeIos session state endTs)
      (nativeCloseIos session state trail endTs) := by
  unfold closeIos nativeCloseIos
  generalize List.range state.ios.length = places
  induction places generalizing state trail with
  | nil => exact Mirrors.refl h
  | cons place rest ih =>
      rw [List.foldl_cons, List.foldl_cons]
      have hfirst : Mirrors session told _ _ _ _ :=
        nativePendingIoFinish_mirrors h hsound (some place) endTs 0 true
      have hafter := moves_sound hsound
        (pendingIoFinish_books session hsound (some place) endTs 0 true)
      exact hfirst.trans (ih hfirst.tracked hafter)

theorem nativePacketIoLink_mirrors (detail : DetailEvent) (flow : Option FlowState) :
    Mirrors session told state trail (exportPacketIoLink session state detail flow)
      (nativePacketIoLink session trail detail) := by
  unfold exportPacketIoLink nativePacketIoLink
  by_cases hlinked : packetIoLinked detail = true
  · have hmoves : TrailMoves trail []
        (if (!packetIoLinked detail) = true ∨ session.traceTags = true then trail
        else
          nativeEventWrite
            (nativeThreadTrack session.salt trail detail.ioTgid detail.ioTid detail.task).1
            detail.ts
            ⟨.instant, threadUuid session.salt detail.ioTgid detail.ioTid, .ioLink,
              linkIoId session.salt detail⟩) := by
      split
      · exact Moves.refl _
      · have hcreated := nativeThreadTrack_created session.salt trail detail.ioTgid detail.ioTid
          detail.task
        exact @Created.instant _ _ _ ⟨.instant, threadUuid session.salt detail.ioTgid detail.ioTid,
          .ioLink, linkIoId session.salt detail⟩ hcreated detail.ts rfl
    have hnot : ¬(!packetIoLinked detail) = true := by simp [hlinked]
    rw [if_neg hnot]
    refine ⟨⟨fun htags entry hentry => hmoves.begun (h.flows htags entry hentry), ?_⟩, _, [], rfl,
      hmoves, ?_, .nil⟩
    · intro htags call hcall hactive hvisible
      -- a link leaves what names the slice of a call
      have hold : ∃ old ∈ state.ios, call.startTs = old.startTs ∧
          ioSlice session.salt call = ioSlice session.salt old ∧ old.active = call.active ∧
            old.visible = call.visible := by
        cases flow with
        | none => exact ⟨call, hcall, rfl, rfl, rfl, rfl⟩
        | some entry =>
            obtain ⟨old, hold, rfl⟩ := List.mem_map.mp hcall
            refine ⟨old, hold, ?_⟩
            unfold linkIo
            split <;> exact ⟨rfl, rfl, rfl, rfl⟩
      obtain ⟨old, hmem, hstarted, hslice, holdActive, holdVisible⟩ := hold
      rw [hstarted, hslice]
      exact hmoves.begun (h.calls htags old hmem (holdActive.trans hactive)
        (holdVisible.trans hvisible))
    · unfold mirroredMarks
      split <;> rfl
  · have hnot : (!packetIoLinked detail) = true := by simp [hlinked]
    rw [if_pos hnot, if_pos (Or.inl hnot)]
    exact Mirrors.refl h

end

/-! ## System calls beside the calls -/

theorem nativeSyscallsTrack_created (salt : UInt64) (trail : Trail) (tgid tid : UInt32)
    (task : List UInt8) :
    Created trail (nativeSyscallsTrack salt trail tgid tid task) (syscallsUuid salt tgid tid)
      [.syscall, .thread, .process] := by
  have hthread := nativeThreadTrack_created salt trail tgid tid task
  unfold nativeSyscallsTrack
  dsimp only
  split
  case h_1 place hfind => exact created_of_found hfind
  case h_2 hfind =>
    exact created_of_added _ hfind hthread.creates hthread.kinds (by simp) (Or.inr hthread.mem)

/-- Moves that begin and end slices of system calls and allocations only. -/
def Passing (told : UInt64 → UInt64 → Prop) (trail next : Trail) : Prop :=
  ∃ marks, TrailMoves trail marks next ∧ marks.filter Mark.isLasting = [] ∧
    Paired told (marks.filter Mark.isBrief)

theorem Passing.quiet {trail next : Trail} (h : TrailMoves trail [] next) :
    Passing told trail next :=
  ⟨[], h, rfl, .nil⟩

theorem Passing.refl (trail : Trail) : Passing told trail trail :=
  Passing.quiet (Moves.refl trail)

theorem Passing.trans {first second third : Trail} (h : Passing told first second)
    (hnext : Passing told second third) : Passing told first third := by
  obtain ⟨marks, hmoves, hmarks, hpaired⟩ := h
  obtain ⟨more, hmore, hnone, hmorePaired⟩ := hnext
  refine ⟨marks ++ more, hmoves.trans hmore, by rw [List.filter_append, hmarks, hnone]; rfl, ?_⟩
  rw [List.filter_append]
  exact hpaired.append hmorePaired

/-- Such moves while the tables and the JSONL file stay. -/
theorem Passing.mirrors {session : Session} {state : State} {trail next : Trail}
    (h : Passing told trail next) (htracked : Tracked session state trail) :
    Mirrors session told state trail state next := by
  obtain ⟨marks, hmoves, hmarks, hpaired⟩ := h
  exact htracked.mirrors hmoves hmarks hpaired

/-! ## The times of system calls -/

theorem ringLatest_concat (out : List Packet) (packet : Packet) :
    (ringLatest (out ++ [packet])).toNat =
      max (ringLatest out).toNat packet.timestampNs.toNat := by
  unfold ringLatest
  rw [List.foldl_append, List.foldl_cons, List.foldl_nil]
  split
  case isTrue hlater => exact (max_eq_right (Nat.le_of_lt (UInt64.lt_iff_toNat_lt.mp hlater))).symm
  case isFalse hearlier => exact (max_eq_left (UInt64.not_lt.mp hearlier)).symm

/-- Tracks are written without a timestamp. -/
theorem Creates.latest {trail after : Trail} (h : Creates trail after) :
    (ringLatest after.out).toNat = (ringLatest trail.out).toNat := by
  induction h with
  | refl => rfl
  | add _ object descriptor hparent hnew ih =>
      refine (ringLatest_concat _ _).trans ?_
      rw [ih]
      exact Nat.max_zero _

/-- The cutoff of the window at a time; a plain trace has none. -/
def callCutoff (windowNs : UInt64) (latest : Nat) : Nat :=
  if windowNs = 0 then 0 else latest - windowNs.toNat

/-- The times of the slice of a system call, for the latest timestamp before it: it begins at its
start or at the cutoff, and is not shown if it ended before that. -/
def callSpan (session : CaptureSession) (latest : Nat) (call : SyscallEvent) : Option (Nat × Nat) :=
  let cutoff := callCutoff session.windowNs (max latest call.ts.toNat)
  if syscallFiltered session.salt call ∨ call.ts.toNat < cutoff then none
  else some (max call.startTs.toNat cutoff, call.ts.toNat)

/-- The times of system calls that are exported one after the other. -/
def callSpans (session : CaptureSession) (latest : Nat) : List SyscallEvent → List (Nat × Nat)
  | [] => []
  | call :: rest =>
      match callSpan session latest call with
      | none => callSpans session latest rest
      | some span => span :: callSpans session (max (max latest span.1) span.2) rest

theorem callSpans_cons (session : CaptureSession) (latest : Nat) (call : SyscallEvent)
    (rest : List SyscallEvent) :
    callSpans session latest (call :: rest) =
      match callSpan session latest call with
      | none => callSpans session latest rest
      | some span => span :: callSpans session (max (max latest span.1) span.2) rest := rfl

/-- A span tells the times of a slice. -/
def ToldBy (spans : List (Nat × Nat)) (start finish : UInt64) : Prop :=
  (start.toNat, finish.toNat) ∈ spans

theorem Paired.imp {more : UInt64 → UInt64 → Prop} {marks : List Mark} (h : Paired told marks)
    (himp : ∀ start finish, told start finish → more start finish) : Paired more marks := by
  induction h with
  | nil => exact .nil
  | pair htold htype _ ih => exact .pair (himp _ _ htold) htype ih

theorem displayStart_spec (windowNs latest : UInt64) (call : SyscallEvent) :
    match displayStart windowNs latest call with
    | none => call.ts.toNat < callCutoff windowNs latest.toNat
    | some start => ¬call.ts.toNat < callCutoff windowNs latest.toNat ∧
        start.toNat = max call.startTs.toNat (callCutoff windowNs latest.toNat) := by
  unfold displayStart callCutoff
  by_cases hplain : windowNs = 0
  · simp [hplain]
  rw [if_neg hplain]
  by_cases hlate : latest > windowNs
  · have hlt : windowNs.toNat < latest.toNat := UInt64.lt_iff_toNat_lt.mp hlate
    have hcutoff : (latest - windowNs).toNat = latest.toNat - windowNs.toNat :=
      UInt64.toNat_sub_of_le _ _ (Nat.le_of_lt hlt)
    rw [if_pos ⟨hplain, hlate⟩]
    simp only [UInt64.lt_iff_toNat_lt, hcutoff]
    by_cases hexpired : call.ts.toNat < latest.toNat - windowNs.toNat
    · rw [if_pos hexpired]
      exact hexpired
    · rw [if_neg hexpired]
      refine ⟨hexpired, ?_⟩
      split
      · rw [hcutoff]
        omega
      · omega
  · have hle : latest.toNat ≤ windowNs.toNat := UInt64.not_lt.mp hlate
    rw [if_neg fun h => hlate h.2]
    show _ ∧ _
    omega

/-- `export_network_syscall` begins and ends the slice of its span, or writes nothing. -/
theorem nativeExportNetworkSyscall_moves (session : CaptureSession) (trail : Trail)
    (call : SyscallEvent) :
    match callSpan session (ringLatest trail.out).toNat call with
    | none => nativeExportNetworkSyscall session trail call = trail
    | some span =>
        Passing (ToldBy [span]) trail (nativeExportNetworkSyscall session trail call) ∧
          (ringLatest (nativeExportNetworkSyscall session trail call).out).toNat =
            max (max (ringLatest trail.out).toNat span.1) span.2 := by
  unfold callSpan nativeExportNetworkSyscall
  by_cases hfiltered : syscallFiltered session.salt call
  · simp [hfiltered]
  have hreached : (if call.ts > ringLatest trail.out then call.ts
      else ringLatest trail.out).toNat = max (ringLatest trail.out).toNat call.ts.toNat := by
    split
    case isTrue hlater =>
      exact (max_eq_right (Nat.le_of_lt (UInt64.lt_iff_toNat_lt.mp hlater))).symm
    case isFalse hearlier => exact (max_eq_left (UInt64.not_lt.mp hearlier)).symm
  have hstart := displayStart_spec session.windowNs
    (if call.ts > ringLatest trail.out then call.ts else ringLatest trail.out) call
  rw [hreached] at hstart
  dsimp only
  rw [if_neg hfiltered]
  generalize displayStart session.windowNs _ call = shown at *
  cases shown with
  | none =>
      rw [if_pos (Or.inr hstart)]
  | some start =>
      obtain ⟨hshown, hbegins⟩ := hstart
      rw [if_neg (by simp [hfiltered, hshown]), ← hbegins]
      dsimp only
      have hcreated := nativeSyscallsTrack_created session.salt trail call.tgid call.tid
        (session.callTask call)
      have hlatest := hcreated.creates.latest
      have hcategory : Category.syscall ≠ .socket ∧ Category.syscall ≠ .connect :=
        ⟨Category.noConfusion, Category.noConfusion⟩
      have hslice := @Created.slice _ _ _ (syscallSlice session.salt call) hcreated start rfl
        hcategory
      -- the slice that begins here is the one that ends here
      have hbegun := hslice.begins hcreated.hasTrack
      have hend : TrailMoves _ _ _ := Moves.single (@TrailMove.sliceEnd _ call.ts
        (syscallSliceEnd session.salt call) ⟨start, hbegun⟩ rfl hcategory)
      generalize (nativeSyscallsTrack session.salt trail call.tgid call.tid
        (session.callTask call)).1 = created at *
      have hpaired : Paired (ToldBy [(start.toNat, call.ts.toNat)])
          [⟨start, syscallSlice session.salt call⟩, ⟨call.ts, syscallSliceEnd session.salt call⟩] :=
        @Paired.pair _ start call.ts (syscallSliceEnd session.salt call) []
          (List.mem_singleton_self _) rfl .nil
      have hwritten : (ringLatest (nativeEventWrite
          (nativeEventWrite created start (syscallSlice session.salt call)) call.ts
          (syscallSliceEnd session.salt call)).out).toNat =
          max (max (ringLatest trail.out).toNat start.toNat) call.ts.toNat := by
        refine (ringLatest_concat _ _).trans (congrArg (max · _) ?_)
        refine (ringLatest_concat _ _).trans (congrArg (max · _) ?_)
        exact hlatest
      split
      · exact ⟨⟨_, hslice.trans hend, rfl, hpaired⟩, hwritten⟩
      · have hinstant := @TrailMove.instant _ call.ts ⟨.instant,
          syscallsUuid session.salt call.tgid call.tid, .syscallComplete,
          SyscallEvent.callId session.salt call⟩ (hend.hasTrack hbegun.track) rfl
        refine ⟨⟨_, (hslice.trans hend).then_silent (Moves.single hinstant), rfl, hpaired⟩, ?_⟩
        refine (ringLatest_concat _ _).trans ?_
        rw [hwritten]
        exact max_eq_left (le_max_right _ _)

theorem Passing.imp {more : UInt64 → UInt64 → Prop} {trail next : Trail}
    (h : Passing told trail next)
    (himp : ∀ start finish, told start finish → more start finish) : Passing more trail next := by
  obtain ⟨marks, hmoves, hmarks, hpaired⟩ := h
  exact ⟨marks, hmoves, hmarks, hpaired.imp himp⟩

/-- System calls are written one after the other, in their spans. -/
theorem nativeExportCalls_moves (session : CaptureSession) (trail : Trail)
    (calls : List SyscallEvent) :
    Passing (ToldBy (callSpans session (ringLatest trail.out).toNat calls)) trail
      (calls.foldl (nativeExportNetworkSyscall session) trail) := by
  induction calls generalizing trail with
  | nil => exact Passing.refl trail
  | cons call rest ih =>
      have hcall := nativeExportNetworkSyscall_moves session trail call
      have hrest := ih (nativeExportNetworkSyscall session trail call)
      rw [List.foldl_cons, callSpans_cons]
      generalize callSpan session (ringLatest trail.out).toNat call = span at *
      cases span with
      | none =>
          rw [hcall] at hrest ⊢
          exact hrest
      | some span =>
          obtain ⟨hpassing, hlatest⟩ := hcall
          rw [hlatest] at hrest
          refine (hpassing.imp fun _ _ htold => ?_).trans
            (hrest.imp fun _ _ htold => List.mem_cons_of_mem _ htold)
          rw [ToldBy, List.mem_singleton.mp htold]
          exact List.mem_cons_self

/-- Syscall records are written with no boundary of a flow or a protocol call. -/
theorem mirroredMarks_syscalls (session : Session) (records : List NetworkSyscall) :
    mirroredMarks session (records.map .networkSyscall) = [] := by
  unfold mirroredMarks
  split
  · rfl
  · refine List.filterMap_eq_nil_iff.mpr fun record hrecord => ?_
    obtain ⟨fields, -, rfl⟩ := List.mem_map.mp hrecord
    rfl

theorem Passing.writes {session : Session} {before after : State} {trail next : Trail}
    (h : Passing told trail next) (htracked : Tracked session before trail)
    {records : List NetworkSyscall} (hflows : after.flows = before.flows)
    (hios : after.ios = before.ios) (hout : after.out = before.out ++ records.map .networkSyscall) :
    Mirrors session told before trail after next := by
  obtain ⟨marks, hmoves, hmarks, hpaired⟩ := h
  refine ⟨(htracked.moves hmoves).same (congrArg _ hflows) hios, _, marks, hout, hmoves, ?_,
    hpaired⟩
  rw [hmarks, mirroredMarks_syscalls]

section

variable {session : CaptureSession} {state : State} {trail : Trail}
  (h : Tracked session.toSession state trail)
include h

theorem nativeHandleNetworkSyscall_mirrors (call : SyscallEvent) :
    Mirrors session.toSession
      (ToldBy (callSpans session (ringLatest trail.out).toNat (handledCalls state call))) state
      trail (handleNetworkSyscall session.salt state call)
      (nativeHandleNetworkSyscall session state trail call) := by
  obtain ⟨records, hflows, hios, hout⟩ := handleNetworkSyscall_writes session.salt state call
  exact (nativeExportCalls_moves session trail _).writes h hflows hios hout

theorem nativeCloseSyscalls_mirrors (endTs : UInt64) :
    Mirrors session.toSession
      (ToldBy (callSpans session (ringLatest trail.out).toNat (closedCalls state endTs))) state
      trail (closeSyscalls session.toSession state endTs)
      ((closedCalls state endTs).foldl (nativeExportNetworkSyscall session) trail) :=
  (nativeExportCalls_moves session trail _).writes h rfl rfl rfl

end

end Anettrace.Native
