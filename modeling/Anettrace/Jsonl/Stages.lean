import Anettrace.Export.Simulation
import Anettrace.Jsonl.Formats

/-!
# The stages in a run

The stage that `pending_io_emit_start` stores in a call comes from the table of the traced
functions, and so does the one that `pending_io_finish` prints in its place. In every run they need
no escape, if the names in the table need none.
-/

namespace Anettrace.Jsonl

open Library.Labelled Library.Run Export

/-- The stage of a record needs no escape. -/
def StageUnescaped : Record → Prop
  | .ioStart fields => NameUnescaped fields.stage
  | .ioEnd fields => NameUnescaped fields.stage
  | _ => True

/-- The stages of calls and of records need no escape. -/
structure Staged (state : State) : Prop where
  ios : ∀ call ∈ state.ios, NameUnescaped call.stage
  out : ∀ record ∈ state.out, StageUnescaped record

/-- The names in the table of the traced functions need no escape. -/
def NamesUnescaped (session : Session) : Prop :=
  ∀ func, ∀ trace ∈ session.getTrace func, NameUnescaped trace.name

theorem Staged.init : Staged State.init :=
  ⟨List.forall_mem_nil _, List.forall_mem_nil _⟩

theorem Staged.append {before after : State} (h : Staged before) {records : List Record}
    (hios : ∀ call ∈ after.ios, NameUnescaped call.stage) (hout : after.out = before.out ++ records)
    (hrecords : ∀ record ∈ records, StageUnescaped record) : Staged after := by
  refine ⟨hios, fun record hmem => ?_⟩
  rw [hout] at hmem
  rcases List.mem_append.mp hmem with hold | hnew
  · exact h.out record hold
  · exact hrecords record hnew

/-! ## Flows -/

theorem placed_length {calls after : List PendingIo} {call : PendingIo} {place : Nat}
    (h : Placed calls call place after) : calls.length ≤ after.length ∧ 0 < after.length := by
  cases h with
  | reused hold hended =>
      rw [List.length_set]
      exact ⟨Nat.le_refl _, Nat.lt_of_le_of_lt (Nat.zero_le _)
        (List.getElem?_eq_some_iff.mp hold).1⟩
  | added =>
      rw [List.length_append, List.length_singleton]
      exact ⟨Nat.le_succ _, Nat.succ_pos _⟩

section

variable {before after : Books} {labels : List Label}

/-- Calls stay in their table. -/
theorem move_calls_length (h : Move before labels after) :
    before.calls.length ≤ after.calls.length := by
  cases h with
  | note | exportCall | openFlow | anchor | endFlow | strayLink => exact Nat.le_refl _
  | beginCall hplaced => exact (placed_length hplaced).1
  | link => exact Nat.le_of_eq (List.length_map _).symm
  | endCall => exact Nat.le_of_eq List.length_set.symm

/-- A move without calls adds no record of a stage. -/
theorem move_stageUnescaped (h : Move before labels after) (hcalls : after.calls = [])
    (hout : ∀ record ∈ before.out, StageUnescaped record) :
    ∀ record ∈ after.out, StageUnescaped record := by
  have hadd {record : Record} (hrecord : StageUnescaped record) :
      ∀ other ∈ before.out ++ [record], StageUnescaped other := by
    intro other hother
    rcases List.mem_append.mp hother with hold | hnew
    · exact hout other hold
    · rwa [List.mem_singleton.mp hnew]
  cases h with
  | note | exportCall | openFlow | endFlow | link | strayLink => exact hadd trivial
  | anchor => exact hout
  | beginCall hplaced =>
      exact absurd (congrArg List.length hcalls) (Nat.ne_of_gt (placed_length hplaced).2)
  | endCall hcall =>
      rw [(List.set_eq_nil_iff _ _).mp hcalls] at hcall
      cases hcall

/-- Moves that leave the stages of calls proper leave those of records so. -/
theorem moves_stageUnescaped (h : Moves Move before labels after) (hcalls : after.calls = [])
    (hout : ∀ record ∈ before.out, StageUnescaped record) :
    ∀ record ∈ after.out, StageUnescaped record := by
  induction h with
  | refl => exact hout
  | tail _ hlast ih =>
      have hlength := move_calls_length hlast
      rw [hcalls] at hlength
      exact move_stageUnescaped hlast hcalls
        (ih (List.eq_nil_of_length_eq_zero (Nat.le_zero.mp hlength)))

end

theorem Staged.flow {before after : State} {labels : List Label} (h : Staged before)
    (hmoves : FlowMoves before labels after) : Staged after :=
  ⟨hmoves.ios ▸ h.ios, moves_stageUnescaped (hmoves.moves []) rfl h.out⟩

theorem Staged.finishFlows {state : State} (h : Staged state) (test : FlowState → Bool)
    (endTs : FlowState → UInt64) (reason : EndReason) (incomplete : Bool) :
    Staged (finishFlows state test fun flow => flowFinish (endTs flow) reason incomplete flow) := by
  obtain ⟨records, hmoves⟩ := finishFlows_moves state test endTs reason incomplete
  exact h.flow hmoves

/-! ## Calls -/

/-- A call is given a stage from the table, and so is its record. -/
theorem pendingIoEmitStart_unescaped (session : Session) (state : State) {trace : Option Trace}
    (htrace : ∀ function ∈ trace, NameUnescaped function.name) (flow : Option FlowState)
    {pending : PendingIo} (hpending : NameUnescaped pending.stage) :
    NameUnescaped (pendingIoEmitStart session state trace flow pending).1.stage ∧
      ∀ record ∈ (pendingIoEmitStart session state trace flow pending).2,
        StageUnescaped record := by
  have hstage : NameUnescaped (ioStage session trace flow pending.tx) :=
    ioStage_unescaped htrace flow pending.tx
  unfold pendingIoEmitStart
  split
  case isTrue => exact ⟨hpending, List.forall_mem_nil _⟩
  case isFalse => exact ⟨hstage, List.forall_mem_singleton.mpr hstage⟩

/-- A table in which one call is replaced by another with a proper stage. -/
theorem mem_set_stage {calls : List PendingIo} {place : Nat} {call : PendingIo}
    (hcalls : ∀ call ∈ calls, NameUnescaped call.stage) (hcall : NameUnescaped call.stage) :
    ∀ other ∈ calls.set place call, NameUnescaped other.stage := by
  intro other hother
  obtain hold | rfl := List.mem_or_eq_of_mem_set hother
  · exact hcalls other hold
  · exact hcall

section

variable {session : Session} {state : State} (h : Staged state)
include h

/-- The end of a call writes the stage of the call or that of its function. -/
theorem Staged.finish (hnames : NamesUnescaped session) (io : Option Nat) (ts : UInt64)
    (result : Int64) (incomplete : Bool) :
    Staged (pendingIoFinish session state io ts result incomplete) := by
  unfold pendingIoFinish
  split
  case h_1 place pending hpending =>
    split
    case isTrue => exact h
    case isFalse =>
      have hcall := h.ios pending (List.mem_of_getElem? hpending)
      have htrace := hnames pending.func
      have hprinted : NameUnescaped (if pending.stage ≠ "" then pending.stage
          else traceEventName session.toTraceContext (session.getTrace pending.func)) := by
        split
        case isTrue => exact hcall
        case isFalse => exact traceEventName_unescaped session.toTraceContext htrace
      dsimp only
      generalize (if pending.stage ≠ "" then pending.stage
        else traceEventName session.toTraceContext (session.getTrace pending.func)) = stage at *
      generalize ioFlow session state pending = flow
      generalize flow.bind (state.flows[·]?) = entry
      have hcredited : NameUnescaped
          { pending with flowId := (entry.map FlowState.id).getD pending.flowId }.stage := hcall
      obtain ⟨hstored, hstart⟩ := pendingIoEmitStart_unescaped session state htrace entry hcredited
      generalize pendingIoEmitStart session state (session.getTrace pending.func) entry
        { pending with flowId := (entry.map FlowState.id).getD pending.flowId } = emitted at *
      have hios : ∀ call ∈ state.ios.set place { emitted.1 with active := false },
        NameUnescaped call.stage :=
        mem_set_stage h.ios hstored
      have hrecords (credited : State) : ∀ record ∈ emitted.2 ++
          [.ioEnd (ioEndRecord session credited stage ts result incomplete emitted.1),
            .ioComplete (ioCompleteRecord session credited ts result incomplete emitted.1)],
          StageUnescaped record := by
        refine List.forall_mem_append.mpr ⟨hstart, List.forall_mem_cons.mpr ⟨hprinted, ?_⟩⟩
        exact List.forall_mem_singleton.mpr trivial
      split
      all_goals exact h.append hios (List.append_assoc _ _ _) (hrecords _)
  case h_2 => exact h

/-- A new call has no stage. -/
theorem Staged.add (realloc : Bool) (func : UInt16) (tid : UInt32) :
    Staged (pendingIoAdd state realloc func tid).1 := by
  have hfresh : NameUnescaped (PendingIo.fresh func tid).stage := rfl
  unfold pendingIoAdd
  split
  case h_1 => exact h
  case h_2 =>
    split
    case h_1 => exact ⟨mem_set_stage h.ios hfresh, h.out⟩
    case h_2 =>
      dsimp only
      split
      case isTrue => exact h
      case isFalse =>
        exact ⟨List.forall_mem_append.mpr ⟨h.ios, List.forall_mem_singleton.mpr hfresh⟩, h.out⟩

/-- The search before a call is added may end a stale one. -/
theorem Staged.accept (hnames : NamesUnescaped session) (realloc : Bool) (detail : DetailEvent)
    (trace : Trace) :
    Staged (pendingIoAccept session state realloc detail trace).1 := by
  unfold pendingIoAccept
  dsimp only
  split
  case isTrue => exact h
  case isFalse =>
    have hsettled := h.finish hnames (pendingIoFind state detail.func detail.tid) detail.ts 0 true
    split
    case h_1 => exact hsettled
    case h_2 => exact hsettled.add realloc detail.func detail.tid

/-- A call begins with the stage of its function. -/
theorem Staged.begin (session : Session) (realloc : Realloc) (detail : DetailEvent) {trace : Trace}
    (htrace : NameUnescaped trace.name) (cpu : Int) (io : Nat) :
    Staged (pendingIoBegin session state realloc detail trace cpu io) := by
  have hfilled : Staged (state.setIo io (ioFill session detail trace cpu)) := by
    refine ⟨?_, h.out⟩
    cases hcall : state.ios[io]? with
    | none =>
        rw [State.setIo, Library.Table.modify_none hcall]
        exact h.ios
    | some call =>
        rw [State.setIo, Library.Table.modify_some hcall]
        exact mem_set_stage h.ios (h.ios call (List.mem_of_getElem? hcall))
  have hflowed := hfilled.flow (beginFlow_moves session _ realloc.flow detail)
  unfold pendingIoBegin
  dsimp only
  generalize (if detail.ske.protoL4 = ipprotoUdp then
    (state.setIo io (ioFill session detail trace cpu), none)
    else flowFromSocket session (state.setIo io (ioFill session detail trace cpu)) realloc.flow
      detail detail.ts) =
      flowed at *
  split
  case h_1 => exact hflowed
  case h_2 pending hpending =>
    have hfunction : ∀ function ∈ some trace, NameUnescaped function.name := by
      rintro function ⟨⟩
      exact htrace
    obtain ⟨hstored, hstart⟩ := pendingIoEmitStart_unescaped session flowed.1 hfunction
      (flowed.2.bind (flowed.1.flows[·]?)) (hflowed.ios pending (List.mem_of_getElem? hpending))
    exact hflowed.append (mem_set_stage hflowed.ios hstored) rfl hstart

/-- The entry of a call keeps the stages proper. -/
theorem Staged.start (hnames : NamesUnescaped session) (realloc : Realloc) (detail : DetailEvent)
    {trace : Trace} (htrace : NameUnescaped trace.name) (cpu : Int) :
    Staged (pendingIoStart session state realloc detail trace cpu) := by
  have hobserved : Staged (pendingIoObserve state detail) := ⟨h.ios, h.out⟩
  have haccepted := hobserved.accept hnames realloc.io detail trace
  unfold pendingIoStart
  split
  case h_1 after haccept =>
    rw [haccept] at haccepted
    exact haccepted
  case h_2 after io haccept =>
    rw [haccept] at haccepted
    exact haccepted.begin session realloc detail htrace cpu io

end

/-! ## Steps -/

/-- The table has the function of the branch that begins a call. -/
theorem branch_io_trace {session : Session} {sample : Sample} {trace : Trace}
    (h : branch session sample = .io trace) : session.getTrace sample.detail.func = some trace := by
  unfold branch visibleBranch at h
  split at h
  case h_1 => cases h
  case h_2 found hfound =>
    rw [hfound]
    repeat' split at h
    all_goals first | (cases h; rfl) | cases h

section

variable {session : Session} {state : State} (h : Staged state)
include h

/-- Links leave the stages. -/
theorem Staged.link (session : Session) (detail : DetailEvent) (flow : Option FlowState) :
    Staged (exportPacketIoLink session state detail flow) := by
  have hkept (ioId flowId : UInt64) (call : PendingIo) :
      (linkIo ioId flowId call).stage = call.stage := by
    unfold linkIo
    split <;> rfl
  unfold exportPacketIoLink
  split
  case isTrue => exact h
  case isFalse =>
    refine h.append ?_ rfl (List.forall_mem_singleton.mpr trivial)
    cases flow with
    | none => exact h.ios
    | some flow =>
        refine List.forall_mem_map.mpr fun call hcall => ?_
        rw [hkept]
        exact h.ios call hcall

theorem Staged.packet (session : Session) (realloc : Realloc) (detail : DetailEvent)
    (trace : Trace) :
    Staged (packetEvent session state realloc detail trace) :=
  (h.flow (flowFromPacket_moves session state realloc detail trace)).link session detail _

/-- Sockets leave the stages. -/
theorem Staged.socket (session : Session) (realloc : Realloc) (detail : DetailEvent)
    (trace : Trace) :
    Staged (socketEvent session state realloc detail trace) := by
  have hfound : Staged (if !socketTraceTerminal trace ∧ trace.name ≠ "tcp_close" then
      (flowFromSocket session state realloc.flow detail detail.ts).1 else state) := by
    split
    case isTrue => exact h.flow (flowFromSocket_moves session state realloc.flow detail detail.ts)
    case isFalse => exact h
  unfold socketEvent
  dsimp only
  split
  case isTrue => exact hfound.finishFlows _ (fun _ => detail.ts) .socketDestroy false
  case isFalse => exact hfound

theorem Staged.syscall (salt : UInt64) (call : SyscallEvent) :
    Staged (handleNetworkSyscall salt state call) := by
  obtain ⟨records, -, hios, hout⟩ := handleNetworkSyscall_writes salt state call
  refine h.append (hios ▸ h.ios) hout (List.forall_mem_map.mpr fun record _ => trivial)

theorem Staged.count : Staged state.countExported := ⟨h.ios, h.out⟩

section

variable {session : Session} (hnames : NamesUnescaped session)
include hnames

/-- Every record of an event keeps the stages proper. -/
theorem Staged.event (sample : Sample) (cpu : Int) (realloc : Realloc) :
    Staged (exportEvent session state sample cpu realloc) := by
  unfold exportEvent
  cases hbranch : branch session sample with
  | ignored => exact h
  | returned => exact (h.finish hnames _ _ _ _).count
  | hidden trace => exact h.packet session realloc sample.detail trace
  | io trace =>
      have htrace := hnames sample.detail.func trace (branch_io_trace hbranch)
      exact (h.start hnames realloc sample.detail htrace cpu).count
  | lifecycle => exact h.count
  | socket trace => exact (h.socket session realloc sample.detail trace).count
  | packet trace => exact (h.packet session realloc sample.detail trace).count

/-- Every step keeps the stages proper. -/
theorem Staged.step (input : Input) :
    Staged (step session state input) := by
  cases input with
  | ret event size =>
      rw [Export.step, exportRet]
      split
      case isTrue => exact h
      case isFalse => exact (h.finish hnames _ _ _ _).count
  | event sample cpu realloc => exact h.event hnames sample cpu realloc
  | syscall call size =>
      rw [Export.step]
      split
      case isTrue => exact h
      case isFalse => exact (h.syscall session.salt call).count
  | diagnostic => exact h.count
  | lost count => exact ⟨h.ios, h.out⟩
  | queueLost count => exact ⟨h.ios, h.out⟩
  | markCaptureEnd now =>
      rw [Export.step]
      split
      case isTrue => exact h
      case isFalse => exact ⟨h.ios, h.out⟩
  | tick now =>
      rw [Export.step, tick]
      split
      case isTrue => exact h
      case isFalse =>
        exact h.finishFlows (idle (tickTime state now)) (fun flow => flow.lastTs + udpFlowIdleNs)
          .idleTimeout true

/-- The close ends the calls in progress with proper stages. -/
theorem Staged.closeIos (endTs : UInt64) :
    Staged (closeIos session state endTs) := by
  unfold Export.closeIos
  generalize List.range state.ios.length = places
  induction places generalizing state with
  | nil => exact h
  | cons place rest ih =>
      rw [List.foldl_cons]
      exact ih (h.finish hnames (some place) endTs 0 true)

/-- The close keeps the stages proper. -/
theorem Staged.closeTables (now : UInt64) :
    Staged (closeTables session state now) := by
  have hios := h.closeIos hnames (closeTime state now)
  have hsyscalls :
      Staged (closeSyscalls session (Export.closeIos session state (closeTime state now))
      (closeTime state now)) :=
    hios.append hios.ios rfl (List.forall_mem_map.mpr fun record _ => trivial)
  exact hsyscalls.finishFlows (fun _ => true) (fun _ => closeTime state now) .traceEnd true

end

end

/-! ## Runs -/

/-- In every state that is reached the stages are proper. -/
theorem reached_staged {session : Session} (hnames : NamesUnescaped session) (inputs : List Input) :
    Staged (reached session inputs) :=
  run_invariant Staged.init (fun _ input h => h.step hnames input) inputs

/-- In a closed file every stage is proper. -/
theorem closed_stages {session : Session} (hnames : NamesUnescaped session) (inputs : List Input)
    (now eventCount : UInt64) :
    ∀ record ∈ close session (reached session inputs) now eventCount, StageUnescaped record :=
  List.forall_mem_append.mpr ⟨((reached_staged hnames inputs).closeTables hnames now).out,
    List.forall_mem_singleton.mpr trivial⟩

/-- The record behind a line with the stage of a call. -/
def Line.stageRecord : Line → Option Record
  | .ioStart session state protocol pending =>
    some (.ioStart (ioStartRecord session state protocol pending))
  | .ioEnd fields => some (.ioEnd fields)
  | _ => none

/-- The stages in the lines of a run need no escape. -/
theorem stageLine_unescaped {session : Session} (hnames : NamesUnescaped session)
    (inputs : List Input) (now eventCount : UInt64) {line : Line} {record : Record}
    (hrecord : line.stageRecord = some record)
    (hmem : record ∈ close session (reached session inputs) now eventCount) :
    ∀ name ∈ line.names, NameUnescaped name := by
  have hstage := closed_stages hnames inputs now eventCount record hmem
  cases line with
  | ioStart | ioEnd =>
      obtain rfl := Option.some.inj hrecord
      exact List.forall_mem_singleton.mpr hstage
  | _ => cases hrecord

end Anettrace.Jsonl
