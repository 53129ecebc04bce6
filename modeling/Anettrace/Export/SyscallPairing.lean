import Mathlib.Data.List.Nodup
import Anettrace.Export.CallTracks
import Anettrace.Export.Simulation

/-!
# Each syscall is exported once

ENTER and END records reach the exporter in any order, and some are lost. A call whose END record
arrives is exported with its result, and a call without one is exported as incomplete. The exporter
also gives a call up as incomplete when the next ENTER record of its thread arrives, and so exports
it twice if its END record comes after that. Away from this order every call is exported once.
-/

namespace Anettrace.Export

open Library.Labelled Library.Run Library.Table

def NetworkSyscall.key (record : NetworkSyscall) : CallKey :=
  ((record.tgid, record.tid), record.startTs)

def NetworkSyscall.outcome (record : NetworkSyscall) : CallKey × Int64 :=
  (record.key, record.result)

def SyscallEvent.outcome (call : SyscallEvent) : CallKey × Int64 :=
  (call.key, call.result)

/-- The END records that are exported. -/
def endings (salt : UInt64) (calls : List SyscallEvent) : List SyscallEvent :=
  calls.filter fun call => call.finished && !syscallFiltered salt call

/-- Each call is exported at most once, and once with its result if its END record arrived and is
not filtered out. -/
structure Paired (salt : UInt64) (calls : List SyscallEvent) (out : List Record) : Prop where
  once : ((networkSyscalls out).map NetworkSyscall.key).Nodup
  ended : ∀ call ∈ endings salt calls, ∃ record,
    (networkSyscalls out).filter (fun other => other.key = call.key) = [record] ∧
      record.incomplete = false ∧ record.result = call.result

/-! ## Deliveries -/

/-- The call that `handle_network_syscall` gets past its first test with. -/
def delivered (session : Session) : Input → List SyscallEvent
  | .syscall call size => if size < session.syscallSize ∨ call.kind = .other then [] else [call]
  | _ => []

/-- The syscall records of a run. -/
def deliveries (session : Session) (inputs : List Input) : List SyscallEvent :=
  inputs.flatMap (delivered session)

/-- The call in progress that a record cuts short, if it is exported then. -/
def cutBy (salt : UInt64) (call : SyscallEvent) (slot : SyscallSlot) : List SyscallEvent :=
  if !call.finished && entersSlot call slot && slot.active &&
      !syscallFiltered salt (displaced call slot) then [slot.event]
  else []

def cutShort (session : Session) (state : State) : Input → List SyscallEvent
  | .syscall call size =>
      if size < session.syscallSize ∨ call.kind = .other then []
      else
        match (syscallSlot state.syscalls call).bind (state.syscalls[·]?) with
        | some slot => cutBy session.salt call slot
        | none => []
  | _ => []

/-- No call is cut short whose END record is still to come, unless that is filtered out. -/
def KeepsEndings (session : Session) (inputs : List Input) : Prop :=
  ∀ before input after, inputs = before ++ input :: after →
    ∀ cut ∈ cutShort session (reached session before) input,
      ∀ call ∈ endings session.salt (deliveries session after), call.key ≠ cut.key

/-- The calls that a run cuts short. -/
def cuts (session : Session) (inputs : List Input) : List SyscallEvent :=
  observations (step session) (cutShort session) State.init inputs

/-! ## Slots -/

/-- What a slot says about the calls of its thread. -/
def SyscallSlot.track (slot : SyscallSlot) : CallTrack :=
  ⟨slot.event.thread, slot.event.startTs, slot.completedTs, slot.active⟩

def State.tracks (state : State) : List CallTrack :=
  state.syscalls.map SyscallSlot.track

theorem syscallSlot_some {slots : List SyscallSlot} {call : SyscallEvent} {place : Nat}
    (h : syscallSlot slots call = some place) :
    ∃ slot, slots[place]? = some slot ∧ slot.event.thread = call.thread := by
  obtain ⟨hlt, hfound, -⟩ := List.findIdx?_eq_some_iff_getElem.mp h
  simp only [Bool.and_eq_true, decide_eq_true_eq] at hfound
  refine ⟨_, List.getElem?_eq_getElem hlt, ?_⟩
  simp only [SyscallEvent.thread, hfound.1, hfound.2]

theorem syscallSlot_none {slots : List SyscallSlot} {call : SyscallEvent}
    (h : syscallSlot slots call = none) :
    ∀ track ∈ slots.map SyscallSlot.track, track.thread ≠ call.thread := by
  intro track htrack hthread
  obtain ⟨slot, hslot, rfl⟩ := List.mem_map.mp htrack
  have hnot := List.findIdx?_eq_none_iff.mp h slot hslot
  have htgid : slot.event.tgid = call.tgid := congrArg Prod.fst hthread
  have htid : slot.event.tid = call.tid := congrArg Prod.snd hthread
  simp [htgid, htid] at hnot

@[simp] theorem bindSyscallFlow_track (pending : PendingIo) (flowId : UInt64)
    (slot : SyscallSlot) : (bindSyscallFlow pending flowId slot).track = slot.track := by
  unfold bindSyscallFlow
  split <;> rfl

@[simp] theorem bindSyscallSocket_track (detail : DetailEvent) (slot : SyscallSlot) :
    (bindSyscallSocket detail slot).track = slot.track := by
  unfold bindSyscallSocket
  split <;> rfl

theorem map_tracks {change : SyscallSlot → SyscallSlot}
    (hchange : ∀ slot, (change slot).track = slot.track) (slots : List SyscallSlot) :
    (slots.map change).map SyscallSlot.track = slots.map SyscallSlot.track := by
  rw [List.map_map]
  exact List.map_congr_left fun slot _ => hchange slot

/-! ## Exports -/

/-- Records of calls that were cut short, and of END records. -/
structure Exports (salt : UInt64) (calls cuts : List SyscallEvent)
    (records : List NetworkSyscall) : Prop where
  cut : (records.filter NetworkSyscall.incomplete).map NetworkSyscall.key =
    cuts.map SyscallEvent.key
  ended : (records.filter fun record => !record.incomplete).map NetworkSyscall.outcome =
    (endings salt calls).map SyscallEvent.outcome

theorem Exports.nil (salt : UInt64) : Exports salt [] [] [] :=
  ⟨rfl, rfl⟩

theorem endings_append (salt : UInt64) (first second : List SyscallEvent) :
    endings salt (first ++ second) = endings salt first ++ endings salt second :=
  List.filter_append _ _

theorem Exports.append {salt : UInt64} {calls moreCalls cuts moreCuts : List SyscallEvent}
    {records more : List NetworkSyscall} (h : Exports salt calls cuts records)
    (hmore : Exports salt moreCalls moreCuts more) :
    Exports salt (calls ++ moreCalls) (cuts ++ moreCuts) (records ++ more) := by
  refine ⟨?_, ?_⟩
  · rw [List.filter_append, List.map_append, List.map_append, h.cut, hmore.cut]
  · rw [List.filter_append, List.map_append, endings_append, List.map_append, h.ended,
      hmore.ended]

theorem exportNetworkSyscall_cut (salt : UInt64) (state : State) (call : SyscallEvent)
    (flowId : UInt64) :
    Exports salt [] (if syscallFiltered salt call then [] else [call])
      (exportNetworkSyscall salt state call flowId true) := by
  unfold exportNetworkSyscall
  split <;> exact ⟨rfl, rfl⟩

theorem exportNetworkSyscall_ended (salt : UInt64) (state : State) {call : SyscallEvent}
    (hcall : call.finished = true) (flowId : UInt64) :
    Exports salt [call] [] (exportNetworkSyscall salt state call flowId false) := by
  unfold exportNetworkSyscall
  cases hfiltered : syscallFiltered salt call with
  | true =>
      refine ⟨rfl, ?_⟩
      simp [endings, hfiltered]
  | false =>
      refine ⟨rfl, ?_⟩
      simp [endings, hcall, hfiltered, networkSyscallRecord, NetworkSyscall.outcome,
        NetworkSyscall.key, SyscallEvent.outcome, SyscallEvent.key, SyscallEvent.thread]

theorem exports_entered (salt : UInt64) {call : SyscallEvent} (hcall : call.finished = false) :
    Exports salt [call] [] [] := by
  refine ⟨rfl, ?_⟩
  simp [endings, hcall]

theorem handleSlot_track {salt : UInt64} {state : State} {call : SyscallEvent} {slot : SyscallSlot}
    (hthread : slot.event.thread = call.thread) :
    (handleSlot salt state call slot).1.track =
      if call.finished then slot.track.ended call.startTs
      else if entersSlot call slot then slot.track.started call.startTs
      else slot.track := by
  unfold handleSlot
  split
  · rfl
  · split
    · simp only [SyscallSlot.track, CallTrack.started, hthread]
    · rfl

/-- What `handle_network_syscall` exports once it found the slot of the thread. -/
theorem handleSlot_exports (salt : UInt64) (state : State) (call : SyscallEvent)
    (slot : SyscallSlot) :
    Exports salt [call] (cutBy salt call slot) (handleSlot salt state call slot).2 := by
  unfold handleSlot cutBy
  cases hcall : call.finished with
  | true => exact exportNetworkSyscall_ended salt state hcall _
  | false =>
      have hentered := exports_entered salt hcall
      simp only [Bool.false_eq_true, if_false, Bool.not_false, Bool.true_and]
      cases henters : entersSlot call slot with
      | false => exact hentered
      | true =>
          cases hactive : slot.active with
          | false => exact hentered
          | true =>
              have hcut := exportNetworkSyscall_cut salt state (displaced call slot) slot.flowId
              have hall := hentered.append hcut
              simp only [Bool.true_and, if_true]
              cases hfiltered : syscallFiltered salt (displaced call slot) with
              | true =>
                  simp only [hfiltered, if_true] at hall
                  exact hall
              | false =>
                  simp only [hfiltered, Bool.false_eq_true, if_false] at hall
                  exact ⟨hall.cut, hall.ended⟩

/-- The slot that a record is handled with, found or fresh, changes as a track. -/
theorem handleSlot_handles {salt : UInt64} {state : State} {call : SyscallEvent}
    {slots : List SyscallSlot} {place : Nat} {slot : SyscallSlot}
    (hslot : slots[place]? = some slot) (hthread : slot.event.thread = call.thread) :
    Handles call (slots.map SyscallSlot.track)
      ((slots.set place (handleSlot salt state call slot).1).map SyscallSlot.track)
      ((cutBy salt call slot).map SyscallEvent.key) := by
  have htrack : (slots.map SyscallSlot.track)[place]? = some slot.track := by
    rw [List.getElem?_map, hslot]
    rfl
  rw [List.map_set, handleSlot_track hthread]
  unfold cutBy
  cases hcall : call.finished with
  | true =>
      simp only [if_true, Bool.not_true, Bool.false_and, Bool.false_eq_true, if_false,
        List.map_nil]
      exact Handles.ended htrack hthread hcall
  | false =>
      cases henters : entersSlot call slot with
      | false =>
          simp only [Bool.false_eq_true, if_false, Bool.not_false, Bool.and_false,
            Bool.false_and, List.map_nil]
          rw [set_same htrack]
          exact Handles.ignored hcall
      | true =>
          have hlater : slot.completedTs < call.startTs := by
            simp only [entersSlot, Bool.and_eq_true, decide_eq_true_eq] at henters
            exact henters.1
          simp only [Bool.false_eq_true, if_false, if_true, Bool.not_false, Bool.true_and]
          refine Handles.entered htrack hthread hcall hlater ?_
          split
          case isTrue hcut =>
            rw [Bool.and_eq_true] at hcut
            exact Or.inr ⟨rfl, hcut.1⟩
          case isFalse => exact Or.inl rfl

/-- The records that a call of `handle_network_syscall` writes, and what it does to the tracks. -/
structure HandledCall (session : Session) (state : State) (call : SyscallEvent)
    (cuts : List SyscallEvent) (after : State) : Prop where
  exports : ∃ records, networkSyscalls after.out = networkSyscalls state.out ++ records ∧
    Exports session.salt [call] cuts records
  tracks : Handles call state.tracks after.tracks (cuts.map SyscallEvent.key)

theorem networkSyscalls_records (records : List NetworkSyscall) :
    networkSyscalls (records.map .networkSyscall) = records := by
  induction records with
  | nil => rfl
  | cons record rest ih => exact congrArg (record :: ·) ih

@[simp] theorem networkSyscalls_writeSyscalls (state : State) (records : List NetworkSyscall) :
    networkSyscalls (state.writeSyscalls records).out =
      networkSyscalls state.out ++ records := by
  unfold State.writeSyscalls
  rw [networkSyscalls_append, networkSyscalls_records]

/-- The call in progress that a record of `handle_network_syscall` cuts short. -/
theorem handleNetworkSyscall_handled (session : Session) (state : State) (call : SyscallEvent)
    (hkind : call.kind ≠ .other) :
    HandledCall session state call
      (match (syscallSlot state.syscalls call).bind (state.syscalls[·]?) with
        | some slot => cutBy session.salt call slot
        | none => [])
      (handleNetworkSyscall session.salt state call) := by
  unfold handleNetworkSyscall
  rw [if_neg hkind]
  cases hfind : syscallSlot state.syscalls call with
  | some place =>
      obtain ⟨slot, hslot, hthread⟩ := syscallSlot_some hfind
      simp only [Option.bind_some, hslot]
      exact ⟨⟨_, networkSyscalls_writeSyscalls _ _,
        handleSlot_exports session.salt state call slot⟩,
        handleSlot_handles hslot hthread⟩
  | none =>
      have hnone := syscallSlot_none hfind
      have hlength : state.tracks.length = state.syscalls.length := List.length_map _
      simp only [Option.bind_none]
      split
      case isTrue hfull =>
        split
        case isTrue hcall =>
          exact ⟨⟨_, networkSyscalls_writeSyscalls _ _,
            exportNetworkSyscall_ended session.salt state hcall 0⟩,
            Handles.untracked hcall (hlength.trans hfull) hnone⟩
        case isFalse hcall =>
          have hentered : call.finished = false := by simpa using hcall
          exact ⟨⟨[], (List.append_nil _).symm, exports_entered session.salt hentered⟩,
            Handles.ignored hentered⟩
      case isFalse hroom =>
        obtain ⟨fresh, hfresh⟩ : ∃ fresh, fresh = SyscallSlot.mk call 0 0 false := ⟨_, rfl⟩
        have hcut : cutBy session.salt call fresh = [] := by
          rw [hfresh]
          simp [cutBy]
        have hexports := handleSlot_exports session.salt state call fresh
        have hplace : (state.syscalls ++ [fresh])[state.syscalls.length]? = some fresh :=
          List.getElem?_concat_length
        have hhandles := @handleSlot_handles session.salt state call _ _ _ hplace
          (by rw [hfresh])
        rw [hcut] at hexports hhandles
        rw [List.set_append_right _ _ (Nat.le_refl _), Nat.sub_self, List.set_cons_zero,
          List.map_append] at hhandles
        rw [← hfresh]
        refine ⟨⟨_, networkSyscalls_writeSyscalls _ _, hexports⟩, ?_⟩
        refine Handles.opened (fun hfull => hroom (hlength.symm.trans hfull)) hnone ?_
        rw [hfresh] at hhandles ⊢
        exact hhandles

/-! ## Other inputs -/

theorem tracks_of_syscalls {before after : State} (h : after.syscalls = before.syscalls) :
    after.tracks = before.tracks :=
  congrArg (List.map SyscallSlot.track) h

section

variable (session : Session) (state : State) (io : Option Nat) (ts : UInt64) (result : Int64)
  (incomplete : Bool)

/-- The end of a protocol call may tell its syscall a flow, and no more. -/
theorem pendingIoFinish_slots {β : Type} {view : SyscallSlot → β}
    (hview : ∀ pending flowId slot, view (bindSyscallFlow pending flowId slot) = view slot) :
    (pendingIoFinish session state io ts result incomplete).syscalls.map view =
      state.syscalls.map view := by
  unfold pendingIoFinish
  split
  case h_2 => rfl
  case h_1 =>
    split
    case isTrue => rfl
    case isFalse =>
      dsimp only
      split
      case h_1 =>
        refine (List.map_map ..).trans (List.map_congr_left fun slot _ => ?_)
        exact hview _ _ slot
      case h_2 => rfl

theorem pendingIoFinish_tracks :
    (pendingIoFinish session state io ts result incomplete).tracks = state.tracks :=
  pendingIoFinish_slots session state io ts result incomplete bindSyscallFlow_track

end

theorem pendingIoAdd_syscalls (state : State) (realloc : Bool) (func : UInt16) (tid : UInt32) :
    (pendingIoAdd state realloc func tid).1.syscalls = state.syscalls := by
  unfold pendingIoAdd
  split
  · rfl
  · split
    · rfl
    · dsimp only
      split <;> rfl

section

variable (session : Session) (state : State) (realloc : Realloc) (detail : DetailEvent)
  (trace : Trace)

/-- The beginning of a protocol call may tell its syscall a socket. -/
theorem pendingIoStart_tracks (cpu : Int) :
    (pendingIoStart session state realloc detail trace cpu).tracks = state.tracks := by
  have hobserve : (pendingIoObserve state detail).tracks = state.tracks :=
    map_tracks (bindSyscallSocket_track detail) state.syscalls
  have haccept : (pendingIoAccept session (pendingIoObserve state detail) realloc.io detail
      trace).1.tracks = state.tracks := by
    unfold pendingIoAccept
    dsimp only
    split
    · exact hobserve
    · have hfinish := (pendingIoFinish_tracks session (pendingIoObserve state detail)
        (pendingIoFind (pendingIoObserve state detail) detail.func detail.tid) detail.ts 0
        true).trans hobserve
      split
      · exact hfinish
      · exact (tracks_of_syscalls (pendingIoAdd_syscalls _ _ _ _)).trans hfinish
  unfold pendingIoStart
  generalize pendingIoAccept session (pendingIoObserve state detail) realloc.io detail trace =
    accepted at *
  obtain ⟨after, io⟩ := accepted
  cases io with
  | none => exact haccept
  | some place =>
      have hflow := (beginFlow_moves session
        (after.setIo place (ioFill session detail trace cpu)) realloc.flow detail).syscalls
      refine Eq.trans ?_ haccept
      dsimp only
      unfold pendingIoBegin
      dsimp only
      generalize (if detail.ske.protoL4 = ipprotoUdp then
        (after.setIo place (ioFill session detail trace cpu), none)
        else flowFromSocket session (after.setIo place (ioFill session detail trace cpu))
          realloc.flow detail detail.ts) = flowed at *
      split <;> exact tracks_of_syscalls hflow

theorem packetEvent_syscalls :
    (packetEvent session state realloc detail trace).syscalls = state.syscalls := by
  have hflow := (flowFromPacket_moves session state realloc detail trace).syscalls
  unfold packetEvent exportPacketIoLink
  dsimp only
  split <;> exact hflow

theorem socketEvent_syscalls :
    (socketEvent session state realloc detail trace).syscalls = state.syscalls := by
  have hflow := (flowFromSocket_moves session state realloc.flow detail detail.ts).syscalls
  have hfinish (state : State) (test : FlowState → Bool) :
      (finishFlows state test (flowFinish detail.ts .socketDestroy false)).syscalls =
        state.syscalls := by
    obtain ⟨_, hmoves⟩ := finishFlows_moves state test (fun _ => detail.ts) .socketDestroy false
    exact hmoves.syscalls
  unfold socketEvent
  dsimp only
  split
  · rw [hfinish]
    split
    · exact hflow
    · rfl
  · split
    · exact hflow
    · rfl

end

/-- An input that carries no syscall record leaves the tracks. -/
theorem step_tracks (session : Session) (state : State) {input : Input}
    (hother : ∀ call size, input ≠ .syscall call size) :
    (step session state input).tracks = state.tracks := by
  cases input with
  | syscall call size => exact absurd rfl (hother call size)
  | ret event size =>
      unfold step exportRet
      dsimp only
      split
      · rfl
      · exact pendingIoFinish_tracks session state _ _ _ _
  | event sample cpu realloc =>
      unfold step exportEvent
      dsimp only
      cases branch session sample with
      | ignored | lifecycle => rfl
      | returned => exact pendingIoFinish_tracks session state _ _ _ _
      | hidden trace | packet trace =>
          exact tracks_of_syscalls
            (packetEvent_syscalls session state realloc sample.detail trace)
      | io trace => exact pendingIoStart_tracks session state realloc sample.detail trace cpu
      | socket trace =>
          exact tracks_of_syscalls
            (socketEvent_syscalls session state realloc sample.detail trace)
  | markCaptureEnd now =>
      unfold step
      dsimp only
      split <;> rfl
  | tick now =>
      unfold step tick
      dsimp only
      split
      · rfl
      · obtain ⟨_, hmoves⟩ := finishFlows_moves state (idle (tickTime state now))
          (fun flow => flow.lastTs + udpFlowIdleNs) .idleTimeout true
        exact tracks_of_syscalls hmoves.syscalls
  | diagnostic | lost count | queueLost count => rfl

theorem step_exports {session : Session} {state : State} (hsound : state.books.Sound)
    {input : Input} (hother : ∀ call size, input ≠ .syscall call size) :
    networkSyscalls (step session state input).out = networkSyscalls state.out := by
  obtain ⟨labels, hmoves, hobserved⟩ := @step_moves session _ hsound input
  obtain ⟨records, hout, -, hexports⟩ := moves_out hmoves
  rw [hobserved.exports hother] at hexports
  rw [show (step session state input).out = state.out ++ records from hout,
    networkSyscalls_append, hexports, List.append_nil]

/-! ## Runs -/

@[simp] theorem deliveries_concat (session : Session) (inputs : List Input) (input : Input) :
    deliveries session (inputs ++ [input]) =
      deliveries session inputs ++ delivered session input := by
  simp [deliveries]

@[simp] theorem cuts_concat (session : Session) (inputs : List Input) (input : Input) :
    cuts session (inputs ++ [input]) =
      cuts session inputs ++ cutShort session (reached session inputs) input :=
  observations_concat _ _

/-- The tracks and the exports after a run. -/
structure RunPairing (session : Session) (inputs : List Input) : Prop where
  pairing : Pairing (deliveries session inputs) (reached session inputs).tracks
    ((cuts session inputs).map SyscallEvent.key)
  exports : Exports session.salt (deliveries session inputs) (cuts session inputs)
    (networkSyscalls (reached session inputs).out)

/-- An input without a syscall record that gets past the tests. -/
theorem RunPairing.quiet {session : Session} {inputs : List Input} {input : Input}
    (h : RunPairing session inputs) (hdelivered : delivered session input = [])
    (hcut : cutShort session (reached session inputs) input = [])
    (htracks : (step session (reached session inputs) input).tracks =
      (reached session inputs).tracks)
    (hexports : networkSyscalls (step session (reached session inputs) input).out =
      networkSyscalls (reached session inputs).out) : RunPairing session (inputs ++ [input]) := by
  obtain ⟨hpairing, hrecords⟩ := h
  refine ⟨?_, ?_⟩
  · rw [deliveries_concat, cuts_concat, hdelivered, hcut, List.append_nil, List.append_nil,
      reached_concat, htracks]
    exact hpairing
  · rw [deliveries_concat, cuts_concat, hdelivered, hcut, List.append_nil, List.append_nil,
      reached_concat, hexports]
    exact hrecords

theorem RunPairing.concat {session : Session} {inputs : List Input} {input : Input}
    (h : RunPairing session inputs) (honce : CallsOnce (deliveries session (inputs ++ [input]))) :
    RunPairing session (inputs ++ [input]) := by
  by_cases hother : ∀ call size, input ≠ .syscall call size
  · have hsound := reached_sound session inputs
    refine h.quiet ?_ ?_ (step_tracks session _ hother) (step_exports hsound hother)
    · cases input with
      | syscall call size => exact absurd rfl (hother call size)
      | _ => rfl
    · cases input with
      | syscall call size => exact absurd rfl (hother call size)
      | _ => rfl
  · push Not at hother
    obtain ⟨call, size, rfl⟩ := hother
    by_cases hpast : size < session.syscallSize ∨ call.kind = .other
    · have hdelivered : delivered session (.syscall call size) = [] := if_pos hpast
      have hcut : cutShort session (reached session inputs) (.syscall call size) = [] :=
        if_pos hpast
      have hsame : (step session (reached session inputs) (.syscall call size)).syscalls =
            (reached session inputs).syscalls ∧
          (step session (reached session inputs) (.syscall call size)).out =
            (reached session inputs).out := by
        unfold step
        dsimp only
        split
        case isTrue => exact ⟨rfl, rfl⟩
        case isFalse hsize =>
          have hkind := hpast.resolve_left hsize
          unfold handleNetworkSyscall
          rw [if_pos hkind]
          exact ⟨rfl, rfl⟩
      exact h.quiet hdelivered hcut (tracks_of_syscalls hsame.1) (congrArg _ hsame.2)
    · have hdelivered : delivered session (.syscall call size) = [call] := if_neg hpast
      have hhandled := handleNetworkSyscall_handled session (reached session inputs) call
        fun hkind => hpast (Or.inr hkind)
      have hcut : cutShort session (reached session inputs) (.syscall call size) = _ :=
        if_neg hpast
      rw [← hcut] at hhandled
      have hstep : step session (reached session inputs) (.syscall call size) =
          (handleNetworkSyscall session.salt (reached session inputs) call).countExported :=
        if_neg fun hsize => hpast (Or.inl hsize)
      rw [deliveries_concat, hdelivered] at honce
      obtain ⟨⟨records, hout, hexports⟩, hhandles⟩ := hhandled
      refine ⟨?_, ?_⟩
      · rw [deliveries_concat, cuts_concat, hdelivered, List.map_append, reached_concat, hstep]
        exact h.pairing.handle honce hhandles
      · rw [deliveries_concat, cuts_concat, hdelivered, reached_concat, hstep]
        refine Eq.mpr (congrArg _ hout) ?_
        exact h.exports.append hexports

theorem run_pairing (session : Session) {inputs : List Input}
    (honce : CallsOnce (deliveries session inputs)) : RunPairing session inputs := by
  induction inputs using List.reverseRecOn with
  | nil => exact ⟨Pairing.empty, Exports.nil session.salt⟩
  | append_singleton before input ih =>
      refine (ih ?_).concat honce
      rw [deliveries_concat] at honce
      exact honce.left

/-! ## Closing -/

theorem closeIos_slots (session : Session) (state : State) (endTs : UInt64) {β : Type}
    {view : SyscallSlot → β}
    (hview : ∀ pending flowId slot, view (bindSyscallFlow pending flowId slot) = view slot) :
    (closeIos session state endTs).syscalls.map view = state.syscalls.map view := by
  unfold closeIos
  generalize List.range state.ios.length = places
  induction places generalizing state with
  | nil => rfl
  | cons place rest ih =>
      rw [List.foldl_cons, ih]
      exact pendingIoFinish_slots session state (some place) endTs 0 true hview

/-- The calls that the close exports as incomplete. -/
def leftOpen (salt endTs : UInt64) (slots : List SyscallSlot) : List SyscallEvent :=
  (slots.filter fun slot =>
    slot.active && !syscallFiltered salt { slot.event with ts := endTs }).map SyscallSlot.event

theorem closeSlots_exports (salt endTs : UInt64) (state : State) (slots : List SyscallSlot) :
    Exports salt [] (leftOpen salt endTs slots) (slots.flatMap (closeSlot salt endTs state)) := by
  induction slots with
  | nil => exact Exports.nil salt
  | cons slot rest ih =>
      have hslot : Exports salt [] (leftOpen salt endTs [slot])
          (closeSlot salt endTs state slot) := by
        have hcut := exportNetworkSyscall_cut salt state { slot.event with ts := endTs } slot.flowId
        unfold leftOpen closeSlot
        cases hactive : slot.active with
        | false =>
            simp only [Bool.false_eq_true, if_false, List.filter_cons, hactive, Bool.false_and,
              List.filter_nil, List.map_nil]
            exact Exports.nil salt
        | true =>
            simp only [if_true, List.filter_cons, hactive, Bool.true_and, List.filter_nil]
            cases hfiltered : syscallFiltered salt { slot.event with ts := endTs } with
            | true =>
                rw [hfiltered] at hcut
                exact hcut
            | false =>
                rw [hfiltered] at hcut
                exact ⟨hcut.cut, hcut.ended⟩
      have hall := hslot.append ih
      have hopen : leftOpen salt endTs (slot :: rest) =
          leftOpen salt endTs [slot] ++ leftOpen salt endTs rest := by
        unfold leftOpen
        rw [← List.map_append, ← List.filter_append]
        rfl
      rw [hopen, List.flatMap_cons]
      exact hall

/-- The calls that the close exports are in progress in their tracks. -/
theorem leftOpen_keys (salt endTs : UInt64) (slots : List SyscallSlot) :
    ((leftOpen salt endTs slots).map SyscallEvent.key).Sublist
      (((slots.map SyscallSlot.track).filter CallTrack.active).map CallTrack.key) := by
  induction slots with
  | nil => exact List.Sublist.refl _
  | cons slot rest ih =>
      unfold leftOpen at ih ⊢
      cases hactive : slot.active with
      | false =>
          have hdead : slot.track.active = false := hactive
          simp only [List.map_cons, List.filter_cons, hactive, hdead, Bool.false_and,
            Bool.false_eq_true, if_false]
          exact ih
      | true =>
          have hlive : slot.track.active = true := hactive
          simp only [List.map_cons, List.filter_cons, hactive, hlive, Bool.true_and, if_true]
          split
          · exact ih.cons_cons _
          · exact ih.cons _

/-- The exports of a capture: the calls cut short, those in progress at the close, and the calls
that ended. -/
theorem close_exports (session : Session) {inputs : List Input} (now eventCount : UInt64)
    (h : RunPairing session inputs) :
    ∃ opened, Exports session.salt (deliveries session inputs) (cuts session inputs ++ opened)
        (networkSyscalls (close session (reached session inputs) now eventCount)) ∧
      (opened.map SyscallEvent.key).Sublist
        (((reached session inputs).tracks.filter CallTrack.active).map CallTrack.key) := by
  have hsound := reached_sound session inputs
  have hexports := h.exports
  generalize reached session inputs = state at *
  obtain ⟨records, hout, -, hnone⟩ :=
    moves_out (closeIos_moves session hsound (closeTime state now))
  have htracks : (closeIos session state (closeTime state now)).tracks = state.tracks :=
    closeIos_slots session state (closeTime state now) bindSyscallFlow_track
  have hlast {records : List Record} (fields : TraceEnd) :
      networkSyscalls (records ++ [.traceEnd fields]) = networkSyscalls records := by
    rw [networkSyscalls_append]
    exact List.append_nil _
  unfold close closeTables
  dsimp only
  rw [hlast]
  generalize closeIos session state (closeTime state now) = settled at *
  obtain ⟨ends, hends⟩ := finishFlows_moves (closeSyscalls session settled (closeTime state now))
    (fun _ => true) (fun _ => closeTime state now) .traceEnd true
  obtain ⟨more, hmore, -, hfinish⟩ := moves_out hends.books
  obtain ⟨-, -, -, hquiet⟩ := projections_endLabels ends
  refine ⟨leftOpen session.salt (closeTime state now) settled.syscalls, ?_, ?_⟩
  · have hslots := closeSlots_exports session.salt (closeTime state now) settled settled.syscalls
    have hall := hexports.append hslots
    rw [List.append_nil] at hall
    have hsettled : networkSyscalls settled.out = networkSyscalls state.out := by
      rw [show settled.out = state.out ++ records from hout, networkSyscalls_append, hnone]
      exact List.append_nil _
    rw [← hsettled] at hall
    refine Eq.mpr (congrArg _ ?_) hall
    refine (congrArg networkSyscalls hmore).trans ?_
    rw [networkSyscalls_append, hfinish, hquiet, List.append_nil]
    exact networkSyscalls_writeSyscalls _ _
  · rw [← htracks]
    exact leftOpen_keys session.salt (closeTime state now) settled.syscalls

/-! ## Keys of exports -/

section

variable {salt : UInt64} {calls cuts : List SyscallEvent} {records : List NetworkSyscall}
  (h : Exports salt calls cuts records)
include h

theorem Exports.keys :
    (records.map NetworkSyscall.key).Perm
      (cuts.map SyscallEvent.key ++ (endings salt calls).map SyscallEvent.key) := by
  have hended : (records.filter fun record => !record.incomplete).map NetworkSyscall.key =
      (endings salt calls).map SyscallEvent.key := by
    have hfirst := congrArg (List.map Prod.fst) h.ended
    rw [List.map_map, List.map_map] at hfirst
    exact hfirst
  rw [← h.cut, ← hended, ← List.map_append]
  exact (List.filter_append_perm NetworkSyscall.incomplete records).symm.map _

theorem Exports.ending (honce : (records.map NetworkSyscall.key).Nodup) {call : SyscallEvent}
    (hcall : call ∈ endings salt calls) :
    ∃ record, records.filter (fun other => other.key = call.key) = [record] ∧
      record.incomplete = false ∧ record.result = call.result := by
  have hmem : call.outcome ∈
      (records.filter fun record => !record.incomplete).map NetworkSyscall.outcome := by
    rw [h.ended]
    exact List.mem_map_of_mem hcall
  obtain ⟨record, hrecord, houtcome⟩ := List.mem_map.mp hmem
  obtain ⟨hin, hcomplete⟩ := List.mem_filter.mp hrecord
  have hkey : record.key = call.key := congrArg Prod.fst houtcome
  refine ⟨record, ?_, by simpa using hcomplete, congrArg Prod.snd houtcome⟩
  rw [← hkey]
  obtain ⟨front, back, rfl⟩ := List.append_of_mem hin
  rw [List.map_append, List.map_cons, List.perm_middle.nodup_iff, List.nodup_cons,
    List.mem_append, not_or] at honce
  obtain ⟨⟨hfront, hback⟩, -⟩ := honce
  have hnone {others : List NetworkSyscall} (hothers : record.key ∉ others.map NetworkSyscall.key) :
      others.filter (fun other => other.key = record.key) = [] := by
    refine List.filter_eq_nil_iff.mpr fun other hother heq => hothers ?_
    rw [← of_decide_eq_true heq]
    exact List.mem_map_of_mem hother
  rw [List.filter_append, List.filter_cons, hnone hfront, hnone hback]
  simp

end

/-! ## The pairing of calls -/

/-- A call that is cut short was in progress, and the record that cuts it short is no END record. -/
theorem cutShort_spec {session : Session} {state : State} {input : Input} {cut : SyscallEvent}
    (h : cut ∈ cutShort session state input) :
    (∃ track ∈ state.tracks, track.active = true ∧ track.key = cut.key) ∧
      endings session.salt (delivered session input) = [] := by
  unfold cutShort at h
  split at h
  case h_2 => cases h
  case h_1 call size =>
    split at h
    case isTrue => cases h
    case isFalse hpast =>
      have hdelivered : delivered session (.syscall call size) = [call] := if_neg hpast
      split at h
      case h_2 => cases h
      case h_1 slot hslot =>
        obtain ⟨_, -, hmem⟩ := Option.bind_eq_some_iff.mp hslot
        unfold cutBy at h
        split at h
        case isFalse => cases h
        case isTrue hcut =>
          simp only [Bool.and_eq_true, Bool.not_eq_true'] at hcut
          obtain ⟨⟨⟨hentered, -⟩, hactive⟩, -⟩ := hcut
          rw [List.mem_singleton.mp h]
          refine ⟨⟨slot.track, List.mem_map_of_mem (List.mem_of_getElem? hmem), hactive, rfl⟩, ?_⟩
          rw [hdelivered]
          simp [endings, hentered]

theorem deliveries_split (session : Session) (before : List Input) (input : Input)
    (after : List Input) :
    deliveries session (before ++ input :: after) =
      deliveries session before ++ (delivered session input ++ deliveries session after) := by
  simp [deliveries]

theorem endedKeys_of_endings {salt : UInt64} {calls : List SyscallEvent} {call : SyscallEvent}
    (h : call ∈ endings salt calls) : call.key ∈ endedKeys calls := by
  obtain ⟨hmem, hkept⟩ := List.mem_filter.mp h
  rw [Bool.and_eq_true] at hkept
  exact List.mem_map_of_mem (List.mem_filter.mpr ⟨hmem, hkept.1⟩)

/-- A call that is cut short has not ended before, and so only a later END record can be exported
with its key. -/
theorem keepsEndings_iff (session : Session) {inputs : List Input}
    (honce : CallsOnce (deliveries session inputs)) :
    KeepsEndings session inputs ↔ ∀ cut ∈ cuts session inputs,
      ∀ call ∈ endings session.salt (deliveries session inputs), call.key ≠ cut.key := by
  constructor
  · intro hkeeps cut hcut call hcall hkey
    obtain ⟨before, input, after, rfl, hmem⟩ := mem_observations.mp hcut
    obtain ⟨⟨track, htrack, hactive, hsame⟩, hnone⟩ := cutShort_spec hmem
    rw [deliveries_split] at honce
    rw [deliveries_split, endings_append, endings_append, hnone, List.nil_append,
      List.mem_append] at hcall
    obtain hbefore | hafter := hcall
    · have hpairing := (run_pairing session honce.left).pairing
      refine hpairing.unended track htrack hactive ?_
      rw [hsame, ← hkey]
      exact endedKeys_of_endings hbefore
    · exact hkeeps before input after rfl cut hmem call hafter hkey
  · intro hapart before input after hsplit cut hcut call hcall
    refine hapart cut (mem_observations.mpr ⟨before, input, after, hsplit, hcut⟩) call ?_
    rw [hsplit, deliveries_split, endings_append, endings_append]
    exact List.mem_append_right _ (List.mem_append_right _ hcall)

theorem Pairing.export_once {salt : UInt64} {calls cuts opened : List SyscallEvent}
    {tracks : List CallTrack} (h : Pairing calls tracks (cuts.map SyscallEvent.key))
    (honce : CallsOnce calls) (hopened : (opened.map SyscallEvent.key).Sublist
      ((tracks.filter CallTrack.active).map CallTrack.key)) :
    ((cuts ++ opened).map SyscallEvent.key ++ (endings salt calls).map SyscallEvent.key).Nodup ↔
      ∀ cut ∈ cuts, ∀ call ∈ endings salt calls, call.key ≠ cut.key := by
  have hlive {key : CallKey} (hkey : key ∈ opened.map SyscallEvent.key) :
      ∃ track ∈ tracks, track.active = true ∧ track.key = key := by
    obtain ⟨track, htrack, hsame⟩ := List.mem_map.mp (hopened.subset hkey)
    obtain ⟨hmem, hactive⟩ := List.mem_filter.mp htrack
    exact ⟨track, hmem, hactive, hsame⟩
  have hopenOnce : (opened.map SyscallEvent.key).Nodup := by
    refine List.Nodup.sublist hopened (List.Nodup.of_map Prod.fst ?_)
    rw [List.map_map]
    exact h.threads.sublist (List.filter_sublist.map CallTrack.thread)
  have hendedOnce : ((endings salt calls).map SyscallEvent.key).Nodup := by
    refine honce.ended.sublist (List.Sublist.map _ ?_)
    exact List.monotone_filter_right calls fun call hkept => by
      rw [Bool.and_eq_true] at hkept
      exact hkept.1
  have hopenCut : List.Disjoint (cuts.map SyscallEvent.key) (opened.map SyscallEvent.key) := by
    intro key hcut hopen
    obtain ⟨track, htrack, hactive, rfl⟩ := hlive hopen
    exact h.uncut track htrack hactive hcut
  have hopenEnded : List.Disjoint (opened.map SyscallEvent.key)
      ((endings salt calls).map SyscallEvent.key) := by
    intro key hopen hended
    obtain ⟨track, htrack, hactive, rfl⟩ := hlive hopen
    obtain ⟨call, hcall, hsame⟩ := List.mem_map.mp hended
    exact h.unended track htrack hactive (hsame ▸ endedKeys_of_endings hcall)
  rw [List.map_append, List.nodup_append', List.nodup_append', List.disjoint_append_left]
  constructor
  · rintro ⟨-, -, hcutEnded, -⟩ cut hcut call hcall hkey
    exact hcutEnded (List.mem_map_of_mem hcut) (hkey ▸ List.mem_map_of_mem hcall)
  · intro hapart
    refine ⟨⟨h.cutOnce, hopenOnce, hopenCut⟩, hendedOnce, ?_, hopenEnded⟩
    intro key hcut hended
    obtain ⟨cut, hmem, rfl⟩ := List.mem_map.mp hcut
    obtain ⟨call, hcall, hkey⟩ := List.mem_map.mp hended
    exact hapart cut hmem call hcall hkey

/-- Whatever the order and the losses of the records of calls that have at most one ENTER and one
END record each, every call is exported at most once, and with its result if its END record arrived,
exactly if no call is cut short whose END record is still to come. -/
theorem syscall_pairing (session : Session) (inputs : List Input) (now eventCount : UInt64)
    (honce : CallsOnce (deliveries session inputs)) :
    Paired session.salt (deliveries session inputs)
        (close session (reached session inputs) now eventCount) ↔
      KeepsEndings session inputs := by
  have hrun := run_pairing session honce
  obtain ⟨opened, hexports, hopened⟩ := close_exports session now eventCount hrun
  have hkeys : ((networkSyscalls (close session (reached session inputs) now eventCount)).map
      NetworkSyscall.key).Nodup ↔ KeepsEndings session inputs := by
    rw [hexports.keys.nodup_iff, keepsEndings_iff session honce]
    exact hrun.pairing.export_once honce hopened
  refine ⟨fun hpaired => hkeys.mp hpaired.once, fun hkeeps => ?_⟩
  have hnodup := hkeys.mpr hkeeps
  exact ⟨hnodup, fun call hcall => hexports.ending hnodup hcall⟩

/-- A record of a `sendto` call of thread 7. -/
def smallCall (finished : Bool) (startTs ts : UInt64) (result : Int64) : Input :=
  .syscall
    { (default : SyscallEvent) with
      kind := .sendto
      startTs := startTs
      ts := ts
      result := result
      tid := 7
      tgid := 7
      finished := finished } 200

/-- The END record of a call, its ENTER record, and the next call. -/
def swappedRun : List Input :=
  [smallCall true 100 120 5, smallCall false 100 100 0, smallCall false 200 200 0,
    smallCall true 200 230 7]

theorem syscall_pairing_swapped :
    CallsOnce (deliveries smallSession swappedRun) ∧
      (Paired smallSession.salt (deliveries smallSession swappedRun)
          (close smallSession (reached smallSession swappedRun) 300 4) ↔
        KeepsEndings smallSession swappedRun) := by
  have honce : CallsOnce (deliveries smallSession swappedRun) :=
    ⟨by decide +kernel, by decide +kernel⟩
  exact ⟨honce, syscall_pairing smallSession swappedRun 300 4 honce⟩

/-- The calls of a thread do not overlap in time. -/
def CallsApart (calls : List SyscallEvent) : Prop :=
  ∀ first ∈ calls, ∀ second ∈ calls, first.finished = true → first.thread = second.thread →
    first.startTs < second.startTs → first.ts ≤ second.startTs

/-- The ENTER records of two calls of a thread, and their END records. -/
def overtakenRun : List Input :=
  [smallCall false 100 100 0, smallCall false 200 200 0, smallCall true 100 120 5,
    smallCall true 200 230 7]

/-- The first call is given up at the second ENTER record, and exported again when it ends. -/
theorem overtaken_call_exported_twice :
    CallsOnce (deliveries smallSession overtakenRun) ∧
      CallsApart (deliveries smallSession overtakenRun) ∧
      ¬ Paired smallSession.salt (deliveries smallSession overtakenRun)
        (close smallSession (reached smallSession overtakenRun) 300 4) := by
  refine ⟨⟨by decide +kernel, by decide +kernel⟩, by unfold CallsApart; decide +kernel, ?_⟩
  intro hpaired
  have hrepeated : ¬ ((networkSyscalls (close smallSession (reached smallSession overtakenRun)
      300 4)).map NetworkSyscall.key).Nodup := by
    decide +kernel
  exact hrepeated hpaired.once

end Anettrace.Export
