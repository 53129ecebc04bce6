import Anettrace.Export.FlowLifecycle

/-!
# Endings

Which flows and protocol calls an input ends, and when, as the tables before it tell. The records of
ends that a step and the close write are about these.
-/

namespace Anettrace.Export

open Library.Table

/-! ## What the tables tell -/

/-- The call that a thread has in progress in a function, with the time of its end. -/
def callEnded (state : State) (func : UInt16) (tid : UInt32) (ts : UInt64) :
    List (PendingIo × UInt64) :=
  ((pendingIoFind state func tid).bind (state.ios[·]?)).toList.map fun call => (call, ts)

/-- The protocol calls that an input ends, and when. -/
def endedCalls (session : Session) (state : State) : Input → List (PendingIo × UInt64)
  | .ret event size =>
      if size < session.retSize ∨ !(session.getTrace event.func).any traceIsIo then []
      else callEnded state event.func event.tid event.ts
  | .event sample _ _ =>
      let detail := sample.detail
      match branch session sample with
      | .returned => callEnded state detail.func detail.tid detail.ts
      | .io _ =>
          if pendingIoRepeats state detail then []
          else callEnded state detail.func detail.tid detail.ts
      | _ => []
  | _ => []

/-- The flows in progress that satisfy a test, with the times that `flow_finish` settles on. -/
def flowsEnded (state : State) (test : FlowState → Bool) (endTs : FlowState → UInt64) :
    List (FlowState × UInt64) :=
  (state.flows.filter fun flow => flow.active && test flow).map fun flow =>
    (flow, flow.finishTs (endTs flow))

/-- The flows that an input ends, and when. -/
def endedFlows (session : Session) (state : State) : Input → List (FlowState × UInt64)
  | .event sample _ _ =>
      match branch session sample with
      | .socket trace =>
          if socketTraceTerminal trace then
            flowsEnded state
              (fun flow => flow.socketId = detailSocketInstanceId session.salt sample.detail)
              fun _ => sample.detail.ts
          else []
      | _ => []
  | .tick now =>
      if tickTime state now = 0 then []
      else
        flowsEnded state (idle (tickTime state now)) fun flow => flow.lastTs + udpFlowIdleNs
  | _ => []

/-- A record of an end is about one of the given flows or calls. -/
def Record.EndOf (flows : List (FlowState × UInt64)) (calls : List (PendingIo × UInt64)) :
    Record → Prop
  | .flowEnd record => ∃ entry ∈ flows, record.flowId = entry.1.id ∧ record.ts = entry.2
  | .ioComplete record => ∃ entry ∈ calls, record.ioId = entry.1.ioId ∧
      record.tid = entry.1.tid ∧ record.tgid = entry.1.tgid ∧ record.tx = entry.1.tx ∧
        record.ts = entry.2
  | _ => True

/-- A change of a state that records the ends of the given flows and calls only. -/
def EndsOnly (flows : List (FlowState × UInt64)) (calls : List (PendingIo × UInt64))
    (before after : State) : Prop :=
  ∃ records, after.out = before.out ++ records ∧ ∀ record ∈ records, record.EndOf flows calls

section EndsOnly

variable {flows : List (FlowState × UInt64)} {calls : List (PendingIo × UInt64)}
  {before middle after : State}

/-- Changes that write nothing. -/
theorem EndsOnly.of_out (h : after.out = before.out) : EndsOnly flows calls before after :=
  ⟨[], by rw [h, List.append_nil], fun _ hrecord => absurd hrecord List.not_mem_nil⟩

theorem EndsOnly.trans (h : EndsOnly flows calls before middle)
    (hnext : EndsOnly flows calls middle after) :
    EndsOnly flows calls before after := by
  obtain ⟨first, hfirst, hends⟩ := h
  obtain ⟨second, hsecond, hmore⟩ := hnext
  refine ⟨first ++ second, by rw [hsecond, hfirst, List.append_assoc], fun record hrecord => ?_⟩
  rcases List.mem_append.mp hrecord with hold | hnew
  · exact hends record hold
  · exact hmore record hnew

/-- Changes after which nothing more is written. -/
theorem EndsOnly.then_out (h : EndsOnly flows calls before middle) (hout : after.out = middle.out) :
    EndsOnly flows calls before after :=
  h.trans (EndsOnly.of_out hout)

theorem AllLinks.endOf {records : List Record} (h : AllLinks records) :
    ∀ record ∈ records, record.EndOf flows calls := by
  intro record hrecord
  obtain ⟨fields, rfl⟩ := h record hrecord
  trivial

theorem EndsOnly.syscalls (slots : List SyscallSlot) (records : List NetworkSyscall) :
    EndsOnly flows calls before ({ before with syscalls := slots }.writeSyscalls records) := by
  refine ⟨_, rfl, fun record hrecord => ?_⟩
  obtain ⟨fields, -, rfl⟩ := List.mem_map.mp hrecord
  trivial

end EndsOnly

/-! ## Flows -/

variable {flows : List (FlowState × UInt64)} {calls : List (PendingIo × UInt64)}

theorem updateFlow_ends (state : State) (place : Nat) {change : FlowState → FlowState × List Record}
    (h : ∀ flow, ∀ record ∈ (change flow).2, record.EndOf flows calls) :
    EndsOnly flows calls state (state.updateFlow place change) := by
  cases hflow : state.flows[place]? with
  | none =>
      rw [updateFlow_none hflow]
      exact EndsOnly.of_out rfl
  | some flow =>
      rw [updateFlow_some hflow]
      exact ⟨_, rfl, h flow⟩

theorem flowOpen_ends (state : State) (realloc : Bool) (detail : DetailEvent)
    (tupleId socketId ts : UInt64) (fill : FlowState → FlowState) :
    EndsOnly flows calls state (flowOpen state realloc detail tupleId socketId ts fill).1 := by
  obtain ⟨-, hout, -⟩ := flowCreate_frame state realloc tupleId socketId detail.netns ts
  unfold flowOpen
  generalize flowCreate state realloc tupleId socketId detail.netns ts = created at *
  obtain ⟨created, entry⟩ := created
  cases entry with
  | none => exact EndsOnly.of_out hout
  | some flow =>
      obtain ⟨-, -, hassigned, -⟩ := flowAssignDisplayIndex_frame created (fill flow)
      dsimp only at *
      generalize flowAssignDisplayIndex created (fill flow) = assigned at *
      obtain ⟨-, links, start, hrecords, hlinks, -⟩ :=
        flowEmitStart_spec (flowSetOwner assigned.2 detail socketId)
      refine ⟨_, congrArg (· ++ _) (hassigned.trans hout), fun record hrecord => ?_⟩
      rw [hrecords] at hrecord
      rcases List.mem_append.mp hrecord with hlink | hstart
      · exact hlinks.endOf record hlink
      · rw [List.mem_singleton.mp hstart]
        trivial

theorem flowFromSocket_ends (session : Session) (state : State) (realloc : Bool)
    (detail : DetailEvent) (ts : UInt64) :
    EndsOnly flows calls state (flowFromSocket session state realloc detail ts).1 := by
  unfold flowFromSocket
  dsimp only
  split
  · exact EndsOnly.of_out rfl
  · split
    · exact EndsOnly.of_out rfl
    · exact flowOpen_ends state _ detail _ _ ts _
    · exact updateFlow_ends state _ fun flow => (flowTouch_links detail _ ts flow).endOf

theorem flowFromPacket_ends (session : Session) (state : State) (realloc : Bool)
    (detail : DetailEvent) (trace : Trace) :
    EndsOnly flows calls state (flowFromPacket session state realloc detail trace).1 := by
  have hanchor (result : State × Option Nat) :
      (flowAnchor session detail trace result).1.out = result.1.out := by
    unfold flowAnchor
    split
    · rfl
    · split <;> rfl
  unfold flowFromPacket
  dsimp only
  split
  · exact EndsOnly.of_out rfl
  · split
    · exact EndsOnly.of_out rfl
    · split
      · split <;> exact EndsOnly.of_out rfl
      · refine EndsOnly.then_out ?_ (hanchor _)
        split
        · exact flowOpen_ends state _ detail _ _ detail.ts _
        · exact updateFlow_ends state _ fun flow => (flowTouch_links detail _ _ flow).endOf

theorem mem_flowsEnded {state : State} {test : FlowState → Bool} (endTs : FlowState → UInt64)
    {flow : FlowState} (hflow : flow ∈ state.flows) (hactive : flow.active = true)
    (htest : test flow = true) :
    ∃ entry ∈ flowsEnded state test endTs, flow.id = entry.1.id ∧
      flow.finishTs (endTs flow) = entry.2 := by
  refine ⟨_, List.mem_map.mpr ⟨flow, List.mem_filter.mpr ⟨hflow, ?_⟩, rfl⟩, rfl, rfl⟩
  rw [hactive, htest]
  rfl

/-- A loop of `flow_finish` ends the flows in progress that satisfy its test. -/
theorem finishFlows_ends (state : State) (test : FlowState → Bool) (endTs : FlowState → UInt64)
    (reason : EndReason) (incomplete : Bool)
    (h : ∀ flow ∈ state.flows, flow.active = true → test flow = true →
      ∃ entry ∈ flows, flow.id = entry.1.id ∧ flow.finishTs (endTs flow) = entry.2) :
    EndsOnly flows calls state
      (finishFlows state test fun flow => flowFinish (endTs flow) reason incomplete flow) := by
  rw [finishFlows_eq]
  refine ⟨_, rfl, fun record hrecord => ?_⟩
  obtain ⟨flow, hflow, hfinished⟩ := List.mem_flatMap.mp hrecord
  unfold finishedIf at hfinished
  split at hfinished
  case isFalse => cases hfinished
  case isTrue htest =>
    cases hactive : flow.active with
    | false =>
        have hnone : (flowFinish (endTs flow) reason incomplete flow).2 = [] := by
          rw [flowFinish_inactive hactive]
        rw [hnone] at hfinished
        cases hfinished
    | true =>
        have hwritten : (flowFinish (endTs flow) reason incomplete flow).2 =
            [.flowEnd (flowEndRecord flow (flow.finishTs (endTs flow)) reason incomplete)] := by
          unfold flowFinish
          rw [if_neg (by simp [hactive])]
        obtain rfl := List.mem_singleton.mp (hwritten ▸ hfinished)
        exact h flow hflow hactive htest

/-! ## Calls -/

theorem exportPacketIoLink_ends (session : Session) (state : State) (detail : DetailEvent)
    (flow : Option FlowState) :
    EndsOnly flows calls state (exportPacketIoLink session state detail flow) := by
  unfold exportPacketIoLink
  split
  · exact EndsOnly.of_out rfl
  · refine ⟨_, rfl, fun record hrecord => ?_⟩
    rw [List.mem_singleton.mp hrecord]
    trivial

theorem pendingIoEmitStart_ends (session : Session) (state : State) (trace : Option Trace)
    (flow : Option FlowState) (pending : PendingIo) :
    ∀ record ∈ (pendingIoEmitStart session state trace flow pending).2,
      record.EndOf flows calls := by
  unfold pendingIoEmitStart
  split
  · exact fun _ hrecord => absurd hrecord List.not_mem_nil
  · intro record hrecord
    rw [List.mem_singleton.mp hrecord]
    trivial

theorem pendingIoEmitStart_names (session : Session) (state : State) (trace : Option Trace)
    (flow : Option FlowState) (pending : PendingIo) :
    let call := (pendingIoEmitStart session state trace flow pending).1
    call.ioId = pending.ioId ∧ call.tid = pending.tid ∧ call.tgid = pending.tgid ∧
      call.tx = pending.tx := by
  unfold pendingIoEmitStart
  split <;> exact ⟨rfl, rfl, rfl, rfl⟩

/-- `pending_io_finish` ends the call at its place, if it is in progress. -/
theorem pendingIoFinish_ends (session : Session) (state : State) (io : Option Nat) (ts : UInt64)
    (result : Int64) (incomplete : Bool)
    (h : ∀ pending, io.bind (state.ios[·]?) = some pending → pending.active = true →
      (pending, ts) ∈ calls) :
    EndsOnly flows calls state (pendingIoFinish session state io ts result incomplete) := by
  unfold pendingIoFinish
  split
  case h_2 => exact EndsOnly.of_out rfl
  case h_1 _ place pending hpending =>
    split
    case isTrue => exact EndsOnly.of_out rfl
    case isFalse hactive =>
      have hmem := h pending hpending (by simpa using hactive)
      dsimp only
      obtain ⟨hid, htid, htgid, htx⟩ := pendingIoEmitStart_names session state
        (session.getTrace pending.func) ((ioFlow session state pending).bind (state.flows[·]?))
        { pending with flowId := (((ioFlow session state pending).bind
          (state.flows[·]?)).map FlowState.id).getD pending.flowId }
      split <;>
      · refine ⟨_, List.append_assoc _ _ _, fun record hrecord => ?_⟩
        rcases List.mem_append.mp hrecord with hstart | hends
        · exact pendingIoEmitStart_ends session state _ _ _ record hstart
        · rcases List.mem_cons.mp hends with rfl | hcomplete
          · trivial
          · rw [List.mem_singleton.mp hcomplete]
            exact ⟨_, hmem, hid, htid, htgid, htx, rfl⟩

theorem pendingIoFinish_found (session : Session) (state : State) (func : UInt16) (tid : UInt32)
    (ts : UInt64) (result : Int64) (incomplete : Bool) :
    EndsOnly flows (callEnded state func tid ts) state
      (pendingIoFinish session state (pendingIoFind state func tid) ts result incomplete) := by
  refine pendingIoFinish_ends session state _ ts result incomplete fun pending hpending _ => ?_
  unfold callEnded
  rw [hpending]
  exact List.mem_singleton_self _

/-- `pending_io_start` ends the call that it finds, unless the record repeats it. -/
theorem pendingIoStart_ends (session : Session) (state : State) (realloc : Realloc)
    (detail : DetailEvent) (trace : Trace) (cpu : Int) :
    EndsOnly flows
      (if pendingIoRepeats state detail then []
        else callEnded state detail.func detail.tid detail.ts)
      state (pendingIoStart session state realloc detail trace cpu) := by
  have hadd (state : State) (func : UInt16) (tid : UInt32) :
      (pendingIoAdd state realloc.io func tid).1.out = state.out := by
    unfold pendingIoAdd
    split
    · rfl
    · split
      · rfl
      · dsimp only
        split <;> rfl
  have haccept : EndsOnly flows
      (if pendingIoRepeats state detail then []
        else callEnded state detail.func detail.tid detail.ts) state
      (pendingIoAccept session (pendingIoObserve state detail) realloc.io detail trace).1 := by
    have hrepeats : pendingIoRepeats (pendingIoObserve state detail) detail =
        pendingIoRepeats state detail := rfl
    unfold pendingIoAccept
    dsimp only
    rw [hrepeats]
    split
    · exact EndsOnly.of_out rfl
    · have hfinish : EndsOnly flows _ _ _ := pendingIoFinish_found session
        (pendingIoObserve state detail) detail.func detail.tid detail.ts 0 true
      split
      · exact hfinish
      · exact hfinish.then_out (hadd _ _ _)
  generalize (if pendingIoRepeats state detail then []
    else callEnded state detail.func detail.tid detail.ts) = ended at *
  unfold pendingIoStart
  split
  case h_1 accepted heq =>
    rw [heq] at haccept
    exact haccept
  case h_2 accepted io heq =>
    rw [heq] at haccept
    refine haccept.trans ?_
    unfold pendingIoBegin
    dsimp only
    have hflow : EndsOnly flows ended accepted
        (if detail.ske.protoL4 = ipprotoUdp then
          (accepted.setIo io (ioFill session detail trace cpu), none)
        else flowFromSocket session (accepted.setIo io (ioFill session detail trace cpu))
          realloc.flow detail detail.ts).1 := by
      split
      · exact EndsOnly.of_out rfl
      · exact flowFromSocket_ends session
          (accepted.setIo io (ioFill session detail trace cpu)) _ detail detail.ts
    split
    · exact hflow
    · exact hflow.trans ⟨_, rfl, pendingIoEmitStart_ends session _ _ _ _⟩

/-! ## Steps -/

section

variable (session : Session) (state : State) (realloc : Realloc) (detail : DetailEvent)
  (trace : Trace)

theorem packetEvent_ends :
    EndsOnly flows calls state (packetEvent session state realloc detail trace) :=
  (flowFromPacket_ends session state realloc.flow detail trace).trans
    (exportPacketIoLink_ends session _ detail _)

theorem socketEvent_ends :
    EndsOnly
      (if socketTraceTerminal trace then
        flowsEnded state (fun flow => flow.socketId = detailSocketInstanceId session.salt detail)
          fun _ => detail.ts
      else [])
      calls state (socketEvent session state realloc detail trace) := by
  unfold socketEvent
  dsimp only
  cases socketTraceTerminal trace with
  | true =>
      exact finishFlows_ends state _ (fun _ => detail.ts) _ _ fun _ hflow hactive htest =>
        mem_flowsEnded (fun _ => detail.ts) hflow hactive htest
  | false =>
      simp only [Bool.false_eq_true, if_false]
      split
      · exact flowFromSocket_ends session state _ detail detail.ts
      · exact EndsOnly.of_out rfl

end

/-- The ends that an input records are of the flows and calls that the tables tell. -/
theorem step_ends (session : Session) (state : State) (input : Input) :
    EndsOnly (endedFlows session state input) (endedCalls session state input) state
      (step session state input) := by
  cases input with
  | ret event size =>
      unfold step exportRet endedCalls
      dsimp only
      split
      · exact EndsOnly.of_out rfl
      · exact (pendingIoFinish_found session state _ _ _ _ _).then_out rfl
  | event sample cpu realloc =>
      unfold step exportEvent endedFlows endedCalls
      dsimp only
      cases branch session sample with
      | ignored => exact EndsOnly.of_out rfl
      | returned => exact (pendingIoFinish_found session state _ _ _ _ _).then_out rfl
      | hidden trace => exact packetEvent_ends session state realloc sample.detail trace
      | io trace =>
          exact (pendingIoStart_ends session state realloc sample.detail trace cpu).then_out rfl
      | lifecycle => exact EndsOnly.of_out rfl
      | socket trace =>
          exact (socketEvent_ends session state realloc sample.detail trace).then_out rfl
      | packet trace =>
          exact (packetEvent_ends session state realloc sample.detail trace).then_out rfl
  | syscall call size =>
      unfold step
      dsimp only
      split
      · exact EndsOnly.of_out rfl
      · obtain ⟨records, -, -, hout⟩ := handleNetworkSyscall_writes session.salt state call
        exact (EndsOnly.syscalls state.syscalls records).then_out hout
  | diagnostic | lost | queueLost => exact EndsOnly.of_out rfl
  | markCaptureEnd now =>
      unfold step
      dsimp only
      split <;> exact EndsOnly.of_out rfl
  | tick now =>
      unfold step tick endedFlows
      dsimp only
      split
      · exact EndsOnly.of_out rfl
      · exact finishFlows_ends state _ (fun flow => flow.lastTs + udpFlowIdleNs) _ _
          fun _ hflow hactive htest => mem_flowsEnded (fun flow => flow.lastTs + udpFlowIdleNs)
            hflow hactive htest

/-! ## The close -/

/-- The calls that the close ends. -/
def closedIos (state : State) (endTs : UInt64) : List (PendingIo × UInt64) :=
  (state.ios.filter PendingIo.active).map fun call => (call, endTs)

/-- The flows that the close ends. -/
def closedFlows (state : State) (endTs : UInt64) : List (FlowState × UInt64) :=
  flowsEnded state (fun _ => true) fun _ => endTs

/-- What the close reads of a flow. -/
def FlowState.ending (endTs : UInt64) (flow : FlowState) : UInt64 × Bool × UInt64 :=
  (flow.id, flow.active, flow.finishTs endTs)

theorem creditFlow_ending (pending : PendingIo) (endTs bytes : UInt64) (flow : FlowState) :
    (creditFlow pending endTs bytes flow).ending endTs = flow.ending endTs := by
  have hreach : (flow.reach endTs).ending endTs = flow.ending endTs := by
    unfold FlowState.reach
    split
    case isFalse => rfl
    case isTrue hlater =>
      unfold FlowState.ending FlowState.finishTs
      rw [if_neg (UInt64.lt_irrefl endTs), if_neg (UInt64.lt_asymm hlater)]
  unfold creditFlow
  dsimp only
  split
  · exact hreach
  · split <;> exact hreach

/-- The end of a call leaves the other calls in progress. -/
theorem pendingIoFinish_others (session : Session) (state : State) (io : Option Nat) (ts : UInt64)
    (result : Int64) (incomplete : Bool) :
    ∀ call ∈ (pendingIoFinish session state io ts result incomplete).ios, call.active = true →
      call ∈ state.ios := by
  have hset {place : Nat} {ended : PendingIo} :
      ∀ call ∈ state.ios.set place { ended with active := false }, call.active = true →
        call ∈ state.ios := by
    intro call hcall hactive
    rcases mem_set hcall with hold | rfl
    · exact hold
    · cases hactive
  unfold pendingIoFinish
  split
  case h_2 => exact fun _ hcall _ => hcall
  case h_1 =>
    split
    case isTrue => exact fun _ hcall _ => hcall
    case isFalse =>
      dsimp only
      split <;> exact hset

/-- The loop of the close over the calls ends those in progress, and the flows end when they would
have. -/
theorem closeIos_ends (session : Session) (state : State) (endTs : UInt64) :
    EndsOnly flows (closedIos state endTs) state (closeIos session state endTs) ∧
      (closeIos session state endTs).flows.map (FlowState.ending endTs) =
        state.flows.map (FlowState.ending endTs) := by
  -- along the loop, the calls in progress are those from before
  have hloop (places : List Nat) {start : State}
      (hios : ∀ call ∈ start.ios, call.active = true → call ∈ state.ios) :
      let after := places.foldl
        (fun state io => pendingIoFinish session state (some io) endTs 0 true) start
      EndsOnly flows (closedIos state endTs) start after ∧
        after.flows.map (FlowState.ending endTs) = start.flows.map (FlowState.ending endTs) := by
    induction places generalizing start with
    | nil => exact ⟨EndsOnly.of_out rfl, rfl⟩
    | cons place rest ih =>
        have hsame := @pendingIoFinish_view session start (some place) endTs 0 true _
          (FlowState.ending endTs) fun pending => creditFlow_ending pending endTs
        have hleft := pendingIoFinish_others session start (some place) endTs 0 true
        have hfirst : EndsOnly flows (closedIos state endTs) start _ :=
          pendingIoFinish_ends session start (some place) endTs 0 true fun call hcall hactive =>
            List.mem_map.mpr ⟨call, List.mem_filter.mpr
              ⟨hios call (List.mem_of_getElem? hcall) hactive, hactive⟩, rfl⟩
        obtain ⟨hrest, hlast⟩ := ih fun call hcall hactive =>
          hios call (hleft call hcall hactive) hactive
        exact ⟨hfirst.trans hrest, hlast.trans hsame⟩
  exact hloop (List.range state.ios.length) fun _ hcall _ => hcall

/-- The records of ends that the close writes are of the flows and calls in progress. -/
theorem closeTables_ends (session : Session) (state : State) (now : UInt64) :
    EndsOnly (closedFlows state (closeTime state now)) (closedIos state (closeTime state now)) state
      (closeTables session state now) := by
  unfold closeTables
  dsimp only
  generalize closeTime state now = endTs
  obtain ⟨hios, hflows⟩ := @closeIos_ends (closedFlows state endTs) session state endTs
  refine (hios.trans (EndsOnly.syscalls [] _)).trans
    (finishFlows_ends _ _ (fun _ => endTs) _ _ fun flow hflow hactive _ => ?_)
  have hmem : flow.ending endTs ∈ state.flows.map (FlowState.ending endTs) := by
    rw [← hflows]
    exact List.mem_map_of_mem hflow
  obtain ⟨old, hold, heq⟩ := List.mem_map.mp hmem
  obtain ⟨hid, hrest⟩ := Prod.mk.inj heq
  obtain ⟨hsame, hts⟩ := Prod.mk.inj hrest
  obtain ⟨entry, hentry, hentryId, hentryTs⟩ := @mem_flowsEnded state (fun _ => true)
    (fun _ => endTs) old hold (hsame.trans hactive) rfl
  exact ⟨entry, hentry, hid.symm.trans hentryId, hts.symm.trans hentryTs⟩

end Anettrace.Export
