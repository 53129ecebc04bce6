import Anettrace.Export.FlowOutline
import Anettrace.Export.Simulation

/-!
# One active flow for a tuple, a namespace and a socket

`flow_lookup` finds a flow by its key only at times the flow covers, and an active flow covers no
time before its first packet. An event that arrives late, from before the first packet of the active
flow with its own key, is not attached to that flow. It opens a second flow with that key, or gives
the socket to a flow that had none, unless other flows cover it. Away from such events keys stay
apart, and an event finds at most one active flow of its own key.
-/

namespace Anettrace.Export

open Library.Run Library.Table

/-- `tuple_id`, `netns` and `socket_id`. -/
def FlowState.key (flow : FlowState) : FlowKey :=
  (flow.tupleId, flow.netns, flow.socketId)

def State.activeKeys (state : State) : List FlowKey :=
  (state.flows.filter FlowState.active).map FlowState.key

/-- No two active flows have one key. -/
structure FlowsApart (state : State) : Prop where
  keys : state.activeKeys.Nodup
  /-- An event finds at most one active flow of its own socket. -/
  exact : ∀ tupleId socketId netns ts,
    ((state.flows.filter FlowState.active).filter fun flow =>
      flow.inScope tupleId netns ts && flow.isExact socketId).length ≤ 1
  /-- Where an active flow covers an event with its key, a lookup is ambiguous only because of a
  flow that has ended or has another key. -/
  lookup : ∀ tupleId socketId netns ts,
    (flowLookup state.flows tupleId socketId netns ts).ambiguous = true →
      ∀ flow ∈ state.flows, flow.active = true → flow.key = (tupleId, netns, socketId) →
        flow.firstTs ≤ ts → ∃ other ∈ state.flows, other.inScope tupleId netns ts = true ∧
          (other.active = false ∨ other.key ≠ flow.key)

/-! ## Late events -/

/-- A new flow fits into the table, or the table can grow. -/
def State.canAllocate (state : State) (realloc : Bool) : Bool :=
  realloc || state.flows.length ≠ state.flowCapacity

def socketRequest (session : Session) (state : State) (realloc : Bool)
    (detail : DetailEvent) : Option FlowRequest :=
  if flowSocketSupported detail.ske then
    some
      { tupleId := socketFlowId session.salt detail.ske
        socketId := detailSocketInstanceId session.salt detail
        netns := detail.netns
        ts := detail.ts
        allocates := state.canAllocate realloc }
  else none

def packetRequest (session : Session) (state : State) (realloc : Bool)
    (detail : DetailEvent) (trace : Trace) : Option FlowRequest :=
  if flowPacketSupported detail.pkt trace && !packetTraceTerminal trace then
    some
      { tupleId := packetFlowId session.salt detail.pkt
        socketId := ownerSocketId session.salt detail
        netns := detail.netns
        ts := detail.ts
        allocates := state.canAllocate realloc }
  else none

def flowRequest (session : Session) (state : State) : Input → Option FlowRequest
  | .event sample _ realloc =>
      match branch session sample with
      | .hidden trace | .packet trace =>
          packetRequest session state realloc.flow sample.detail trace
      | .socket trace =>
          if !socketTraceTerminal trace ∧ trace.name ≠ "tcp_close" then
            socketRequest session state realloc.flow sample.detail
          else none
      | .io trace =>
          if sample.detail.ske.protoL4 ≠ ipprotoUdp ∧
              acceptedIn session state realloc sample.detail trace ≠ [] then
            socketRequest session state realloc.flow sample.detail
          else none
      | _ => none
  | _ => none

/-- The input is a late event that is not recognised. -/
def duplicates (session : Session) (state : State) (input : Input) : Bool :=
  (flowRequest session state input).any (lateDuplicate state.outlines)

/-! ## Keys -/

theorem activeKeys_eq (state : State) : state.activeKeys = liveKeys state.outlines := by
  unfold State.activeKeys liveKeys State.outlines
  rw [List.filter_map, List.map_map]
  rfl

theorem length_le_one {state : State} {flows : List FlowState} {key : FlowKey}
    (hkeys : state.activeKeys.Nodup) (hflows : flows.Sublist (state.flows.filter FlowState.active))
    (hsame : ∀ flow ∈ flows, flow.key = key) : flows.length ≤ 1 := by
  have hnodup : (flows.map FlowState.key).Nodup := hkeys.sublist (hflows.map FlowState.key)
  have hrepeat : flows.map FlowState.key = List.replicate flows.length key := by
    refine List.eq_replicate_iff.mpr ⟨List.length_map _, fun other hother => ?_⟩
    obtain ⟨flow, hflow, rfl⟩ := List.mem_map.mp hother
    exact hsame flow hflow
  rw [hrepeat] at hnodup
  exact List.nodup_replicate.mp hnodup

/-- Keys without repetitions are all that apart flows need. -/
theorem flowsApart_iff (state : State) :
    FlowsApart state ↔ (liveKeys state.outlines).Nodup := by
  rw [← activeKeys_eq]
  refine ⟨FlowsApart.keys, fun hkeys => ⟨hkeys, ?_, ?_⟩⟩
  · intro tupleId socketId netns ts
    refine @length_le_one state _ (tupleId, netns, socketId) hkeys List.filter_sublist ?_
    intro flow hflow
    have hfound := (List.mem_filter.mp hflow).2
    simp only [FlowState.inScope, FlowState.isExact, Bool.and_eq_true, decide_eq_true_eq] at hfound
    obtain ⟨⟨⟨⟨htuple, hnetns⟩, -⟩, -⟩, -, hsocket⟩ := hfound
    simp only [FlowState.key, htuple, hnetns, hsocket]
  · intro tupleId socketId netns ts hambiguous flow hflow hactive hkey hts
    by_contra hother
    push Not at hother
    have hanswer := flowLookup_answer state.flows ⟨tupleId, socketId, netns, ts, true⟩
    unfold lookupOf at hanswer
    dsimp only at hanswer
    generalize flowLookup state.flows tupleId socketId netns ts = answer at *
    cases hanswer with
    | several htwo =>
        have hlive : coveringFlows state.flows ⟨tupleId, socketId, netns, ts, true⟩ =
            coveringFlows (state.flows.filter FlowState.active)
              ⟨tupleId, socketId, netns, ts, true⟩ := by
          unfold coveringFlows
          rw [List.filter_filter]
          refine List.filter_congr fun other hmem => ?_
          rw [outline_inScope]
          cases hscope : other.inScope tupleId netns ts with
          | false => rfl
          | true => simp [hother other hmem hscope]
        rw [hlive] at htwo
        have hone : (coveringFlows (state.flows.filter FlowState.active)
            ⟨tupleId, socketId, netns, ts, true⟩).length ≤ 1 := by
          refine @length_le_one state _ flow.key hkeys List.filter_sublist fun other hcovers => ?_
          obtain ⟨hmem, hkept⟩ := List.mem_filter.mp hcovers
          rw [Bool.and_eq_true, outline_inScope] at hkept
          exact (hother other (List.mem_filter.mp hmem).1 hkept.1).2
        omega
    | absent => cases hambiguous
    | exact => cases hambiguous
    | candidate => cases hambiguous

/-! ## Entries -/

/-- The key of a flow and whether it is active. -/
def FlowState.mark (flow : FlowState) : FlowKey × Bool :=
  (flow.key, flow.active)

/-- A mark whose flow an event with a known socket is attributed to. -/
def remark (socketId : UInt64) (mark : FlowKey × Bool) : FlowKey × Bool :=
  ((mark.1.1, mark.1.2.1, if socketId ≠ 0 then socketId else mark.1.2.2), mark.2)

@[simp] theorem flowLinkSocket_mark (flow : FlowState) (ts : UInt64) :
    (flowLinkSocket flow ts).1.mark = flow.mark := by
  unfold flowLinkSocket
  split <;> rfl

@[simp] theorem reach_mark (flow : FlowState) (ts : UInt64) :
    (flow.reach ts).mark = flow.mark := by
  unfold FlowState.reach
  split <;> rfl

@[simp] theorem flowAssignDisplayIndex_mark (state : State) (flow : FlowState) :
    (flowAssignDisplayIndex state flow).2.mark = flow.mark := by
  unfold flowAssignDisplayIndex
  repeat' split
  all_goals rfl

@[simp] theorem flowSetOwner_mark (flow : FlowState) (detail : DetailEvent) (socketId : UInt64) :
    (flowSetOwner flow detail socketId).mark = remark socketId flow.mark := by
  unfold flowSetOwner
  dsimp only
  by_cases hsocket : socketId = 0
  · rw [if_neg (not_not.mpr hsocket)]
    have hremark : remark socketId flow.mark = flow.mark := by simp [remark, hsocket]
    rw [hremark]
    repeat' split
    all_goals rfl
  · rw [if_pos hsocket]
    have hremark : remark socketId flow.mark =
        ((flow.tupleId, flow.netns, socketId), flow.active) := by
      simp [remark, hsocket, FlowState.mark, FlowState.key]
    rw [hremark]
    repeat' split
    all_goals rfl

@[simp] theorem flowTouch_mark (detail : DetailEvent) (socketId ts : UInt64) (flow : FlowState) :
    (flowTouch detail socketId ts flow).1.mark = remark socketId flow.mark := by
  unfold flowTouch
  rw [flowLinkSocket_mark, flowSetOwner_mark, reach_mark]

@[simp] theorem packetFill_mark (detail : DetailEvent) (flow : FlowState) :
    (packetFill detail flow).mark = flow.mark := by
  unfold packetFill
  dsimp only
  split <;> rfl

@[simp] theorem countPacket_outline (direction : Direction) (flow : FlowState) :
    (countPacket direction flow).outline = flow.outline := by
  cases direction <;> rfl

/-- What a call adds to a flow in progress is not read by lookups. -/
theorem creditFlow_outline {flow : FlowState} (hactive : flow.active = true) (pending : PendingIo)
    (ts bytes : UInt64) : (creditFlow pending ts bytes flow).outline = flow.outline := by
  unfold creditFlow FlowState.reach FlowState.outline
  dsimp only
  repeat' split
  all_goals simp_all

/-! ## Lookups admit events -/

theorem recognised_of_mem {flows : List Outline} {request : FlowRequest} {flow : Outline}
    (hmem : flow ∈ covering flows request)
    (hflow : flow.active = true → flow.socketId = 0 → request.socketId = 0) :
    unrecognised flows request = false := by
  unfold unrecognised
  split
  case h_1 hnone =>
    rw [hnone] at hmem
    cases hmem
  case h_2 only honly =>
    rw [honly, List.mem_singleton] at hmem
    subst hmem
    cases hactive : flow.active with
    | false => rfl
    | true =>
        by_cases hsocket : flow.socketId = 0
        · simp [hflow hactive hsocket]
        · simp [hsocket]
  case h_3 => rfl

theorem liveKeys_set_mark {flows : List Outline} {place : Nat} {flow new : Outline}
    (hflow : flows[place]? = some flow) (hkey : new.active = true → new.key = flow.key)
    (hactive : new.active = flow.active) : liveKeys (flows.set place new) = liveKeys flows := by
  obtain ⟨front, back, hbefore, hafter⟩ := liveKeys_set hflow
  have hsame : liveKeys [new] = liveKeys [flow] := by
    cases h : new.active with
    | false => simp [liveKeys, h, hactive ▸ h]
    | true => simp [liveKeys, h, hactive ▸ h, hkey h]
  rw [hafter, hbefore, hsame]

section

variable {flows : List FlowState} {request : FlowRequest}

/-- The flow that a lookup answers with takes over the socket of the event. -/
theorem Answer.touch {place : Nat} {ambiguous : Bool} {flow new : FlowState}
    (h : Answer flows request ⟨some place, ambiguous⟩) (hflow : flows[place]? = some flow)
    (hnew : new.mark = remark request.socketId flow.mark) :
    Admits (flows.map FlowState.outline) request
      ((flows.map FlowState.outline).set place new.outline) := by
  have hplace : (flows.map FlowState.outline)[place]? = some flow.outline := by
    rw [List.getElem?_map, hflow]
    rfl
  have hactive : new.active = flow.active := congrArg Prod.snd hnew
  have hkey : new.key = (remark request.socketId flow.mark).1 := congrArg Prod.fst hnew
  cases h with
  | exact hfound hscope hexact =>
      obtain rfl : flow = _ := Option.some.inj (hflow.symm.trans hfound)
      simp only [FlowState.isExact, Bool.and_eq_true, decide_eq_true_eq] at hexact
      obtain ⟨hrequest, hsocket⟩ := hexact
      have hsame : new.outline.key = flow.outline.key := by
        refine hkey.trans ?_
        rw [remark, if_pos hrequest, ← hsocket]
        rfl
      have hcovers : flow.outline ∈ covering (flows.map FlowState.outline) request := by
        refine List.mem_filter.mpr ⟨List.mem_of_getElem? hplace, ?_⟩
        have hcompatible : flow.outline.compatible request = true := by
          simp [Outline.compatible, FlowState.outline, hsocket]
        rw [hscope, hcompatible]
        rfl
      refine Admits.kept (liveKeys_set_mark hplace (fun _ => hsame) hactive) ?_
      refine recognised_of_mem hcovers fun _ hzero => ?_
      exact absurd (hsocket.symm.trans hzero) hrequest
  | candidate hfound honly hcandidate =>
      obtain rfl : flow = _ := Option.some.inj (hflow.symm.trans hfound)
      have hcovers : covering (flows.map FlowState.outline) request = [flow.outline] := by
        rw [covering_outlines, honly]
        rfl
      have hmem : flow.outline ∈ covering (flows.map FlowState.outline) request := by
        rw [hcovers]
        exact List.mem_cons_self
      by_cases hrequest : request.socketId = 0
      · have hsame : new.outline.key = flow.outline.key := by
          refine hkey.trans ?_
          rw [remark, if_neg (not_not.mpr hrequest)]
          rfl
        exact Admits.kept (liveKeys_set_mark hplace (fun _ => hsame) hactive)
          (recognised_of_mem hmem fun _ _ => hrequest)
      · have hsocket : flow.socketId = 0 := by
          simp only [FlowState.isCandidate, FlowState.isExact] at hcandidate
          have hboth : flow.socketId ≠ request.socketId ∧ flow.socketId = 0 := by
            simpa [hrequest] using hcandidate
          exact hboth.2
        cases hlive : flow.active with
        | false =>
            refine Admits.kept (liveKeys_set_mark hplace (fun h => ?_) hactive) ?_
            · exact absurd ((hactive.symm.trans h).symm.trans hlive) (by simp)
            · exact recognised_of_mem hmem fun h => absurd (h.symm.trans hlive) (by simp)
        | true =>
            have hscope : flow.outline.inScope request = true := by
              have hkept := (List.mem_filter.mp hmem).2
              rw [Bool.and_eq_true] at hkept
              exact hkept.1
            simp only [Outline.inScope, Bool.and_eq_true, decide_eq_true_eq] at hscope
            obtain ⟨⟨⟨htuple, hnetns⟩, -⟩, -⟩ := hscope
            refine Admits.adopted hplace hcovers hlive hsocket hrequest (hactive.trans hlive) ?_
            refine hkey.trans ?_
            rw [remark, if_pos hrequest, FlowRequest.key, ← htuple, ← hnetns]
            rfl

theorem Answer.recognised (h : Answer flows request ⟨none, true⟩) :
    unrecognised (flows.map FlowState.outline) request = false := by
  cases h with
  | several htwo =>
      have hlength : (covering (flows.map FlowState.outline) request).length =
          (coveringFlows flows request).length := by
        rw [covering_outlines, List.length_map]
      unfold unrecognised
      split
      case h_1 hnone => rw [hnone, List.length_nil] at hlength; omega
      case h_2 honly => rw [honly, List.length_singleton] at hlength; omega
      case h_3 => rfl

/-- A lookup without an answer is about an event that no flow covers. -/
theorem Answer.uncovered (h : Answer flows request ⟨none, false⟩) :
    covering (flows.map FlowState.outline) request = [] := by
  cases h with
  | absent hnone =>
      rw [covering_outlines, hnone]
      rfl

end

/-- `flow_create` fills in the key of an active flow when there is room for it. -/
theorem flowCreate_spec (state : State) (realloc : Bool) (tupleId socketId : UInt64)
    (netns : UInt32) (ts : UInt64) :
    (state.canAllocate realloc = false ∧
        (flowCreate state realloc tupleId socketId netns ts).2 = none) ∨
      (state.canAllocate realloc = true ∧
        ∃ flow, (flowCreate state realloc tupleId socketId netns ts).2 = some flow ∧
          flow.mark = ((tupleId, netns, socketId), true)) := by
  unfold flowCreate State.canAllocate
  dsimp only
  split
  case isTrue hfull =>
    refine Or.inl ⟨?_, rfl⟩
    simpa [hfull.1] using hfull.2
  case isFalse hroom =>
    refine Or.inr ⟨?_, _, rfl, rfl⟩
    cases realloc with
    | true => rfl
    | false => simpa using hroom

/-- A created flow has the key of the event. -/
theorem flowOpen_admits {state : State} {realloc : Bool} {detail : DetailEvent}
    {request : FlowRequest} (hnetns : request.netns = detail.netns)
    (hallocates : request.allocates = state.canAllocate realloc)
    (hnone : covering state.outlines request = []) {fill : FlowState → FlowState}
    (hfill : ∀ flow, (fill flow).mark = flow.mark) :
    Admits state.outlines request
      (flowOpen state realloc detail request.tupleId request.socketId request.ts
        fill).1.outlines := by
  obtain ⟨hflows, -⟩ := flowCreate_frame state realloc request.tupleId request.socketId
    detail.netns request.ts
  have hspec := flowCreate_spec state realloc request.tupleId request.socketId detail.netns
    request.ts
  unfold flowOpen
  generalize flowCreate state realloc request.tupleId request.socketId detail.netns request.ts =
    created at *
  obtain ⟨created, entry⟩ := created
  dsimp only at hflows hspec ⊢
  obtain ⟨hfull, rfl⟩ | ⟨hroom, flow, rfl, hmark⟩ := hspec
  · refine Admits.kept (by rw [State.outlines, hflows]; rfl) ?_
    simp only [unrecognised, hnone, hallocates, hfull]
  · have hassigned := (flowAssignDisplayIndex_frame created (fill flow)).2.1
    obtain ⟨opened, hopened⟩ : ∃ opened, opened = (flowEmitStart (flowSetOwner
      (flowAssignDisplayIndex created (fill flow)).2 detail request.socketId)).1 := ⟨_, rfl⟩
    have hnew : opened.mark = (request.key, true) := by
      rw [hopened]
      refine (flowLinkSocket_mark _ _).trans ?_
      rw [flowSetOwner_mark, flowAssignDisplayIndex_mark, hfill, hmark, ← hnetns]
      by_cases hsocket : request.socketId = 0 <;> simp [remark, hsocket, FlowRequest.key]
    dsimp only [State.outlines]
    rw [hassigned, hflows, ← hopened, List.map_append]
    exact Admits.opened hnone (hallocates.trans hroom) (congrArg Prod.snd hnew)
      (congrArg Prod.fst hnew)

/-- A touched flow of the table. -/
theorem updateFlow_admits {state : State} {request : FlowRequest} {place : Nat} {ambiguous : Bool}
    {change : FlowState → FlowState × List Record}
    (h : Answer state.flows request ⟨some place, ambiguous⟩)
    (hchange : ∀ flow, (change flow).1.mark = remark request.socketId flow.mark) :
    Admits state.outlines request (state.updateFlow place change).outlines := by
  obtain ⟨flow, hflow⟩ : ∃ flow, state.flows[place]? = some flow := by
    cases h with
    | exact hflow => exact ⟨_, hflow⟩
    | candidate hflow => exact ⟨_, hflow⟩
  have hadmits := h.touch hflow (hchange flow)
  rw [updateFlow_some hflow]
  simpa only [State.outlines, List.map_set] using hadmits

/-- An event that asks for a flow is admitted. Others add no key. -/
inductive Follows (before after : List Outline) : Option FlowRequest → Prop where
  | asked {request : FlowRequest} (h : Admits before request after) :
      Follows before after (some request)
  | silent (h : (liveKeys after).Sublist (liveKeys before)) : Follows before after none

theorem Follows.same {before after : List Outline} (h : after = before) :
    Follows before after none := by
  subst h
  exact Follows.silent (List.Sublist.refl _)

/-- A socket record. -/
theorem flowFromSocket_follows (session : Session) (state : State) (realloc : Bool)
    (detail : DetailEvent) :
    Follows state.outlines (flowFromSocket session state realloc detail detail.ts).1.outlines
      (socketRequest session state realloc detail) := by
  unfold socketRequest flowFromSocket
  dsimp only
  cases hsupported : flowSocketSupported detail.ske with
  | false => exact Follows.same rfl
  | true =>
      simp only [if_true, Bool.not_true, Bool.false_eq_true, if_false]
      generalize hrequest : FlowRequest.mk (socketFlowId session.salt detail.ske)
        (detailSocketInstanceId session.salt detail) detail.netns detail.ts
        (state.canAllocate realloc) = request
      have hanswer := flowLookup_answer state.flows request
      subst hrequest
      refine Follows.asked ?_
      unfold lookupOf at hanswer
      dsimp only at hanswer
      split
      case h_1 heq =>
        rw [heq] at hanswer
        exact Admits.kept rfl hanswer.recognised
      case h_2 heq =>
        rw [heq] at hanswer
        exact @flowOpen_admits _ _ _
          ⟨_, detailSocketInstanceId session.salt detail, _, detail.ts, _⟩ rfl rfl
          hanswer.uncovered _ fun _ => rfl
      case h_3 heq =>
        rw [heq] at hanswer
        exact updateFlow_admits hanswer fun flow => flowTouch_mark _ _ _ flow

theorem flowAnchor_outlines (session : Session) (detail : DetailEvent) (trace : Trace)
    (result : State × Option Nat) :
    (flowAnchor session detail trace result).1.outlines = result.1.outlines := by
  unfold flowAnchor
  split
  · rfl
  · split
    · rename_i place _ _
      cases hflow : result.1.flows[place]? with
      | none => simp only [State.setFlow, modify_none hflow]
      | some flow =>
          simp only [State.outlines, State.setFlow, modify_some hflow]
          exact map_set FlowState.outline hflow (countPacket_outline _ _)
    · rfl

/-- A packet record. -/
theorem flowFromPacket_follows (session : Session) (state : State) (realloc : Bool)
    (detail : DetailEvent) (trace : Trace) :
    Follows state.outlines (flowFromPacket session state realloc detail trace).1.outlines
      (packetRequest session state realloc detail trace) := by
  unfold packetRequest flowFromPacket
  dsimp only
  cases hsupported : flowPacketSupported detail.pkt trace with
  | false => exact Follows.same rfl
  | true =>
      simp only [Bool.true_and, Bool.not_true, Bool.false_eq_true, if_false]
      cases hterminal : packetTraceTerminal trace with
      | true =>
          simp only [Bool.not_true, Bool.false_eq_true, if_false, if_true]
          repeat' split
          all_goals exact Follows.same rfl
      | false =>
          simp only [Bool.not_false, if_true, Bool.false_eq_true, if_false]
          generalize hrequest : FlowRequest.mk (packetFlowId session.salt detail.pkt)
            (ownerSocketId session.salt detail) detail.netns detail.ts
            (state.canAllocate realloc) = request
          have hanswer := flowLookup_answer state.flows request
          subst hrequest
          refine Follows.asked ?_
          unfold lookupOf at hanswer
          dsimp only at hanswer
          split
          case h_1 heq =>
            rw [heq] at hanswer
            exact Admits.kept rfl hanswer.recognised
          case h_2 found ambiguous hnot heq =>
            rw [heq] at hanswer
            rw [flowAnchor_outlines]
            cases found with
            | none =>
                cases ambiguous with
                | true => exact absurd rfl (hnot rfl)
                | false =>
                    exact @flowOpen_admits _ _ _
                      ⟨_, ownerSocketId session.salt detail, _, detail.ts, _⟩ rfl rfl
                      hanswer.uncovered _ (packetFill_mark detail)
            | some place => exact updateFlow_admits hanswer fun flow => flowTouch_mark _ _ _ flow

/-! ## Calls -/

/-- What lookups and allocations read of the flows is unchanged. -/
structure SameFlows (before after : State) : Prop where
  outlines : after.outlines = before.outlines
  capacity : after.flowCapacity = before.flowCapacity

theorem SameFlows.trans {first second third : State} (h : SameFlows first second)
    (hnext : SameFlows second third) : SameFlows first third :=
  ⟨hnext.outlines.trans h.outlines, hnext.capacity.trans h.capacity⟩

theorem SameFlows.canAllocate {before after : State} (h : SameFlows before after)
    (realloc : Bool) : after.canAllocate realloc = before.canAllocate realloc := by
  have hlength : after.flows.length = before.flows.length := by
    have hlengths := congrArg List.length h.outlines
    rwa [State.outlines, State.outlines, List.length_map, List.length_map] at hlengths
  unfold State.canAllocate
  rw [hlength, h.capacity]

/-- The end of a call credits flows in progress only. -/
theorem pendingIoFinish_flows (session : Session) {state : State} (hsound : state.books.Sound)
    (io : Option Nat) (ts : UInt64) (result : Int64) (incomplete : Bool) :
    SameFlows state (pendingIoFinish session state io ts result incomplete) := by
  cases hpending : io.bind (state.ios[·]?) with
  | none =>
      unfold pendingIoFinish
      rw [hpending]
      split
      case h_1 hnone => cases hnone
      case h_2 => exact ⟨rfl, rfl⟩
  | some pending =>
      obtain ⟨place, rfl, hplace⟩ := Option.bind_eq_some_iff.mp hpending
      unfold pendingIoFinish
      simp only [hpending]
      split
      case isTrue => exact ⟨rfl, rfl⟩
      case isFalse hactive =>
        have hclear := hsound.clear pending (List.mem_of_getElem? hplace) (by simpa using hactive)
        cases hflow : ioFlow session state pending with
        | none => exact ⟨rfl, rfl⟩
        | some found =>
            obtain ⟨flow, hentry, hflowActive, -⟩ := ioFlow_some hclear hflow
            simp only [Option.bind_some, hentry]
            exact ⟨map_set FlowState.outline hentry (creditFlow_outline hflowActive _ _ _), rfl⟩

theorem pendingIoAdd_flows (state : State) (realloc : Bool) (func : UInt16) (tid : UInt32) :
    SameFlows state (pendingIoAdd state realloc func tid).1 := by
  unfold pendingIoAdd
  split
  · exact ⟨rfl, rfl⟩
  · split
    · exact ⟨rfl, rfl⟩
    · dsimp only
      split <;> exact ⟨rfl, rfl⟩

theorem pendingIoAccept_flows (session : Session) {state : State} (hsound : state.books.Sound)
    (realloc : Bool) (detail : DetailEvent) (trace : Trace) :
    SameFlows state (pendingIoAccept session state realloc detail trace).1 := by
  unfold pendingIoAccept
  dsimp only
  split
  · exact ⟨rfl, rfl⟩
  · have hfinish := pendingIoFinish_flows session hsound
      (pendingIoFind state detail.func detail.tid) detail.ts 0 true
    split
    · exact hfinish
    · exact hfinish.trans (pendingIoAdd_flows _ _ _ _)

/-- The beginning of a call looks up the flow of its socket, unless the call is one on UDP. -/
theorem pendingIoBegin_follows (session : Session) (state : State) (realloc : Realloc)
    (detail : DetailEvent) (trace : Trace) (cpu : Int) (io : Nat) :
    Follows state.outlines (pendingIoBegin session state realloc detail trace cpu io).outlines
      (if detail.ske.protoL4 ≠ ipprotoUdp then socketRequest session state realloc.flow detail
        else none) := by
  have hsocket := flowFromSocket_follows session
    (state.setIo io (ioFill session detail trace cpu)) realloc.flow detail
  unfold pendingIoBegin
  dsimp only
  by_cases hudp : detail.ske.protoL4 = ipprotoUdp
  · rw [if_pos hudp, if_neg (not_not.mpr hudp)]
    dsimp only
    split <;> exact Follows.same rfl
  · rw [if_neg hudp, if_pos hudp]
    generalize flowFromSocket session (state.setIo io (ioFill session detail trace cpu))
      realloc.flow detail detail.ts = flowed at *
    split <;> exact hsocket

/-- `pending_io_start`: the flow of a call is looked up once the call is accepted. -/
theorem pendingIoStart_follows {session : Session} {state : State} (hsound : state.books.Sound)
    (realloc : Realloc) (detail : DetailEvent) (trace : Trace) (cpu : Int) :
    Follows state.outlines (pendingIoStart session state realloc detail trace cpu).outlines
      (if detail.ske.protoL4 ≠ ipprotoUdp ∧ acceptedIn session state realloc detail trace ≠ [] then
        socketRequest session state realloc.flow detail else none) := by
  have hobserved : (pendingIoObserve state detail).books.Sound := hsound
  have hsame : SameFlows state (pendingIoAccept session (pendingIoObserve state detail)
      realloc.io detail trace).1 := by
    have hobserve : SameFlows state (pendingIoObserve state detail) := ⟨rfl, rfl⟩
    exact hobserve.trans (pendingIoAccept_flows session hobserved realloc.io detail trace)
  unfold acceptedIn pendingIoStart
  generalize pendingIoAccept session (pendingIoObserve state detail) realloc.io detail trace =
    accepted at *
  obtain ⟨after, io⟩ := accepted
  cases io with
  | none =>
      rw [if_neg (by simp)]
      exact Follows.same hsame.outlines
  | some place =>
      have hbegin := pendingIoBegin_follows session after realloc detail trace cpu place
      have hrequest : socketRequest session after realloc.flow detail =
          socketRequest session state realloc.flow detail := by
        unfold socketRequest
        rw [hsame.canAllocate realloc.flow]
      rw [hrequest, hsame.outlines] at hbegin
      simpa using hbegin

/-! ## The ends of flows -/

/-- Ending flows takes keys away. -/
theorem finishFlows_keys (state : State) (test : FlowState → Bool) (endTs : FlowState → UInt64)
    (reason : EndReason) (incomplete : Bool) :
    (liveKeys (finishFlows state test fun flow =>
      flowFinish (endTs flow) reason incomplete flow).outlines).Sublist
        (liveKeys state.outlines) := by
  unfold finishFlows
  generalize List.range state.flows.length = places
  induction places generalizing state with
  | nil => exact List.Sublist.refl _
  | cons place rest ih =>
      rw [List.foldl_cons]
      refine (ih _).trans ?_
      cases hflow : state.flows[place]? with
      | none =>
          rw [updateFlow_none hflow]
      | some flow =>
          have houtline : state.outlines[place]? = some flow.outline := by
            rw [State.outlines, List.getElem?_map, hflow]
            rfl
          obtain ⟨front, back, hbefore, hafter⟩ := liveKeys_set houtline
          rw [updateFlow_some hflow]
          simp only [State.outlines, List.map_set] at hafter ⊢
          split
          case isFalse => rw [hafter, ← hbefore, State.outlines]
          case isTrue =>
            cases hactive : flow.active with
            | false =>
                rw [flowFinish_inactive hactive, hafter, ← hbefore, State.outlines]
            | true =>
                have hended := (flowFinish_active hactive (endTs flow) reason incomplete).1
                have hdead : (flowFinish (endTs flow) reason incomplete flow).1.outline.active =
                    false := congrArg Account.active hended
                have hnone : liveKeys
                    [(flowFinish (endTs flow) reason incomplete flow).1.outline] = [] := by
                  simp [liveKeys, hdead]
                have hkeys : liveKeys (state.flows.map FlowState.outline) = _ := hbefore
                rw [hafter, hkeys, hnone]
                exact ((List.nil_sublist _).append_left front).append_right back

/-! ## Steps -/

section

variable (session : Session) (state : State) (realloc : Realloc) (detail : DetailEvent)
  (trace : Trace)

theorem packetEvent_follows :
    Follows state.outlines (packetEvent session state realloc detail trace).outlines
      (packetRequest session state realloc.flow detail trace) := by
  have hflow := flowFromPacket_follows session state realloc.flow detail trace
  unfold packetEvent exportPacketIoLink
  dsimp only
  split <;> exact hflow

theorem socketEvent_follows :
    Follows state.outlines (socketEvent session state realloc detail trace).outlines
      (if !socketTraceTerminal trace ∧ trace.name ≠ "tcp_close" then
        socketRequest session state realloc.flow detail else none) := by
  unfold socketEvent
  dsimp only
  cases hterminal : socketTraceTerminal trace with
  | true =>
      simp only [Bool.not_true, Bool.false_eq_true, false_and, if_false, if_true]
      exact Follows.silent (finishFlows_keys state _ (fun _ => detail.ts) .socketDestroy false)
  | false =>
      rw [if_neg Bool.false_ne_true]
      split
      · exact flowFromSocket_follows session state realloc.flow detail
      · exact Follows.same rfl

end

section

variable {session : Session} {state : State} (hsound : state.books.Sound)
include hsound

/-- A record that starts with a `detail_event_t`. -/
theorem exportEvent_follows (sample : Sample) (cpu : Int) (realloc : Realloc) :
    Follows state.outlines (exportEvent session state sample cpu realloc).outlines
      (flowRequest session state (.event sample cpu realloc)) := by
  unfold exportEvent flowRequest
  dsimp only
  cases branch session sample with
  | ignored => exact Follows.same rfl
  | lifecycle => exact Follows.same rfl
  | returned => exact Follows.same (pendingIoFinish_flows session hsound _ _ _ _).outlines
  | hidden trace => exact packetEvent_follows session state realloc sample.detail trace
  | packet trace => exact packetEvent_follows session state realloc sample.detail trace
  | io trace => exact pendingIoStart_follows hsound realloc sample.detail trace cpu
  | socket trace => exact socketEvent_follows session state realloc sample.detail trace

/-- One call of an entry point. -/
theorem step_follows (input : Input) :
    Follows state.outlines (step session state input).outlines
      (flowRequest session state input) := by
  cases input with
  | event sample cpu realloc => exact exportEvent_follows hsound sample cpu realloc
  | ret event size =>
      unfold step exportRet
      dsimp only
      split
      · exact Follows.same rfl
      · exact Follows.same (pendingIoFinish_flows session hsound _ _ _ _).outlines
  | syscall call size =>
      unfold step
      dsimp only
      split
      · exact Follows.same rfl
      · obtain ⟨_, hflows, -⟩ := handleNetworkSyscall_writes session.salt state call
        exact Follows.same (congrArg (List.map FlowState.outline) hflows)
  | markCaptureEnd now =>
      unfold step
      dsimp only
      split <;> exact Follows.same rfl
  | tick now =>
      unfold step tick
      dsimp only
      split
      · exact Follows.same rfl
      · exact Follows.silent
          (finishFlows_keys state _ (fun flow => flow.lastTs + udpFlowIdleNs) .idleTimeout true)
  | diagnostic => exact Follows.same rfl
  | lost count => exact Follows.same rfl
  | queueLost count => exact Follows.same rfl

/-- A step keeps flows apart unless its event is an unrecognised late one. -/
theorem step_apart (hapart : FlowsApart state) (input : Input) :
    FlowsApart (step session state input) ↔ duplicates session state input = false := by
  have hfollows := @step_follows session _ hsound input
  rw [flowsApart_iff] at hapart ⊢
  unfold duplicates
  cases hrequest : flowRequest session state input with
  | none =>
      rw [hrequest] at hfollows
      cases hfollows with
      | silent hkeys => exact iff_of_true (hapart.sublist hkeys) rfl
  | some request =>
      rw [hrequest] at hfollows
      cases hfollows with
      | asked hadmits => exact hadmits.keys hapart

end

/-! ## Runs -/

/-- No input of a run is an unrecognised late event in the state it finds. -/
def RecognisesLate (session : Session) (inputs : List Input) : Prop :=
  ∀ before input, before ++ [input] <+: inputs →
    duplicates session (reached session before) input = false

/-- The exporter holds at most one active flow for a tuple, a namespace and a socket throughout a
run exactly if the run has no unrecognised late event. -/
theorem flows_apart (session : Session) (inputs : List Input) :
    (∀ before, before <+: inputs → FlowsApart (reached session before)) ↔
      RecognisesLate session inputs := by
  constructor
  · intro hapart before input hrun
    have hnext := hapart (before ++ [input]) hrun
    rw [reached_concat] at hnext
    refine (step_apart (reached_sound session before) (hapart before ?_) input).mp hnext
    exact (List.prefix_append before [input]).trans hrun
  · intro hlate before
    induction before using List.reverseRecOn with
    | nil =>
        intro _
        exact (flowsApart_iff _).mpr List.nodup_nil
    | append_singleton before input ih =>
        intro hrun
        have hbefore := ih ((List.prefix_append before [input]).trans hrun)
        rw [reached_concat]
        exact (step_apart (reached_sound session before) hbefore input).mpr
          (hlate before input hrun)

/-- Two UDP packets of one connection, the earlier one delivered last. -/
def lateRun : List Input :=
  [smallInput 0 ipprotoUdp .tx 200, smallInput 0 ipprotoUdp .tx 100]

/-- The late packet opens a second active flow with the key of the first, and a lookup at a time
that both cover is ambiguous. -/
theorem late_packet_opens_second_flow :
    ¬ FlowsApart (reached smallSession lateRun) ∧
      ∃ flow ∈ (reached smallSession lateRun).flows, flow.active = true ∧
        (flowLookup (reached smallSession lateRun).flows flow.tupleId flow.socketId flow.netns
          300).ambiguous = true := by
  have hrepeated : ¬ (reached smallSession lateRun).activeKeys.Nodup := by decide +kernel
  refine ⟨fun hapart => hrepeated hapart.keys, ?_⟩
  decide +kernel

end Anettrace.Export
