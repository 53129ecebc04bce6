import Anettrace.Export.FlowUnique

/-!
# The two resolutions of a packet

`flow_from_packet` attributes a packet to a flow and changes the table of flows; afterwards
`detail_flow_id` looks the packet up again, once for the JSON record and once for the native event.
The second lookup finds the flow of the first one: an opened flow is the only one that covers the
packet, a flow that adopts the socket of the packet becomes the exact one, and an exact flow stays
the only exact one. Both paths say "no flow" with the identity 0, which is also a possible hash.
-/

namespace Anettrace.Export

open Library.Run Library.Table

def detailFlowId (session : Session) (state : State) (detail : DetailEvent)
    (socket : Bool) : UInt64 :=
  let trace := session.getTrace detail.func
  let supported := trace.any (flowPacketSupported detail.pkt)
  let terminal := trace.any fun trace =>
    if socket then socketTraceTerminal trace else packetTraceTerminal trace
  if !socket ∧ !supported then 0
  else
    let socketId :=
      if socket then detailSocketInstanceId session.salt detail
        else ownerSocketId session.salt detail
    let tupleId :=
      if socket then socketFlowId session.salt detail.ske else packetFlowId session.salt detail.pkt
    let flow :=
      match flowLookup state.flows tupleId socketId detail.netns detail.ts with
      | ⟨some flow, _⟩ => some flow
      | ⟨none, true⟩ => none
      | ⟨none, false⟩ =>
          if !terminal then none
          else if socket then flowFindBySocket state socketId detail.ske.protoL4
          else flowFindDestroyed state tupleId socketId detail.netns detail.ts
    ((flow.bind (state.flows[·]?)).map FlowState.id).getD 0

/-! ## Lookups -/

/-- A flow in scope that names the socket of the event. -/
def exactFor (request : FlowRequest) (flow : FlowState) : Bool :=
  flow.isExact request.socketId && flow.inScope request.tupleId request.netns request.ts

/-- A flow in scope that leaves the socket open. -/
def candidateFor (request : FlowRequest) (flow : FlowState) : Bool :=
  flow.isCandidate request.socketId && flow.inScope request.tupleId request.netns request.ts

section

variable {flows : List FlowState} {request : FlowRequest}

theorem lookup_found_iff {place : Nat} :
    lookupOf flows request = ⟨some place, false⟩ ↔
      Sole flows (exactFor request) place ∨
        (Absent flows (exactFor request) ∧ Sole flows (candidateFor request) place) := by
  rw [← filter_zipIdx_singleton_iff, ← filter_zipIdx_singleton_iff, ← filter_zipIdx_nil_iff]
  unfold lookupOf flowLookup exactFor candidateFor
  dsimp only
  rw [List.filter_filter, List.filter_filter]
  generalize (flows.zipIdx.filter fun entry => entry.1.isExact request.socketId &&
    entry.1.inScope request.tupleId request.netns request.ts) = exacts
  generalize (flows.zipIdx.filter fun entry => entry.1.isCandidate request.socketId &&
    entry.1.inScope request.tupleId request.netns request.ts) = candidates
  match exacts, candidates with
  | [exact], _ => simp [Prod.ext_iff]
  | [], [] => simp
  | [], [candidate] => simp [Prod.ext_iff]
  | [], _ :: _ :: _ => simp
  | _ :: _ :: _, _ => simp

theorem lookup_nothing_iff :
    lookupOf flows request = ⟨none, false⟩ ↔
      Absent flows (exactFor request) ∧ Absent flows (candidateFor request) := by
  rw [← filter_zipIdx_nil_iff, ← filter_zipIdx_nil_iff]
  unfold lookupOf flowLookup exactFor candidateFor
  dsimp only
  rw [List.filter_filter, List.filter_filter]
  generalize (flows.zipIdx.filter fun entry => entry.1.isExact request.socketId &&
    entry.1.inScope request.tupleId request.netns request.ts) = exacts
  generalize (flows.zipIdx.filter fun entry => entry.1.isCandidate request.socketId &&
    entry.1.inScope request.tupleId request.netns request.ts) = candidates
  match exacts, candidates with
  | [exact], _ => simp
  | [], [] => simp
  | [], [candidate] => simp
  | [], _ :: _ :: _ => simp
  | _ :: _ :: _, _ => simp

theorem lookup_ambiguous {place : Nat} {ambiguous : Bool}
    (h : lookupOf flows request = ⟨some place, ambiguous⟩) :
    ambiguous = false := by
  have hanswer := flowLookup_answer flows request
  rw [h] at hanswer
  cases hanswer <;> rfl

end

/-! ## Entries -/

theorem flowTouch_inScope {flow : FlowState} {request : FlowRequest}
    (detail : DetailEvent) (h : flow.inScope request.tupleId request.netns request.ts = true) :
    (flowTouch detail request.socketId request.ts flow).1.inScope request.tupleId request.netns
      request.ts = true := by
  have hlink (entry : FlowState) (ts : UInt64) :
      (flowLinkSocket entry ts).1.inScope request.tupleId request.netns request.ts =
        entry.inScope request.tupleId request.netns request.ts := by
    unfold flowLinkSocket
    split <;> rfl
  have howner (entry : FlowState) (socketId : UInt64) :
      (flowSetOwner entry detail socketId).inScope request.tupleId request.netns request.ts =
        entry.inScope request.tupleId request.netns request.ts := by
    unfold flowSetOwner
    dsimp only
    repeat' split
    all_goals rfl
  unfold flowTouch
  rw [hlink, howner]
  unfold FlowState.reach
  split
  case isFalse => exact h
  case isTrue hlate =>
    -- a flow that has ended covers what it covered before, up to its new last packet
    simp only [FlowState.inScope, Bool.and_eq_true, Bool.or_eq_true, decide_eq_true_eq] at h ⊢
    refine ⟨h.1, h.2.imp_right fun hcovered => ?_⟩
    unfold FlowState.lastCovered at hcovered ⊢
    split
    case isTrue hend => rwa [if_pos hend] at hcovered
    case isFalse => exact UInt64.le_refl _

theorem flowTouch_socketId (detail : DetailEvent) (socketId ts : UInt64) (flow : FlowState) :
    (flowTouch detail socketId ts flow).1.socketId =
      if socketId ≠ 0 then socketId else flow.socketId := by
  have hmark := congrArg (fun mark => mark.1.2.2) (flowTouch_mark detail socketId ts flow)
  exact hmark

theorem flowTouch_id (detail : DetailEvent) (socketId ts : UInt64) (flow : FlowState) :
    (flowTouch detail socketId ts flow).1.id = flow.id :=
  congrArg Account.id (flowTouch_account detail socketId ts flow)

/-! ## The lookup after the attribution -/

/-- A flow of the table after an event in its scope was attributed to it. -/
structure Attributed (request : FlowRequest) (flow new : FlowState) : Prop where
  id : new.id = flow.id
  socketId : new.socketId = if request.socketId ≠ 0 then request.socketId else flow.socketId
  inScope : flow.inScope request.tupleId request.netns request.ts = true →
    new.inScope request.tupleId request.netns request.ts = true

theorem flowTouch_attributed (request : FlowRequest) (detail : DetailEvent) (flow : FlowState) :
    Attributed request flow (flowTouch detail request.socketId request.ts flow).1 :=
  ⟨flowTouch_id _ _ _ flow, flowTouch_socketId _ _ _ flow, flowTouch_inScope detail⟩

/-- Counting the packet at its anchor changes nothing that lookups read. -/
theorem Attributed.count {request : FlowRequest} {flow new : FlowState}
    (h : Attributed request flow new) (direction : Direction) :
    Attributed request flow (countPacket direction new) := by
  obtain ⟨hid, hsocket, hscope⟩ := h
  cases direction <;> exact ⟨hid, hsocket, hscope⟩

/-- The flow that a lookup found is found again after the event was attributed to it. -/
theorem lookup_attributed {flows : List FlowState} {request : FlowRequest} {place : Nat}
    {flow new : FlowState} (hfound : lookupOf flows request = ⟨some place, false⟩)
    (hflow : flows[place]? = some flow) (hnew : Attributed request flow new) :
    lookupOf (flows.set place new) request = ⟨some place, false⟩ := by
  rw [lookup_found_iff] at hfound ⊢
  rcases hfound with hexact | ⟨habsent, hcandidate⟩
  · -- the exact flow keeps its socket
    refine Or.inl (hexact.set ?_)
    obtain ⟨⟨entry, hentry, htest⟩, -⟩ := hexact
    obtain rfl : flow = entry := Option.some.inj (hflow.symm.trans hentry)
    rw [exactFor, Bool.and_eq_true] at htest ⊢
    refine ⟨?_, hnew.inScope htest.2⟩
    have hnamed := htest.1
    simp only [FlowState.isExact, Bool.and_eq_true, decide_eq_true_eq] at hnamed ⊢
    rw [hnew.socketId, if_pos hnamed.1]
    exact ⟨hnamed.1, rfl⟩
  · have hscope : flow.inScope request.tupleId request.netns request.ts = true := by
      obtain ⟨⟨entry, hentry, htest⟩, -⟩ := hcandidate
      obtain rfl : flow = entry := Option.some.inj (hflow.symm.trans hentry)
      rw [candidateFor, Bool.and_eq_true] at htest
      exact htest.2
    have hstill := hnew.inScope hscope
    by_cases hrequest : request.socketId = 0
    · -- an event without a socket leaves the candidate a candidate
      have hexact : exactFor request new = false := by
        simp [exactFor, FlowState.isExact, hrequest]
      refine Or.inr ⟨habsent.set_fail hexact, hcandidate.set ?_⟩
      rw [candidateFor, hstill]
      simp [FlowState.isCandidate, FlowState.isExact, hrequest]
    · -- the candidate takes over the socket of the event and becomes the exact flow
      refine Or.inl (habsent.set_pass hflow ?_)
      rw [exactFor, hstill, Bool.and_true]
      simp [FlowState.isExact, hnew.socketId, hrequest]

theorem lookup_opened {flows : List FlowState} {request : FlowRequest} {flow : FlowState}
    (hnothing : lookupOf flows request = ⟨none, false⟩) (htuple : flow.tupleId = request.tupleId)
    (hnetns : flow.netns = request.netns) (hsocket : flow.socketId = request.socketId)
    (hfirst : flow.firstTs = request.ts) (hactive : flow.active = true) :
    lookupOf (flows ++ [flow]) request = ⟨some flows.length, false⟩ := by
  rw [lookup_nothing_iff] at hnothing
  obtain ⟨hexacts, hcandidates⟩ := hnothing
  have hscope : flow.inScope request.tupleId request.netns request.ts = true := by
    simp [FlowState.inScope, htuple, hnetns, hfirst, hactive]
  rw [lookup_found_iff]
  by_cases hrequest : request.socketId = 0
  · have hexact : exactFor request flow = false := by
      simp [exactFor, FlowState.isExact, hrequest]
    refine Or.inr ⟨hexacts.append_fail hexact, hcandidates.append_pass ?_⟩
    rw [candidateFor, hscope]
    simp [FlowState.isCandidate, FlowState.isExact, hrequest]
  · refine Or.inl (hexacts.append_pass ?_)
    rw [exactFor, hscope]
    simp [FlowState.isExact, hsocket, hrequest]

/-! ## Opened flows -/

/-- The identity that `flow_create` gives to the next flow. -/
def newFlowId (state : State) (tupleId socketId : UInt64) (netns : UInt32) : UInt64 :=
  hashU64 (hashU32 (hashU64 tupleId socketId) netns) (state.flowSerial + 1)

def FlowState.span (flow : FlowState) : UInt64 × UInt64 × UInt64 :=
  (flow.id, flow.firstTs, flow.lastTs)

@[simp] theorem flowLinkSocket_span (flow : FlowState) (ts : UInt64) :
    (flowLinkSocket flow ts).1.span = flow.span := by
  unfold flowLinkSocket
  split <;> rfl

@[simp] theorem flowSetOwner_span (flow : FlowState) (detail : DetailEvent) (socketId : UInt64) :
    (flowSetOwner flow detail socketId).span = flow.span := by
  unfold flowSetOwner
  dsimp only
  repeat' split
  all_goals rfl

/-- What tells when the slice of a flow begins. -/
def FlowState.opening (flow : FlowState) : UInt64 × UInt64 :=
  (flow.id, flow.firstTs)

/-- Flows with the same times have begun at the same time. -/
theorem opening_of_span {flow new : FlowState} (h : new.span = flow.span) :
    new.opening = flow.opening :=
  congrArg (fun span => (span.1, span.2.1)) h

theorem flowTouch_opening (detail : DetailEvent) (socketId ts : UInt64) (flow : FlowState) :
    (flowTouch detail socketId ts flow).1.opening = flow.opening := by
  have hreach : (flow.reach ts).opening = flow.opening := by
    unfold FlowState.reach
    split <;> rfl
  refine (opening_of_span ?_).trans hreach
  unfold flowTouch
  rw [flowLinkSocket_span, flowSetOwner_span]

@[simp] theorem flowAssignDisplayIndex_span (state : State) (flow : FlowState) :
    (flowAssignDisplayIndex state flow).2.span = flow.span := by
  unfold flowAssignDisplayIndex
  repeat' split
  all_goals rfl

@[simp] theorem packetFill_span (detail : DetailEvent) (flow : FlowState) :
    (packetFill detail flow).span = flow.span := by
  unfold packetFill
  dsimp only
  split <;> rfl

/-- `flow_create` gives the next identity and the time of the event to a flow. -/
theorem flowCreate_span {state : State} {realloc : Bool} {tupleId socketId ts : UInt64}
    {netns : UInt32} {flow : FlowState}
    (h : (flowCreate state realloc tupleId socketId netns ts).2 = some flow) :
    flow.span = (newFlowId state tupleId socketId netns, ts, ts) := by
  unfold flowCreate at h
  dsimp only at h
  split at h
  · cases h
  · cases h
    rfl

/-- A flow is opened when there is room for it, and then it has the key of the event, the next
identity and the time of the event. -/
theorem flowOpen_spec (state : State) (realloc : Bool) (detail : DetailEvent)
    (tupleId socketId ts : UInt64) {fill : FlowState → FlowState}
    (hmark : ∀ flow, (fill flow).mark = flow.mark) (hspan : ∀ flow, (fill flow).span = flow.span) :
    (state.canAllocate realloc = false ∧
        (flowOpen state realloc detail tupleId socketId ts fill).1.flows = state.flows ∧
        (flowOpen state realloc detail tupleId socketId ts fill).2 = none) ∨
      (state.canAllocate realloc = true ∧ ∃ flow,
        (flowOpen state realloc detail tupleId socketId ts fill).1.flows = state.flows ++ [flow] ∧
        (flowOpen state realloc detail tupleId socketId ts fill).2 = some state.flows.length ∧
        flow.mark = ((tupleId, detail.netns, socketId), true) ∧
        flow.span = (newFlowId state tupleId socketId detail.netns, ts, ts)) := by
  have hflows := (flowCreate_frame state realloc tupleId socketId detail.netns ts).1
  have hspec := flowCreate_spec state realloc tupleId socketId detail.netns ts
  have hcreated := @flowCreate_span state realloc tupleId socketId ts detail.netns
  unfold flowOpen
  generalize flowCreate state realloc tupleId socketId detail.netns ts = created at *
  obtain ⟨created, entry⟩ := created
  dsimp only at hflows hspec hcreated ⊢
  rcases hspec with ⟨hfull, rfl⟩ | ⟨hroom, flow, rfl, hentryMark⟩
  · exact Or.inl ⟨hfull, hflows, rfl⟩
  · have hassigned := (flowAssignDisplayIndex_frame created (fill flow)).2.1
    rw [hflows] at hassigned
    refine Or.inr ⟨hroom, (flowEmitStart (flowSetOwner
      (flowAssignDisplayIndex created (fill flow)).2 detail socketId)).1, ?_, ?_, ?_, ?_⟩
    · show _ ++ _ = _
      rw [hassigned]
    · show some _ = _
      rw [hassigned]
    · refine (flowLinkSocket_mark _ _).trans ?_
      rw [flowSetOwner_mark, flowAssignDisplayIndex_mark, hmark, hentryMark]
      by_cases hsocket : socketId = 0 <;> simp [remark, hsocket]
    · refine (flowLinkSocket_span _ _).trans ?_
      rw [flowSetOwner_span, flowAssignDisplayIndex_span, hspan, hcreated rfl]

/-! ## Agreement -/

/-- The place of the flow that a second resolution of a packet finds. -/
def resolvePacket (session : Session) (state : State) (detail : DetailEvent)
    (trace : Trace) : Option Nat :=
  if !flowPacketSupported detail.pkt trace then none
  else
    match flowLookup state.flows (packetFlowId session.salt detail.pkt)
      (ownerSocketId session.salt detail) detail.netns detail.ts with
    | ⟨some flow, _⟩ => some flow
    | ⟨none, true⟩ => none
    | ⟨none, false⟩ =>
        if packetTraceTerminal trace then
          flowFindDestroyed state (packetFlowId session.salt detail.pkt)
            (ownerSocketId session.salt detail) detail.netns detail.ts
        else none

def State.flowIdAt (state : State) (place : Option Nat) : UInt64 :=
  ((place.bind (state.flows[·]?)).map FlowState.id).getD 0

theorem detailFlowId_packet {session : Session} {detail : DetailEvent} {trace : Trace}
    (htrace : session.getTrace detail.func = some trace) (state : State) :
    detailFlowId session state detail false =
      state.flowIdAt (resolvePacket session state detail trace) := by
  unfold detailFlowId resolvePacket State.flowIdAt
  simp only [htrace, Option.any_some, Bool.not_false, true_and, Bool.false_eq_true, if_false]
  cases hsupported : flowPacketSupported detail.pkt trace with
  | false => simp
  | true =>
      simp only [Bool.not_true, Bool.false_eq_true, if_false]
      generalize flowLookup state.flows (packetFlowId session.salt detail.pkt)
        (ownerSocketId session.salt detail) detail.netns detail.ts = found
      obtain ⟨flow, ambiguous⟩ := found
      cases flow <;> cases ambiguous <;> cases packetTraceTerminal trace <;> rfl

theorem resolvePacket_found {session : Session} {state : State} {detail : DetailEvent}
    {trace : Trace} {place : Nat} (hsupported : flowPacketSupported detail.pkt trace = true)
    (hfound : flowLookup state.flows (packetFlowId session.salt detail.pkt)
      (ownerSocketId session.salt detail) detail.netns detail.ts = ⟨some place, false⟩) :
    resolvePacket session state detail trace = some place := by
  unfold resolvePacket
  rw [hsupported, hfound]
  rfl

/-- A resolution whose lookup finds nothing, at a stage that does not end the packet. -/
theorem resolvePacket_nothing {session : Session} {state : State} {detail : DetailEvent}
    {trace : Trace} (hsupported : flowPacketSupported detail.pkt trace = true)
    (hterminal : packetTraceTerminal trace = false)
    (hnothing : flowLookup state.flows (packetFlowId session.salt detail.pkt)
      (ownerSocketId session.salt detail) detail.netns detail.ts = ⟨none, false⟩) :
    resolvePacket session state detail trace = none := by
  unfold resolvePacket
  rw [hsupported, hnothing, hterminal]
  rfl

theorem flowAnchor_flows (session : Session) (detail : DetailEvent) (trace : Trace)
    (state : State) (place : Nat) :
    (flowAnchor session detail trace (state, some place)).2 = some place ∧
      ((flowAnchor session detail trace (state, some place)).1.flows = state.flows ∨
        (flowAnchor session detail trace (state, some place)).1.flows =
          state.flows.modify place (countPacket detail.direction)) := by
  unfold flowAnchor
  dsimp only
  split
  · exact ⟨rfl, Or.inr rfl⟩
  · exact ⟨rfl, Or.inl rfl⟩

def packetLookup (session : Session) (state : State) (realloc : Bool)
    (detail : DetailEvent) : FlowRequest :=
  ⟨packetFlowId session.salt detail.pkt, ownerSocketId session.salt detail, detail.netns, detail.ts,
    state.canAllocate realloc⟩

theorem resolvePacket_opened {session : Session} {state : State} {realloc : Bool}
    {detail : DetailEvent} {trace : Trace}
    (hsupported : flowPacketSupported detail.pkt trace = true)
    (hterminal : packetTraceTerminal trace = false)
    (hnothing : lookupOf state.flows (packetLookup session state realloc detail) = ⟨none, false⟩) :
    let opened := flowAnchor session detail trace
      (flowOpen state realloc detail (packetFlowId session.salt detail.pkt)
        (ownerSocketId session.salt detail) detail.ts (packetFill detail))
    resolvePacket session opened.1 detail trace = opened.2 := by
  intro opened
  have hspec := flowOpen_spec state realloc detail (packetFlowId session.salt detail.pkt)
    (ownerSocketId session.salt detail) detail.ts (packetFill_mark detail) (packetFill_span detail)
  obtain ⟨result, hresult⟩ : ∃ result, result = flowOpen state realloc detail
    (packetFlowId session.salt detail.pkt) (ownerSocketId session.salt detail) detail.ts
    (packetFill detail) := ⟨_, rfl⟩
  show resolvePacket session opened.1 detail trace = opened.2
  have hopened : opened = flowAnchor session detail trace result := by rw [hresult]
  rw [← hresult] at hspec
  obtain ⟨after, place⟩ := result
  rcases hspec with ⟨-, hflows, hplace⟩ | ⟨-, flow, hflows, hplace, hmark, hspan⟩
  · -- no room for a flow
    dsimp only at hflows hplace
    rw [hopened, hplace]
    show resolvePacket session after detail trace = none
    refine resolvePacket_nothing hsupported hterminal ?_
    rw [hflows]
    exact hnothing
  · dsimp only at hflows hplace
    obtain ⟨hfinal, hcounted⟩ := flowAnchor_flows session detail trace after state.flows.length
    rw [hopened, hplace, hfinal]
    refine resolvePacket_found hsupported ?_
    simp only [FlowState.mark, FlowState.key, FlowState.span, Prod.mk.injEq] at hmark hspan
    obtain ⟨⟨htuple, hnetns, hsocket⟩, hactive⟩ := hmark
    obtain ⟨-, hfirst, -⟩ := hspan
    rcases hcounted with hsame | hmodified
    · rw [hsame, hflows]
      exact lookup_opened hnothing htuple hnetns hsocket hfirst hactive
    · have hcount : (state.flows ++ [flow]).modify state.flows.length
          (countPacket detail.direction) = state.flows ++ [countPacket detail.direction flow] := by
        rw [modify_some List.getElem?_concat_length, List.set_append_right _ _ (Nat.le_refl _),
          Nat.sub_self]
        rfl
      rw [hmodified, hflows, hcount]
      cases detail.direction <;>
        exact lookup_opened hnothing htuple hnetns hsocket hfirst hactive

/-- A packet attributed to a flow of the table is resolved to it. -/
theorem resolvePacket_touched {session : Session} {state : State} (realloc : Bool)
    {detail : DetailEvent} {trace : Trace} {place : Nat}
    (hsupported : flowPacketSupported detail.pkt trace = true)
    (hfound : lookupOf state.flows (packetLookup session state realloc detail) =
      ⟨some place, false⟩) :
    let touched := flowAnchor session detail trace
      (state.updateFlow place (flowTouch detail (ownerSocketId session.salt detail) detail.ts),
        some place)
    resolvePacket session touched.1 detail trace = touched.2 := by
  intro touched
  show resolvePacket session touched.1 detail trace = touched.2
  obtain ⟨flow, hflow⟩ : ∃ flow, state.flows[place]? = some flow := by
    rcases lookup_found_iff.mp hfound with ⟨⟨flow, hflow, -⟩, -⟩ | ⟨-, ⟨flow, hflow, -⟩, -⟩ <;>
      exact ⟨flow, hflow⟩
  obtain ⟨hfinal, hcounted⟩ := flowAnchor_flows session detail trace
    (state.updateFlow place (flowTouch detail (ownerSocketId session.salt detail) detail.ts)) place
  rw [hfinal]
  refine resolvePacket_found hsupported ?_
  have hnew := flowTouch_attributed (packetLookup session state realloc detail) detail flow
  rcases hcounted with hsame | hmodified
  · rw [hsame, updateFlow_some hflow]
    exact lookup_attributed hfound hflow hnew
  · rw [hmodified, updateFlow_some hflow]
    show lookupOf ((state.flows.set place _).modify place _)
      (packetLookup session state realloc detail) = _
    rw [modify_some (getElem?_set_same hflow), List.set_set]
    exact lookup_attributed hfound hflow (hnew.count detail.direction)

/-- The second resolution of a packet finds the place that the first one attributed it to. -/
theorem resolvePacket_after (session : Session) (state : State) (realloc : Bool)
    (detail : DetailEvent) (trace : Trace) :
    resolvePacket session (flowFromPacket session state realloc detail trace).1 detail trace =
      (flowFromPacket session state realloc detail trace).2 := by
  have hopened := @resolvePacket_opened session state realloc detail trace
  have htouched := @resolvePacket_touched session state realloc detail trace
  have hambiguous := @lookup_ambiguous state.flows (packetLookup session state realloc detail)
  unfold flowFromPacket
  dsimp only
  cases hsupported : flowPacketSupported detail.pkt trace with
  | false => simp [resolvePacket, hsupported]
  | true =>
      simp only [Bool.not_true, Bool.false_eq_true, if_false]
      have hlookup : flowLookup state.flows (packetFlowId session.salt detail.pkt)
          (ownerSocketId session.salt detail) detail.netns detail.ts =
            lookupOf state.flows (packetLookup session state realloc detail) := rfl
      rcases hfound : lookupOf state.flows (packetLookup session state realloc detail) with
        ⟨found, ambiguous⟩
      rw [hfound] at hlookup
      rw [hlookup]
      cases found with
      | none =>
          cases ambiguous with
          | true =>
              -- several flows cover the packet
              show resolvePacket session state detail trace = none
              simp [resolvePacket, hsupported, hlookup]
          | false =>
              dsimp only
              cases hterminal : packetTraceTerminal trace with
              | true =>
                  simp only [if_true]
                  simp [resolvePacket, hsupported, hlookup, hterminal]
              | false =>
                  simp only [Bool.false_eq_true, if_false]
                  exact hopened hsupported hterminal hfound
      | some place =>
          obtain rfl := hambiguous hfound
          dsimp only
          cases packetTraceTerminal trace with
          | true =>
              simp only [if_true]
              exact resolvePacket_found hsupported hlookup
          | false =>
              simp only [Bool.false_eq_true, if_false]
              exact htouched hsupported hfound

/-- What a packet is attributed to, read off the state before the packet. -/
def attributedId (session : Session) (state : State) (realloc : Bool) (detail : DetailEvent)
    (trace : Trace) : Option UInt64 :=
  let tupleId := packetFlowId session.salt detail.pkt
  let socketId := ownerSocketId session.salt detail
  if !flowPacketSupported detail.pkt trace then none
  else
    match flowLookup state.flows tupleId socketId detail.netns detail.ts with
    | ⟨some flow, _⟩ => (state.flows[flow]?).map FlowState.id
    | ⟨none, true⟩ => none
    | ⟨none, false⟩ =>
        if packetTraceTerminal trace then
          ((flowFindDestroyed state tupleId socketId detail.netns detail.ts).bind
            (state.flows[·]?)).map FlowState.id
        else if state.canAllocate realloc then some (newFlowId state tupleId socketId detail.netns)
        else none

/-- The flow a resolution finds has an entry, with the given identity if there is one. -/
def Identified (flows : List FlowState) (place : Option Nat) (id : Option UInt64) : Prop :=
  (place = none ∧ id = none) ∨
    ∃ at_ flow, place = some at_ ∧ flows[at_]? = some flow ∧ id = some flow.id

theorem flowUnique_found {state : State} {found : FlowState → Bool} {place : Nat}
    (h : flowUnique state found = some place) : ∃ flow, state.flows[place]? = some flow := by
  unfold flowUnique at h
  split at h
  case h_1 entry hone =>
    cases h
    have hmem : entry ∈ state.flows.zipIdx.filter fun entry => found entry.1 := by
      rw [hone]
      exact List.mem_cons_self
    exact ⟨entry.1, (mem_zipIdx_filter hmem).1⟩
  case h_2 => cases h

theorem flowFindDestroyed_found {state : State} {tupleId socketId ts : UInt64} {netns : UInt32}
    {place : Nat} (h : flowFindDestroyed state tupleId socketId netns ts = some place) :
    ∃ flow, state.flows[place]? = some flow := by
  unfold flowFindDestroyed at h
  split at h
  · cases h
  · exact flowUnique_found h

theorem lookup_found_flow {flows : List FlowState} {request : FlowRequest} {place : Nat}
    (h : lookupOf flows request = ⟨some place, false⟩) : ∃ flow, flows[place]? = some flow := by
  rcases lookup_found_iff.mp h with ⟨⟨flow, hflow, -⟩, -⟩ | ⟨-, ⟨flow, hflow, -⟩, -⟩ <;>
    exact ⟨flow, hflow⟩

/-- Counting a packet keeps the identities of the flows. -/
theorem flowAnchor_identified (session : Session) (detail : DetailEvent) (trace : Trace)
    {state : State} {place : Nat} {flow : FlowState} (hflow : state.flows[place]? = some flow) :
    Identified (flowAnchor session detail trace (state, some place)).1.flows
      (flowAnchor session detail trace (state, some place)).2 (some flow.id) := by
  obtain ⟨hplace, hsame | hcounted⟩ := flowAnchor_flows session detail trace state place
  · exact Or.inr ⟨place, flow, hplace, hsame ▸ hflow, rfl⟩
  · refine Or.inr ⟨place, countPacket detail.direction flow, hplace, ?_, ?_⟩
    · rw [hcounted, modify_some hflow]
      exact getElem?_set_same hflow
    · cases detail.direction <;> rfl

/-- `flow_from_packet` attributes a packet to a flow with the identity read off the state before. -/
theorem attributedId_spec (session : Session) (state : State) (realloc : Bool)
    (detail : DetailEvent) (trace : Trace) :
    Identified (flowFromPacket session state realloc detail trace).1.flows
      (flowFromPacket session state realloc detail trace).2
      (attributedId session state realloc detail trace) := by
  have hambiguous := @lookup_ambiguous state.flows (packetLookup session state realloc detail)
  have hspec := flowOpen_spec state realloc detail (packetFlowId session.salt detail.pkt)
    (ownerSocketId session.salt detail) detail.ts (packetFill_mark detail) (packetFill_span detail)
  unfold flowFromPacket attributedId
  dsimp only
  cases flowPacketSupported detail.pkt trace with
  | false => exact Or.inl ⟨rfl, rfl⟩
  | true =>
      simp only [Bool.not_true, Bool.false_eq_true, if_false]
      have hlookup : flowLookup state.flows (packetFlowId session.salt detail.pkt)
          (ownerSocketId session.salt detail) detail.netns detail.ts =
            lookupOf state.flows (packetLookup session state realloc detail) := rfl
      rcases hfound : lookupOf state.flows (packetLookup session state realloc detail) with
        ⟨found, ambiguous⟩
      rw [hfound] at hlookup
      rw [hlookup]
      cases found with
      | none =>
          cases ambiguous with
          | true => exact Or.inl ⟨rfl, rfl⟩
          | false =>
              dsimp only
              cases packetTraceTerminal trace with
              | true =>
                  simp only [if_true]
                  cases hplace : flowFindDestroyed state (packetFlowId session.salt detail.pkt)
                    (ownerSocketId session.salt detail) detail.netns detail.ts with
                  | none => exact Or.inl ⟨rfl, rfl⟩
                  | some place =>
                      obtain ⟨flow, hflow⟩ := flowFindDestroyed_found hplace
                      refine Or.inr ⟨place, flow, rfl, hflow, ?_⟩
                      rw [Option.bind_some, hflow]
                      rfl
              | false =>
                  simp only [Bool.false_eq_true, if_false]
                  generalize flowOpen state realloc detail (packetFlowId session.salt detail.pkt)
                    (ownerSocketId session.salt detail) detail.ts (packetFill detail) = result at *
                  obtain ⟨after, place⟩ := result
                  rcases hspec with ⟨hfull, -, rfl⟩ | ⟨hroom, flow, hflows, rfl, -, hspan⟩
                  · rw [hfull]
                    exact Or.inl ⟨rfl, rfl⟩
                  · have hid : newFlowId state (packetFlowId session.salt detail.pkt)
                        (ownerSocketId session.salt detail) detail.netns = flow.id :=
                      (congrArg Prod.fst hspan).symm
                    rw [if_pos hroom, hid]
                    refine flowAnchor_identified session detail trace ?_
                    dsimp only at hflows
                    rw [hflows]
                    exact List.getElem?_concat_length
      | some place =>
          obtain rfl := hambiguous hfound
          obtain ⟨flow, hflow⟩ := lookup_found_flow hfound
          dsimp only
          rw [hflow]
          cases packetTraceTerminal trace with
          | true => exact Or.inr ⟨place, flow, rfl, hflow, rfl⟩
          | false =>
              simp only [Bool.false_eq_true, if_false, Option.map_some]
              rw [← flowTouch_id detail (ownerSocketId session.salt detail) detail.ts flow]
              refine flowAnchor_identified session detail trace ?_
              rw [updateFlow_some hflow]
              exact getElem?_set_same hflow

/-- The resolutions of one packet record agree: the record and the native event name the flow that
the packet was attributed to, the link to a call names it too, and 0 stands for no flow. -/
structure ResolutionsAgree (session : Session) (state : State) (realloc : Realloc)
    (detail : DetailEvent) (trace : Trace) : Prop where
  recomputed : detailFlowId session (packetEvent session state realloc detail trace) detail false =
    (flowFromPacket session state realloc.flow detail trace).1.flowIdAt
      (flowFromPacket session state realloc.flow detail trace).2
  linked : ∀ link : PacketIoLink, Record.packetIoLink link ∈
      (packetEvent session state realloc detail trace).out.drop
        (flowFromPacket session state realloc.flow detail trace).1.out.length →
    link.flowId = detailFlowId session (packetEvent session state realloc detail trace) detail false
  none : detailFlowId session (packetEvent session state realloc detail trace) detail false = 0 ↔
    (flowFromPacket session state realloc.flow detail trace).2 = none

theorem exportPacketIoLink_flows (session : Session) (state : State) (detail : DetailEvent)
    (flow : Option FlowState) :
    (exportPacketIoLink session state detail flow).flows = state.flows := by
  unfold exportPacketIoLink
  split <;> rfl

/-- Resolutions read nothing but the flows. -/
theorem resolvePacket_flows {session : Session} {state after : State}
    (h : after.flows = state.flows) (detail : DetailEvent) (trace : Trace) :
    resolvePacket session after detail trace = resolvePacket session state detail trace := by
  unfold resolvePacket flowFindDestroyed flowUnique
  rw [h]

theorem exportPacketIoLink_records {session : Session} {state : State} {detail : DetailEvent}
    {flow : Option FlowState} {link : PacketIoLink} (h : Record.packetIoLink link ∈
      (exportPacketIoLink session state detail flow).out.drop state.out.length) :
    link.flowId = (flow.map FlowState.id).getD 0 := by
  unfold exportPacketIoLink at h
  split at h
  · rw [List.drop_length] at h
    cases h
  · rw [List.drop_left] at h
    obtain rfl : link = packetIoLinkRecord session state detail flow := by simpa using h
    rfl

/-- The probe of a visible packet record. -/
theorem branch_packet_trace {session : Session} {sample : Sample} {trace : Trace}
    (h : branch session sample = .packet trace) :
    session.getTrace sample.detail.func = some trace := by
  unfold branch visibleBranch at h
  split at h
  case h_1 => cases h
  case h_2 found hfound =>
    rw [hfound]
    repeat' split at h
    all_goals cases h
    rfl

/-- For every visible packet record, in any state, the two resolutions of the packet agree exactly
if the flow it is attributed to has an identity other than 0. -/
theorem packet_resolutions_agree_iff {session : Session} {sample : Sample} {trace : Trace}
    (hbranch : branch session sample = .packet trace) (state : State) (realloc : Realloc) :
    ResolutionsAgree session state realloc sample.detail trace ↔
      attributedId session state realloc.flow sample.detail trace ≠ some 0 := by
  have hidentified := attributedId_spec session state realloc.flow sample.detail trace
  have hfinal : detailFlowId session (packetEvent session state realloc sample.detail trace)
      sample.detail false =
        (flowFromPacket session state realloc.flow sample.detail trace).1.flowIdAt
          (flowFromPacket session state realloc.flow sample.detail trace).2 := by
    have hafter := resolvePacket_after session state realloc.flow sample.detail trace
    have hflows : (packetEvent session state realloc sample.detail trace).flows =
        (flowFromPacket session state realloc.flow sample.detail trace).1.flows :=
      exportPacketIoLink_flows session _ sample.detail _
    rw [detailFlowId_packet (branch_packet_trace hbranch), resolvePacket_flows hflows, hafter]
    unfold State.flowIdAt
    rw [hflows]
  have hlinked : ∀ link : PacketIoLink, Record.packetIoLink link ∈
      (packetEvent session state realloc sample.detail trace).out.drop
        (flowFromPacket session state realloc.flow sample.detail trace).1.out.length →
      link.flowId =
        detailFlowId session (packetEvent session state realloc sample.detail trace)
          sample.detail false := by
    intro link hlink
    rw [hfinal]
    exact exportPacketIoLink_records hlink
  have hvalue : detailFlowId session (packetEvent session state realloc sample.detail trace)
      sample.detail false =
        (attributedId session state realloc.flow sample.detail trace).getD 0 := by
    rw [hfinal]
    unfold State.flowIdAt
    rcases hidentified with ⟨hplace, hid⟩ | ⟨place, flow, hplace, hflow, hid⟩
    · rw [hplace, hid]
      rfl
    · rw [hplace, hid, Option.bind_some, hflow]
      rfl
  constructor
  · intro hagree hzero
    rw [hzero] at hvalue hidentified
    rcases hidentified with ⟨-, hid⟩ | ⟨place, flow, hplace, -, -⟩
    · cases hid
    · have hnone := hagree.none.mp hvalue
      rw [hplace] at hnone
      cases hnone
  · intro hnonzero
    refine ⟨hfinal, hlinked, ?_⟩
    rw [hvalue]
    rcases hidentified with ⟨hplace, hid⟩ | ⟨place, flow, hplace, -, hid⟩
    · rw [hplace, hid]
      exact iff_of_true rfl rfl
    · rw [hplace, hid]
      refine iff_of_false (fun hzero => hnonzero ?_) (by simp)
      rw [hid]
      exact congrArg some hzero

/-- The packet record of `smallInput`, without an owner. -/
def ownerlessDetail : DetailEvent :=
  let endpoints : Endpoints := ⟨[10, 0, 0, 1, 10, 0, 0, 2], ethPIp, ipprotoTcp, 0x5000, 0xBB01⟩
  { (default : DetailEvent) with
    metaType := .func
    key := 1
    keyGeneration := 1
    ts := 100
    pkt := endpoints
    ske := endpoints
    tid := 7
    tgid := 7
    direction := .tx }

/-- A capture whose salt hashes the first flow of `ownerlessDetail` to 0. -/
def zeroSession : Session :=
  { smallSession with salt := 5358429513722993013 }

/-- In an ordinary session the resolutions of the packet agree. -/
theorem packet_resolutions_agree_small :
    ResolutionsAgree smallSession State.init ⟨true, true⟩ ownerlessDetail
      ⟨"ip_output", false, false, false, false⟩ :=
  (@packet_resolutions_agree_iff smallSession ⟨ownerlessDetail, 232, []⟩ _ (by decide +kernel)
    State.init ⟨true, true⟩).mpr (by decide +kernel)

/-- A flow whose identity is 0 is attributed the packet, and the record says that there is none. -/
theorem zero_flow_read_as_none :
    branch zeroSession ⟨ownerlessDetail, 232, []⟩ =
        .packet ⟨"ip_output", false, false, false, false⟩ ∧
      ¬ ResolutionsAgree zeroSession (reached zeroSession []) ⟨true, true⟩ ownerlessDetail
        ⟨"ip_output", false, false, false, false⟩ := by
  refine ⟨by decide +kernel, fun hagree => ?_⟩
  have hzero : detailFlowId zeroSession (packetEvent zeroSession (reached zeroSession [])
      ⟨true, true⟩ ownerlessDetail ⟨"ip_output", false, false, false, false⟩) ownerlessDetail
        false = 0 := by decide +kernel
  have hflow : (flowFromPacket zeroSession (reached zeroSession []) true ownerlessDetail
      ⟨"ip_output", false, false, false, false⟩).2 ≠ none := by decide +kernel
  exact hflow (hagree.none.mp hzero)

end Anettrace.Export
