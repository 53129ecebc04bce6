import Anettrace.Export.Books

/-!
# Flow functions as moves

Each function on flows is a sequence of moves on the books, whatever the calls in progress are, and
leaves the calls and the syscalls alone.
-/

namespace Anettrace.Export

open Library.Labelled Library.Table

def State.ledger (state : State) (calls : List PendingIo) : Books :=
  ⟨state.flows.map FlowState.account, calls, state.out⟩

/-- A change of the flows that is a sequence of moves. -/
structure FlowMoves (before : State) (labels : List Label) (after : State) : Prop where
  moves : ∀ calls, Moves Move (before.ledger calls) labels (after.ledger calls)
  ios : after.ios = before.ios
  syscalls : after.syscalls = before.syscalls

theorem FlowMoves.refl (state : State) : FlowMoves state [] state :=
  ⟨fun _ => Moves.refl _, rfl, rfl⟩

theorem FlowMoves.trans {first second third : State} {labels more : List Label}
    (h : FlowMoves first labels second) (hnext : FlowMoves second more third) :
    FlowMoves first (labels ++ more) third :=
  ⟨fun calls => (h.moves calls).trans (hnext.moves calls), hnext.ios.trans h.ios,
    hnext.syscalls.trans h.syscalls⟩

theorem FlowMoves.silent_then {first second third : State} {labels : List Label}
    (h : FlowMoves first [] second) (hnext : FlowMoves second labels third) :
    FlowMoves first labels third := by
  have hall := h.trans hnext
  rwa [List.nil_append] at hall

/-- Changes of a state that the books do not see. -/
theorem FlowMoves.of_eq {before after : State} (hflows : after.flows = before.flows)
    (hout : after.out = before.out) (hios : after.ios = before.ios)
    (hsyscalls : after.syscalls = before.syscalls) : FlowMoves before [] after := by
  refine ⟨fun calls => ?_, hios, hsyscalls⟩
  have heq : after.ledger calls = before.ledger calls := by
    simp only [State.ledger, hflows, hout]
  rw [heq]
  exact Moves.refl _

theorem FlowMoves.books {before after : State} {labels : List Label}
    (h : FlowMoves before labels after) : Moves Move before.books labels after.books := by
  have hmoves := h.moves before.ios
  rw [← h.ios] at hmoves
  rw [show before.books = before.ledger after.ios by rw [h.ios]; rfl]
  exact hmoves

def AllLinks (records : List Record) : Prop :=
  ∀ record ∈ records, ∃ fields, record = .socketFlowLink fields

theorem moves_links (books : Books) {records : List Record} (h : AllLinks records) :
    Moves Move books [] { books with out := books.out ++ records } := by
  induction records generalizing books with
  | nil =>
      rw [List.append_nil]
      exact Moves.refl books
  | cons record rest ih =>
      obtain ⟨fields, rfl⟩ := h record List.mem_cons_self
      have hfirst : Move books [] { books with out := books.out ++ [.socketFlowLink fields] } :=
        Move.note fields
      have hrest := ih { books with out := books.out ++ [.socketFlowLink fields] }
        fun other hother => h other (List.mem_cons_of_mem _ hother)
      have hall := (Moves.single hfirst).silent_then hrest
      simpa using hall

/-! ## Entries -/

@[simp] theorem flowLinkSocket_account (flow : FlowState) (ts : UInt64) :
    (flowLinkSocket flow ts).1.account = flow.account := by
  unfold flowLinkSocket
  split <;> rfl

theorem flowLinkSocket_links (flow : FlowState) (ts : UInt64) :
    AllLinks (flowLinkSocket flow ts).2 := by
  unfold flowLinkSocket AllLinks
  split
  · simp
  · simp

@[simp] theorem flowSetOwner_account (flow : FlowState) (detail : DetailEvent)
    (socketId : UInt64) : (flowSetOwner flow detail socketId).account = flow.account := by
  unfold flowSetOwner
  dsimp only
  repeat' split
  all_goals rfl

@[simp] theorem reach_account (flow : FlowState) (ts : UInt64) :
    (flow.reach ts).account = flow.account := by
  unfold FlowState.reach
  split <;> rfl

@[simp] theorem flowTouch_account (detail : DetailEvent) (socketId ts : UInt64)
    (flow : FlowState) : (flowTouch detail socketId ts flow).1.account = flow.account := by
  unfold flowTouch
  rw [flowLinkSocket_account, flowSetOwner_account, reach_account]

theorem flowTouch_links (detail : DetailEvent) (socketId ts : UInt64) (flow : FlowState) :
    AllLinks (flowTouch detail socketId ts flow).2 :=
  flowLinkSocket_links _ _

@[simp] theorem socketFill_account (detail : DetailEvent) (flow : FlowState) :
    (socketFill detail flow).account = flow.account := rfl

@[simp] theorem packetFill_account (detail : DetailEvent) (flow : FlowState) :
    (packetFill detail flow).account = flow.account := by
  unfold packetFill
  dsimp only
  split <;> rfl

@[simp] theorem countPacket_account (direction : Direction) (flow : FlowState) :
    (countPacket direction flow).account = flow.account.count direction := by
  cases direction <;> rfl

/-- A display index is not part of an account, and its counter is not part of the books. -/
theorem flowAssignDisplayIndex_frame (state : State) (flow : FlowState) :
    (flowAssignDisplayIndex state flow).2.account = flow.account ∧
      (flowAssignDisplayIndex state flow).1.flows = state.flows ∧
      (flowAssignDisplayIndex state flow).1.out = state.out ∧
      (flowAssignDisplayIndex state flow).1.ios = state.ios ∧
      (flowAssignDisplayIndex state flow).1.syscalls = state.syscalls := by
  unfold flowAssignDisplayIndex
  repeat' split
  all_goals exact ⟨rfl, rfl, rfl, rfl, rfl⟩

theorem flowEmitStart_spec (flow : FlowState) :
    (flowEmitStart flow).1.account = flow.account ∧
      ∃ links start, (flowEmitStart flow).2 = links ++ [.flowStart start] ∧ AllLinks links ∧
        start.flowId = flow.id := by
  have haccount := flowLinkSocket_account flow flow.firstTs
  refine ⟨haccount, _, _, rfl, flowLinkSocket_links flow flow.firstTs, ?_⟩
  exact congrArg Account.id haccount

theorem flowFinish_active {flow : FlowState} (hactive : flow.active = true) (endTs : UInt64)
    (reason : EndReason) (incomplete : Bool) :
    (flowFinish endTs reason incomplete flow).1.account = flow.account.ended ∧
      ∃ record, (flowFinish endTs reason incomplete flow).2 = [.flowEnd record] ∧
        flow.account.Reports record := by
  unfold flowFinish
  rw [if_neg (by simp [hactive])]
  exact ⟨rfl, _, rfl, rfl, rfl, rfl, rfl, rfl⟩

theorem flowFinish_inactive {flow : FlowState} (hactive : flow.active = false) (endTs : UInt64)
    (reason : EndReason) (incomplete : Bool) :
    flowFinish endTs reason incomplete flow = (flow, []) := by
  unfold flowFinish
  rw [if_pos (by simp [hactive])]

/-! ## The table -/

theorem updateFlow_none {state : State} {place : Nat} (h : state.flows[place]? = none)
    (change : FlowState → FlowState × List Record) : state.updateFlow place change = state := by
  unfold State.updateFlow
  rw [h]

theorem updateFlow_some {state : State} {place : Nat} {flow : FlowState}
    (h : state.flows[place]? = some flow) (change : FlowState → FlowState × List Record) :
    state.updateFlow place change =
      { state with
        flows := state.flows.set place (change flow).1
        out := state.out ++ (change flow).2 } := by
  unfold State.updateFlow
  rw [h]

theorem updateFlow_silent (state : State) (place : Nat)
    {change : FlowState → FlowState × List Record}
    (haccount : ∀ flow, (change flow).1.account = flow.account)
    (hlinks : ∀ flow, AllLinks (change flow).2) :
    FlowMoves state [] (state.updateFlow place change) := by
  cases hflow : state.flows[place]? with
  | none =>
      rw [updateFlow_none hflow]
      exact FlowMoves.refl state
  | some flow =>
      rw [updateFlow_some hflow]
      refine ⟨fun calls => ?_, rfl, rfl⟩
      have hmap := map_set FlowState.account hflow (haccount flow)
      have hmoves := moves_links (state.ledger calls) (hlinks flow)
      simpa only [State.ledger, hmap] using hmoves

def endLabels (records : List FlowEnd) : List Label :=
  records.map Label.ended

theorem updateFlow_finish (state : State) (place : Nat) (test : FlowState → Bool)
    (endTs : FlowState → UInt64) (reason : EndReason) (incomplete : Bool) :
    ∃ records, FlowMoves state (endLabels records)
      (state.updateFlow place fun flow =>
        if test flow then flowFinish (endTs flow) reason incomplete flow else (flow, [])) := by
  cases hflow : state.flows[place]? with
  | none =>
      rw [updateFlow_none hflow]
      exact ⟨[], FlowMoves.refl state⟩
  | some flow =>
      rw [updateFlow_some hflow]
      have hset := set_same hflow
      split
      case isFalse =>
        rw [hset, List.append_nil]
        exact ⟨[], FlowMoves.refl state⟩
      case isTrue =>
        cases hactive : flow.active with
        | false =>
            rw [flowFinish_inactive hactive, hset, List.append_nil]
            exact ⟨[], FlowMoves.refl state⟩
        | true =>
            obtain ⟨haccount, record, hrecord, hreports⟩ :=
              flowFinish_active hactive (endTs flow) reason incomplete
            refine ⟨[record], fun calls => ?_, rfl, rfl⟩
            have hplace : (state.ledger calls).accounts[place]? = some flow.account := by
              simp only [State.ledger, List.getElem?_map, hflow, Option.map_some]
            have hmove : Move (state.ledger calls) _ _ := Move.endFlow hplace hactive hreports
            have hmoves := Moves.single hmove
            simpa only [State.ledger, hrecord, List.map_set, haccount, endLabels, List.map_cons,
              List.map_nil] using hmoves

theorem finishFlows_moves (state : State) (test : FlowState → Bool)
    (endTs : FlowState → UInt64) (reason : EndReason) (incomplete : Bool) :
    ∃ records, FlowMoves state (endLabels records)
      (finishFlows state test fun flow => flowFinish (endTs flow) reason incomplete flow) := by
  unfold finishFlows
  generalize List.range state.flows.length = places
  induction places generalizing state with
  | nil => exact ⟨[], FlowMoves.refl state⟩
  | cons place rest ih =>
      rw [List.foldl_cons]
      obtain ⟨first, hfirst⟩ := updateFlow_finish state place test endTs reason incomplete
      obtain ⟨others, hothers⟩ := ih (state.updateFlow place fun flow =>
        if test flow then flowFinish (endTs flow) reason incomplete flow else (flow, []))
      refine ⟨first ++ others, ?_⟩
      rw [endLabels, List.map_append]
      exact hfirst.trans hothers

/-! ## Creation and attribution -/

/-- `flow_create` changes its counters only, and hands out an entry without traffic. -/
theorem flowCreate_frame (state : State) (realloc : Bool) (tupleId socketId : UInt64)
    (netns : UInt32) (ts : UInt64) :
    (flowCreate state realloc tupleId socketId netns ts).1.flows = state.flows ∧
      (flowCreate state realloc tupleId socketId netns ts).1.out = state.out ∧
      (flowCreate state realloc tupleId socketId netns ts).1.ios = state.ios ∧
      (flowCreate state realloc tupleId socketId netns ts).1.syscalls = state.syscalls ∧
      ∀ flow ∈ (flowCreate state realloc tupleId socketId netns ts).2,
        flow.account = Account.fresh flow.id := by
  unfold flowCreate
  dsimp only
  split
  · exact ⟨rfl, rfl, rfl, rfl, by simp⟩
  · refine ⟨rfl, rfl, rfl, rfl, ?_⟩
    intro flow hflow
    cases hflow
    rfl

theorem flowOpen_moves (state : State) (realloc : Bool) (detail : DetailEvent)
    (tupleId socketId ts : UInt64) {fill : FlowState → FlowState}
    (hfill : ∀ flow, (fill flow).account = flow.account) :
    FlowMoves state [] (flowOpen state realloc detail tupleId socketId ts fill).1 := by
  obtain ⟨hflows, hout, hios, hsyscalls, hfresh⟩ :=
    flowCreate_frame state realloc tupleId socketId detail.netns ts
  unfold flowOpen
  generalize flowCreate state realloc tupleId socketId detail.netns ts = created at *
  obtain ⟨created, entry⟩ := created
  cases entry with
  | none => exact FlowMoves.of_eq hflows hout hios hsyscalls
  | some flow =>
      obtain ⟨hindex, hflows', hout', hios', hsyscalls'⟩ :=
        flowAssignDisplayIndex_frame created (fill flow)
      dsimp only at hflows hout hios hsyscalls hfresh ⊢
      generalize flowAssignDisplayIndex created (fill flow) = assigned at *
      obtain ⟨haccount, links, start, hrecords, hlinks, hid⟩ :=
        flowEmitStart_spec (flowSetOwner assigned.2 detail socketId)
      have hsame : (flowSetOwner assigned.2 detail socketId).account = flow.account := by
        rw [flowSetOwner_account, hindex, hfill]
      have hopened : (flowEmitStart (flowSetOwner assigned.2 detail socketId)).1.account =
          Account.fresh start.flowId := by
        rw [haccount, hsame, hfresh flow rfl, hid]
        exact congrArg Account.fresh (congrArg Account.id hsame).symm
      refine ⟨fun calls => ?_, hios'.trans hios, hsyscalls'.trans hsyscalls⟩
      have hstart : Move
          { (state.ledger calls) with out := (state.ledger calls).out ++ links } [] _ :=
        Move.openFlow start
      have hmoves := (moves_links (state.ledger calls) hlinks).then_silent (Moves.single hstart)
      simpa [State.ledger, hflows', hflows, hout', hout, hrecords, hopened] using hmoves

theorem flowFromSocket_moves (session : Session) (state : State) (realloc : Bool)
    (detail : DetailEvent) (ts : UInt64) :
    FlowMoves state [] (flowFromSocket session state realloc detail ts).1 := by
  unfold flowFromSocket
  dsimp only
  split
  case isTrue => exact FlowMoves.refl state
  case isFalse =>
    split
    · exact FlowMoves.refl state
    · exact flowOpen_moves state realloc detail _ _ ts (socketFill_account detail)
    · exact updateFlow_silent state _ (flowTouch_account detail _ ts)
        (flowTouch_links detail _ ts)

def anchorLabels (anchors : List (UInt64 × Direction)) : List Label :=
  anchors.map fun anchor => .anchored anchor.1 anchor.2

/-- The end of `flow_from_packet` counts the packet on the flow it returns. -/
theorem flowAnchor_moves (session : Session) (detail : DetailEvent) (trace : Trace)
    (result : State × Option Nat) :
    FlowMoves result.1
        (anchorLabels (anchoredIn session detail trace result.1.flows result.2))
        (flowAnchor session detail trace result).1 ∧
      anchoredIn session detail trace (flowAnchor session detail trace result).1.flows
          (flowAnchor session detail trace result).2 =
        anchoredIn session detail trace result.1.flows result.2 := by
  obtain ⟨state, found⟩ := result
  unfold flowAnchor anchoredIn
  dsimp only
  cases found with
  | none =>
      split <;> exact ⟨FlowMoves.refl state, rfl⟩
  | some place =>
      dsimp only
      by_cases hanchor : flowPacketAnchor session.toTraceContext trace detail.pkt.protoL4
          detail.direction = true
      · simp only [if_pos hanchor, Option.bind_some, State.setFlow]
        cases hflow : state.flows[place]? with
        | none =>
            rw [modify_none hflow, hflow]
            exact ⟨FlowMoves.of_eq rfl rfl rfl rfl, rfl⟩
        | some flow =>
            rw [modify_some hflow, getElem?_set_same hflow]
            have hid : (countPacket detail.direction flow).id = flow.id := by
              cases detail.direction <;> rfl
            refine ⟨⟨fun calls => ?_, rfl, rfl⟩, by simp [hid]⟩
            have hplace : (state.ledger calls).accounts[place]? = some flow.account := by
              simp only [State.ledger, List.getElem?_map, hflow, Option.map_some]
            have hmove : Move (state.ledger calls) _ _ :=
              @Move.anchor _ _ _ detail.direction hplace
            have hmoves := Moves.single hmove
            simp only [State.ledger, List.map_set, countPacket_account]
            exact hmoves
      · simp only [if_neg hanchor]
        exact ⟨FlowMoves.refl state, trivial⟩

/-- A record of a packet's end changes nothing. -/
theorem flowFromPacket_terminal (session : Session) (state : State) (realloc : Bool)
    (detail : DetailEvent) {trace : Trace} (hterminal : packetTraceTerminal trace = true) :
    (flowFromPacket session state realloc detail trace).1 = state := by
  unfold flowFromPacket
  simp only [hterminal, if_true]
  repeat' split
  all_goals rfl

theorem flowFromPacket_moves (session : Session) (state : State) (realloc : Realloc)
    (detail : DetailEvent) (trace : Trace) :
    FlowMoves state (anchorLabels (anchored session state realloc detail trace))
      (flowFromPacket session state realloc.flow detail trace).1 := by
  have hnone (flows : List FlowState) : anchoredIn session detail trace flows none = [] := by
    unfold anchoredIn
    split <;> rfl
  unfold anchored
  dsimp only
  by_cases hterminal : packetTraceTerminal trace = true
  · rw [if_pos hterminal, flowFromPacket_terminal session state _ detail hterminal]
    exact FlowMoves.refl state
  · rw [if_neg hterminal]
    unfold flowFromPacket
    simp only [if_neg hterminal]
    split
    case isTrue =>
      rw [hnone]
      exact FlowMoves.refl state
    case isFalse =>
      split
      · rw [hnone]
        exact FlowMoves.refl state
      · obtain ⟨hmoves, hsame⟩ := flowAnchor_moves session detail trace _
        rw [hsame]
        refine FlowMoves.silent_then ?_ hmoves
        split
        · exact flowOpen_moves state _ detail _ _ _ (packetFill_account detail)
        · exact updateFlow_silent state _ (flowTouch_account detail _ _)
            (flowTouch_links detail _ _)

end Anettrace.Export
