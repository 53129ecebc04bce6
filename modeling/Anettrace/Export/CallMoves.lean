import Anettrace.Export.FlowMoves

/-!
# Protocol calls as moves

Sound books make the end of a call one move: its start is already recorded, and the flow it credits
is in progress. The beginning of a call is a move after those of its flow, and a link is a move.
-/

namespace Anettrace.Export

open Library.Labelled Library.Table

/-! ## Searches -/

theorem flowFind_some {state : State} {id : UInt64} {place : Nat}
    (h : flowFind state id = some place) :
    ∃ flow, state.flows[place]? = some flow ∧ flow.active = true ∧ flow.id = id := by
  obtain ⟨hlt, hfound, -⟩ := List.findIdx?_eq_some_iff_getElem.mp h
  simp only [Bool.and_eq_true, decide_eq_true_eq] at hfound
  exact ⟨_, List.getElem?_eq_getElem hlt, hfound⟩

theorem flowFind_none {state : State} {id : UInt64} (h : flowFind state id = none)
    {flow : FlowState} (hflow : flow ∈ state.flows) (hactive : flow.active = true) :
    flow.id ≠ id := by
  intro hid
  have hnot := List.findIdx?_eq_none_iff.mp h flow hflow
  simp [hactive, hid] at hnot

theorem flowUnique_some {state : State} {found : FlowState → Bool} {place : Nat}
    (h : flowUnique state found = some place) :
    ∃ flow, state.flows[place]? = some flow ∧ found flow = true := by
  unfold flowUnique at h
  split at h
  case h_1 entry heq =>
    cases h
    have hmem : entry ∈ state.flows.zipIdx.filter fun entry => found entry.1 := by
      rw [heq]
      exact List.mem_cons_self
    obtain ⟨hentry, hfound⟩ := List.mem_filter.mp hmem
    exact ⟨entry.1, List.mem_zipIdx_iff_getElem?.mp hentry, hfound⟩
  case h_2 => cases h

theorem flowFindBySocket_some {state : State} {socketId : UInt64} {protocol : UInt8} {place : Nat}
    (h : flowFindBySocket state socketId protocol = some place) :
    ∃ flow, state.flows[place]? = some flow ∧ flow.active = true := by
  unfold flowFindBySocket at h
  split at h
  case isTrue => cases h
  case isFalse =>
    obtain ⟨flow, hflow, hfound⟩ := flowUnique_some h
    simp only [Bool.and_eq_true] at hfound
    exact ⟨flow, hflow, hfound.1.1⟩

section

variable {session : Session} {state : State} {pending : PendingIo}

/-- The flow that a call credits is in progress, and the call is tied to one flow at most. -/
theorem ioFlow_some {place : Nat} (hclear : pending.flowAmbiguous = true → pending.flowId = 0)
    (h : ioFlow session state pending = some place) :
    ∃ flow, state.flows[place]? = some flow ∧ flow.active = true ∧
      pending.flowAmbiguous = false := by
  unfold ioFlow at h
  dsimp only at h
  split at h
  case h_1 found hlinked =>
    cases h
    split at hlinked
    case isTrue hflowId =>
      obtain ⟨flow, hflow, hactive, -⟩ := flowFind_some hlinked
      refine ⟨flow, hflow, hactive, ?_⟩
      cases hambiguous : pending.flowAmbiguous with
      | false => rfl
      | true => exact absurd (hclear hambiguous) hflowId
    case isFalse => cases hlinked
  case h_2 =>
    split at h
    case isTrue hfallback =>
      obtain ⟨flow, hflow, hactive⟩ := flowFindBySocket_some h
      exact ⟨flow, hflow, hactive, by simpa using hfallback.1⟩
    case isFalse => cases h

/-- A call that credits no flow is not tied to one in progress. -/
theorem ioFlow_none (h : ioFlow session state pending = none) (hlinked : pending.flowId ≠ 0)
    {flow : FlowState} (hflow : flow ∈ state.flows) (hactive : flow.active = true) :
    flow.id ≠ pending.flowId := by
  unfold ioFlow at h
  dsimp only at h
  rw [if_pos hlinked] at h
  split at h
  case h_1 => cases h
  case h_2 hfind => exact flowFind_none hfind hflow hactive

theorem ioFlow_ambiguous (hclear : pending.flowAmbiguous = true → pending.flowId = 0)
    (hambiguous : pending.flowAmbiguous = true) : ioFlow session state pending = none := by
  unfold ioFlow
  simp [hclear hambiguous, hambiguous]

end

theorem creditFlow_account (pending : PendingIo) (ts bytes : UInt64) (flow : FlowState) :
    (creditFlow pending ts bytes flow).account = flow.account.credit pending.tx bytes := by
  have hreach := reach_account flow ts
  unfold creditFlow
  dsimp only
  generalize flow.reach ts = reached at *
  rw [← hreach]
  by_cases hbytes : bytes = 0
  · subst hbytes
    cases pending.tx <;> simp [FlowState.account, Account.credit]
  · rw [if_neg hbytes]
    cases pending.tx <;> rfl

/-! ## The end of a call -/

/-- The entry, the flows and the records that the end of a call leaves. -/
structure Finished (session : Session) (state : State) (place : Nat) (pending : PendingIo)
    (ts : UInt64) (result : Int64) (incomplete : Bool) (after : State) : Prop where
  spec : ∃ flowId ioEnd complete,
    after.ios = state.ios.set place { pending with flowId := flowId, active := false } ∧
      after.out = state.out ++ [.ioEnd ioEnd, .ioComplete complete] ∧
      complete.bytes = resultBytes result ∧ complete.flowId = flowId ∧
      EndRecords pending ioEnd complete ∧
      Settles (state.flows.map FlowState.account) pending (resultBytes result) flowId
        (after.flows.map FlowState.account)

/-- A search for an entry in progress. -/
theorem pendingIoFind_some {state : State} {func : UInt16} {tid : UInt32} {place : Nat}
    (h : pendingIoFind state func tid = some place) :
    ∃ pending, state.ios[place]? = some pending ∧ pending.active = true ∧ pending.func = func ∧
      pending.tid = tid := by
  obtain ⟨hlt, hfound, -⟩ := List.findIdx?_eq_some_iff_getElem.mp h
  simp only [Bool.and_eq_true, decide_eq_true_eq, and_assoc] at hfound
  exact ⟨_, List.getElem?_eq_getElem hlt, hfound⟩

/-- An entry that has ended is not ended again. -/
theorem pendingIoFinish_inactive {session : Session} {state : State} {place : Nat}
    (h : ∀ pending, state.ios[place]? = some pending → pending.active = false) (ts : UInt64)
    (result : Int64) (incomplete : Bool) :
    pendingIoFinish session state (some place) ts result incomplete = state := by
  unfold pendingIoFinish
  split
  case h_1 io pending hio hpending =>
    cases hio
    rw [Option.bind_some] at hpending
    rw [if_pos (by simp [h pending hpending])]
  case h_2 => rfl

/-- The end of a call that several flows were tied to leaves the flows. -/
theorem pendingIoFinish_ambiguous {session : Session} {state : State} {place : Nat}
    {pending : PendingIo} (hpending : state.ios[place]? = some pending)
    (hclear : pending.flowAmbiguous = true → pending.flowId = 0)
    (hambiguous : pending.flowAmbiguous = true) (ts : UInt64) (result : Int64) (incomplete : Bool) :
    (pendingIoFinish session state (some place) ts result incomplete).flows = state.flows := by
  have hflow : ioFlow session state pending = none := ioFlow_ambiguous hclear hambiguous
  unfold pendingIoFinish
  simp only [Option.bind_some, hpending, hflow, Option.bind_none]
  split <;> rfl

/-- The end of a call in progress is a move. -/
theorem pendingIoFinish_moves (session : Session) {state : State} {place : Nat}
    {pending : PendingIo} (hsound : state.books.Sound) (hpending : state.ios[place]? = some pending)
    (hactive : pending.active = true) (ts : UInt64) (result : Int64) (incomplete : Bool) :
    Finished session state place pending ts result incomplete
      (pendingIoFinish session state (some place) ts result incomplete) := by
  have hmem := List.mem_of_getElem? hpending
  have hvisible := hsound.visible pending hmem hactive
  have hclear := hsound.clear pending hmem hactive
  have hemit (trace : Option Trace) (flow : Option FlowState) (flowId : UInt64) :
      pendingIoEmitStart session state trace flow { pending with flowId := flowId } =
        ({ pending with flowId := flowId }, []) := by
    unfold pendingIoEmitStart
    exact if_pos hvisible
  constructor
  unfold pendingIoFinish
  simp only [Option.bind_some, hpending]
  rw [if_neg (by simp [hactive])]
  cases hflow : ioFlow session state pending with
  | none =>
      simp only [Option.bind_none, Option.map_none, Option.getD_none, hemit, List.append_nil]
      refine ⟨pending.flowId, _, _, rfl, rfl, rfl, rfl, ⟨rfl, rfl, rfl, rfl, rfl, rfl⟩,
        Settles.unlinked rfl ?_⟩
      intro hlinked account haccount haccountActive
      obtain ⟨flow, hmemFlow, rfl⟩ := List.mem_map.mp haccount
      exact ioFlow_none hflow hlinked hmemFlow haccountActive
  | some found =>
      obtain ⟨flow, hentry, hflowActive, hunambiguous⟩ := ioFlow_some hclear hflow
      simp only [Option.bind_some, hentry, Option.map_some, Option.getD_some, hemit,
        List.append_nil]
      refine ⟨flow.id, _, _, rfl, rfl, rfl, rfl, ⟨rfl, rfl, rfl, rfl, rfl, rfl⟩, ?_⟩
      have hplace : (state.flows.map FlowState.account)[found]? = some flow.account := by
        rw [List.getElem?_map, hentry]
        rfl
      have hsettles := @Settles.credited _ pending (resultBytes result) flow.id _ _ hplace
        hflowActive hunambiguous rfl
      simpa only [List.map_set, creditFlow_account] using hsettles

/-- The end of a call in progress, as a move on the books. -/
theorem Finished.move {session : Session} {before after : State} {place : Nat}
    {pending : PendingIo} {ts : UInt64} {result : Int64} {incomplete : Bool}
    (h : Finished session before place pending ts result incomplete after)
    (hpending : before.ios[place]? = some pending) (hactive : pending.active = true) :
    Move before.books [] after.books := by
  obtain ⟨flowId, ioEnd, complete, hios, hout, hbytes, rfl, hrecords, hsettles⟩ := h.spec
  rw [← hbytes] at hsettles
  have hmove : Move before.books [] _ :=
    Move.endCall (show before.books.calls[place]? = some pending from hpending) hactive hsettles
      hrecords
  simpa only [State.books, hios, hout] using hmove

theorem pendingIoFinish_books (session : Session) {state : State} (hsound : state.books.Sound)
    (io : Option Nat) (ts : UInt64) (result : Int64) (incomplete : Bool) :
    Moves Move state.books []
      (pendingIoFinish session state io ts result incomplete).books := by
  cases io with
  | none => exact Moves.refl _
  | some place =>
      by_cases hactive : ∃ pending, state.ios[place]? = some pending ∧ pending.active = true
      · obtain ⟨pending, hpending, hactive⟩ := hactive
        have hfinished := pendingIoFinish_moves session hsound hpending hactive ts
          result incomplete
        exact Moves.single (hfinished.move hpending hactive)
      · rw [pendingIoFinish_inactive]
        · exact Moves.refl _
        · intro pending hpending
          exact Bool.eq_false_iff.mpr fun h => hactive ⟨pending, hpending, h⟩

/-! ## The beginning of a call -/

theorem pendingIoFind_none {state : State} {func : UInt16} {tid : UInt32}
    (h : pendingIoFind state func tid = none) {other : PendingIo} (hother : other ∈ state.ios)
    (hactive : other.active = true) (hfunc : other.func = func) : other.tid ≠ tid := by
  intro htid
  have hnot := List.findIdx?_eq_none_iff.mp h other hother
  simp [hactive, hfunc, htid] at hnot

theorem pendingIoFindLogical_none {state : State} {tid : UInt32} {socketId : UInt64} {tx : Bool}
    (h : pendingIoFindLogical state tid socketId tx = none) {other : PendingIo}
    (hother : other ∈ state.ios) (hactive : other.active = true) (htid : other.tid = tid)
    (hsocket : other.socketId = socketId) : other.tx ≠ tx := by
  intro htx
  have hnot := List.findIdx?_eq_none_iff.mp h other hother
  simp [hactive, htid, hsocket, htx] at hnot

/-- Once the stale call of a thread in a function is finished, there is none. -/
theorem pendingIoFinish_stale (session : Session) {state : State} (hsound : state.books.Sound)
    (func : UInt16) (tid : UInt32) (ts : UInt64) (result : Int64) (incomplete : Bool) :
    pendingIoFind
      (pendingIoFinish session state (pendingIoFind state func tid) ts result incomplete)
      func tid = none := by
  cases hfind : pendingIoFind state func tid with
  | none => exact hfind
  | some place =>
      obtain ⟨pending, hpending, hactive, hfunc, htid⟩ := pendingIoFind_some hfind
      obtain ⟨flowId, _, _, hios, -⟩ :=
        (pendingIoFinish_moves session hsound hpending hactive ts result
          incomplete).spec
      refine List.findIdx?_eq_none_iff.mpr fun other hother => ?_
      rw [hios] at hother
      obtain ⟨i, hi⟩ := List.mem_iff_getElem?.mp hother
      obtain ⟨-, rfl⟩ | ⟨hne, hold⟩ := getElem?_set_cases hi
      · rfl
      · refine Bool.eq_false_iff.mpr fun hmatch => hne ?_
        simp only [Bool.and_eq_true, decide_eq_true_eq, and_assoc] at hmatch
        obtain ⟨hotherActive, hotherFunc, hotherTid⟩ := hmatch
        exact hsound.thread i place other pending hold hpending hotherActive hactive
          (hotherFunc.trans hfunc.symm) (hotherTid.trans htid.symm)

/-- `pending_io_add` of a new call takes the place of an ended one, or a new place. -/
theorem pendingIoAdd_placed {state after : State} {realloc : Bool} {func : UInt16} {tid : UInt32}
    {place : Nat} (hfind : pendingIoFind state func tid = none)
    (h : pendingIoAdd state realloc func tid = (after, some place)) :
    Placed state.ios (PendingIo.fresh func tid) place after.ios ∧ after.flows = state.flows ∧
      after.out = state.out ∧ after.syscalls = state.syscalls := by
  unfold pendingIoAdd at h
  rw [hfind] at h
  dsimp only at h
  split at h
  case h_1 io hfree =>
    cases h
    obtain ⟨hlt, hended, -⟩ := List.findIdx?_eq_some_iff_getElem.mp hfree
    exact ⟨Placed.reused (List.getElem?_eq_getElem hlt) (by simpa using hended), rfl, rfl, rfl⟩
  case h_2 =>
    split at h
    · cases h
    · cases h
      exact ⟨Placed.added, rfl, rfl, rfl⟩

theorem Placed.fill {calls after : List PendingIo} {call filled : PendingIo} {place : Nat}
    (h : Placed calls call place after) : Placed calls filled place (after.set place filled) := by
  cases h with
  | reused hold hended =>
      rw [List.set_set]
      exact Placed.reused hold hended
  | added =>
      rw [List.set_append_right _ _ (Nat.le_refl _), Nat.sub_self]
      exact Placed.added

theorem Placed.get {calls after : List PendingIo} {call : PendingIo} {place : Nat}
    (h : Placed calls call place after) : after[place]? = some call := by
  cases h with
  | reused hold => exact getElem?_set_same hold
  | added => exact List.getElem?_concat_length

section

variable {session : Session} {state after : State} {realloc : Bool} {detail : DetailEvent}
  {trace : Trace}

/-- The entry that `pending_io_start` accepts: the state it is added in, and what is not in
progress there. -/
theorem pendingIoAccept_some {place : Nat} (hsound : state.books.Sound)
    (h : pendingIoAccept session state realloc detail trace = (after, some place)) :
    ∃ settled : State, Moves Move state.books [] settled.books ∧
      pendingIoFind settled detail.func detail.tid = none ∧
      pendingIoFindLogical settled detail.tid (detailSocketInstanceId session.salt detail)
        (traceIsTxWrite trace) = none ∧
      Placed settled.ios (PendingIo.fresh detail.func detail.tid) place after.ios ∧
      after.flows = settled.flows ∧ after.out = settled.out := by
  unfold pendingIoAccept at h
  dsimp only at h
  split at h
  case isTrue => cases h
  case isFalse =>
    have hmoves := pendingIoFinish_books session hsound
      (pendingIoFind state detail.func detail.tid) detail.ts 0 true
    have hfind := pendingIoFinish_stale session hsound detail.func detail.tid
      detail.ts 0 true
    split at h
    case h_1 => cases h
    case h_2 hlogical =>
      obtain ⟨hplaced, hflows, hout, -⟩ := pendingIoAdd_placed hfind h
      exact ⟨_, hmoves, hfind, hlogical, hplaced, hflows, hout⟩

/-- The state that `pending_io_start` leaves when it accepts no call. -/
theorem pendingIoAccept_none (hsound : state.books.Sound)
    (h : pendingIoAccept session state realloc detail trace = (after, none)) :
    Moves Move state.books [] after.books := by
  unfold pendingIoAccept at h
  dsimp only at h
  split at h
  case isTrue =>
    cases h
    exact Moves.refl _
  case isFalse =>
    have hmoves := pendingIoFinish_books session hsound
      (pendingIoFind state detail.func detail.tid) detail.ts 0 true
    split at h
    case h_1 =>
      cases h
      exact hmoves
    case h_2 =>
      have hfind := pendingIoFinish_stale session hsound detail.func detail.tid
        detail.ts 0 true
      unfold pendingIoAdd at h
      rw [hfind] at h
      dsimp only at h
      split at h
      case h_1 => cases h
      case h_2 =>
        split at h
        · cases h
          exact hmoves
        · cases h

end

/-- The labels of the calls that begin. -/
def acceptLabels (ioIds : List UInt64) : List Label :=
  ioIds.map Label.accepted

/-- What a completed entry keeps of the entry that `pending_io_emit_start` was called on. -/
structure Emitted (pending call : PendingIo) (flow : Option FlowState) (record : IoStart) :
    Prop where
  visible : call.visible = true
  active : call.active = pending.active
  ambiguous : call.flowAmbiguous = pending.flowAmbiguous
  func : call.func = pending.func
  tid : call.tid = pending.tid
  socketId : call.socketId = pending.socketId
  tx : call.tx = pending.tx
  ioId : call.ioId = pending.ioId
  flowId : call.flowId = (flow.map FlowState.id).getD pending.flowId
  record : record.ioId = pending.ioId

theorem pendingIoEmitStart_new (session : Session) (state : State) (trace : Option Trace)
    (flow : Option FlowState) {pending : PendingIo} (hvisible : pending.visible = false) :
    ∃ call record, pendingIoEmitStart session state trace flow pending =
      (call, [.ioStart record]) ∧ Emitted pending call flow record := by
  unfold pendingIoEmitStart
  rw [if_neg (by simp [hvisible])]
  exact ⟨_, _, rfl, rfl, rfl, rfl, rfl, rfl, rfl, rfl, rfl, rfl, rfl⟩

/-- The flow that the beginning of a call looks up or opens leaves the calls alone. -/
theorem beginFlow_moves (session : Session) (state : State) (realloc : Bool)
    (detail : DetailEvent) :
    FlowMoves state []
      (if detail.ske.protoL4 = ipprotoUdp then (state, none)
        else flowFromSocket session state realloc detail detail.ts).1 := by
  split
  · exact FlowMoves.refl state
  · exact flowFromSocket_moves session state realloc detail detail.ts

theorem pendingIoBegin_moves {session : Session} {settled state : State} {realloc : Realloc}
    {detail : DetailEvent} {trace : Trace} {place : Nat} (cpu : Int)
    (hfind : pendingIoFind settled detail.func detail.tid = none)
    (hlogical : pendingIoFindLogical settled detail.tid
      (detailSocketInstanceId session.salt detail) (traceIsTxWrite trace) = none)
    (hplaced : Placed settled.ios (PendingIo.fresh detail.func detail.tid) place state.ios)
    (hflows : state.flows = settled.flows) (hout : state.out = settled.out) :
    Moves Move settled.books (acceptLabels [startIoId session.salt detail])
      (pendingIoBegin session state realloc detail trace cpu place).books := by
  obtain ⟨filled, hfilled⟩ : ∃ filled, filled =
      ioFill session detail trace cpu (PendingIo.fresh detail.func detail.tid) := ⟨_, rfl⟩
  obtain ⟨entered, hentered⟩ : ∃ entered, entered =
      state.setIo place (ioFill session detail trace cpu) := ⟨_, rfl⟩
  have hstart : entered.ios = state.ios.set place filled := by
    rw [hentered, hfilled]
    exact modify_some hplaced.get
  have hledger : entered.ledger settled.ios = settled.books := by
    rw [hentered]
    simp only [State.ledger, State.setIo, State.books, hflows, hout]
  have hflowMoves := beginFlow_moves session entered realloc.flow detail
  unfold pendingIoBegin
  dsimp only
  rw [← hentered]
  generalize (if detail.ske.protoL4 = ipprotoUdp then (entered, none)
    else flowFromSocket session entered realloc.flow detail detail.ts) = flowed at *
  obtain ⟨flowed, flow⟩ := flowed
  dsimp only at hflowMoves ⊢
  have hios := hflowMoves.ios.trans hstart
  have hget : flowed.ios[place]? = some filled := by
    rw [hios]
    exact getElem?_set_same hplaced.get
  obtain ⟨call, record, hemit, hcall⟩ := pendingIoEmitStart_new session flowed (some trace)
    (flow.bind (flowed.flows[·]?)) (show filled.visible = false by rw [hfilled]; rfl)
  simp only [hget, hemit]
  have hplacedCall : Placed settled.ios call place (flowed.ios.set place call) := by
    rw [hios, List.set_set]
    exact hplaced.fill
  have hknown : call.flowId = 0 ∨ call.flowId ∈ (flowed.ledger settled.ios).ids := by
    rw [hcall.flowId]
    cases hentry : flow.bind (flowed.flows[·]?) with
    | none =>
        rw [hfilled]
        exact Or.inl rfl
    | some entry =>
        obtain ⟨_, -, hmem⟩ := Option.bind_eq_some_iff.mp hentry
        refine Or.inr ?_
        simp only [Books.ids, State.ledger, List.map_map]
        exact List.mem_map_of_mem (List.mem_of_getElem? hmem)
  have hmove : Move (flowed.ledger settled.ios) [.accepted call.ioId] _ :=
    Move.beginCall hplacedCall (hcall.active.trans (by rw [hfilled]; rfl)) hcall.visible
      (hcall.ambiguous.trans (by rw [hfilled]; rfl)) hknown
      (fun other hother hactive hfunc htid => pendingIoFind_none hfind hother hactive
        (hfunc.trans (hcall.func.trans (by rw [hfilled]; rfl)))
        (htid.trans (hcall.tid.trans (by rw [hfilled]; rfl))))
      (fun other hother hactive htid hsocket htx => pendingIoFindLogical_none hlogical hother
        hactive (htid.trans (hcall.tid.trans (by rw [hfilled]; rfl)))
        (hsocket.trans (hcall.socketId.trans (by rw [hfilled]; rfl)))
        (htx.trans (hcall.tx.trans (by rw [hfilled]; rfl))))
      (hcall.record.trans hcall.ioId.symm)
  have hioId : call.ioId = startIoId session.salt detail :=
    hcall.ioId.trans (by rw [hfilled]; rfl)
  rw [hioId] at hmove
  have hmoves := hflowMoves.moves settled.ios
  rw [hledger] at hmoves
  exact hmoves.silent_then (Moves.single hmove)

theorem pendingIoStart_moves {session : Session} {state : State} (hsound : state.books.Sound)
    (realloc : Realloc) (detail : DetailEvent) (trace : Trace) (cpu : Int) :
    Moves Move state.books (acceptLabels (acceptedIn session state realloc detail trace))
      (pendingIoStart session state realloc detail trace cpu).books := by
  have hobserved : (pendingIoObserve state detail).books.Sound := hsound
  unfold acceptedIn pendingIoStart
  cases haccept : pendingIoAccept session (pendingIoObserve state detail) realloc.io detail
      trace with
  | mk after io =>
      cases io with
      | none =>
          have hmoves := pendingIoAccept_none hobserved haccept
          exact hmoves
      | some place =>
          obtain ⟨settled, hmoves, hfind, hlogical, hplaced, hflows, hout⟩ :=
            pendingIoAccept_some hobserved haccept
          exact hmoves.silent_then
            (pendingIoBegin_moves cpu hfind hlogical hplaced hflows hout)

/-! ## Links -/

theorem exportPacketIoLink_moves (session : Session) (state : State) (detail : DetailEvent)
    (flow : Option FlowState) (hflow : ∀ entry ∈ flow, entry ∈ state.flows) :
    Moves Move state.books [] (exportPacketIoLink session state detail flow).books := by
  unfold exportPacketIoLink
  split
  case isTrue => exact Moves.refl _
  case isFalse =>
    cases flow with
    | none => exact Moves.single (Move.strayLink _ rfl)
    | some entry =>
        have hmem : entry.id ∈ state.books.ids := by
          simp only [Books.ids, State.books, List.map_map]
          exact List.mem_map_of_mem (hflow entry rfl)
        exact Moves.single (Move.link (packetIoLinkRecord session state detail (some entry)) hmem)

end Anettrace.Export
