import Anettrace.Export.FlowAgreement
import Anettrace.Export.Simulation

/-!
# The lives of flows

A flow is identified by its place in the table, which it never leaves, so nothing depends on whether
two flows hash to the same id. `Lives` keeps the order in which flows begin and end next to the
records; along every sequence of moves each flow begins once and ends at most once, afterwards.
`Timely` is what holds of the times of flows and of their `flow_end` records.
-/

namespace Anettrace.Export

open Library.Labelled Library.Run Library.Table

/-! ## Beginnings and ends -/

def Record.life : Record → Option (UInt64 × Bool)
  | .flowStart record => some (record.flowId, true)
  | .flowEnd record => some (record.flowId, false)
  | _ => none

/-- The `flow_start` and `flow_end` records of a capture, in order. -/
def livesOf (out : List Record) : List (UInt64 × Bool) :=
  out.filterMap Record.life

@[simp] theorem livesOf_append (first second : List Record) :
    livesOf (first ++ second) = livesOf first ++ livesOf second :=
  List.filterMap_append

/-- The beginnings and ends of the flow at a place. -/
def lifeAt (order : List (Nat × Bool)) (place : Nat) : List Bool :=
  (order.filter fun mark => mark.1 = place).map Prod.snd

@[simp] theorem lifeAt_append (first second : List (Nat × Bool)) (place : Nat) :
    lifeAt (first ++ second) place = lifeAt first place ++ lifeAt second place := by
  unfold lifeAt
  rw [List.filter_append, List.map_append]

theorem lifeAt_same (place : Nat) (begins : Bool) : lifeAt [(place, begins)] place = [begins] := by
  simp [lifeAt]

/-- A mark of another flow. -/
theorem lifeAt_other {place other : Nat} (h : other ≠ place) (begins : Bool) :
    lifeAt [(other, begins)] place = [] := by
  simp [lifeAt, h]

/-- The records of the lives of flows are about the places in `order`, one by one. -/
def Recorded (ids : List UInt64) (out : List Record) (order : List (Nat × Bool)) : Prop :=
  List.Forall₂ (fun life mark => ids[mark.1]? = some life.1 ∧ life.2 = mark.2) (livesOf out) order

/-- What the books and the order of beginnings and ends say about each other. -/
structure Lives (books : Books) (order : List (Nat × Bool)) : Prop where
  recorded : Recorded books.ids books.out order
  /-- A flow begins once, and has ended once if it is over. -/
  each : ∀ (place : Nat) (account : Account), books.accounts[place]? = some account →
    lifeAt order place = if account.active then [true] else [true, false]

theorem Lives.empty : Lives Books.empty [] :=
  ⟨List.Forall₂.nil, by simp [Books.empty]⟩

theorem Recorded.append {ids grown : List UInt64} {out extra : List Record}
    {order more : List (Nat × Bool)} (h : Recorded ids out order) (hids : ids <+: grown)
    (hextra : Recorded grown extra more) : Recorded grown (out ++ extra) (order ++ more) := by
  have hkept : Recorded grown out order := by
    refine List.Forall₂.imp ?_ h
    intro life mark hlife
    obtain ⟨hlt, hget⟩ := List.getElem?_eq_some_iff.mp hlife.1
    refine ⟨?_, hlife.2⟩
    rw [← hget]
    exact List.prefix_iff_getElem?.mp hids mark.1 hlt
  unfold Recorded
  rw [livesOf_append]
  exact List.rel_append hkept hextra

/-- No flow that is not in the table has begun or ended. -/
theorem Lives.fresh {books : Books} {order : List (Nat × Bool)} (h : Lives books order) :
    lifeAt order books.accounts.length = [] := by
  have hnone : ∀ mark ∈ order, mark.1 ≠ books.accounts.length := by
    intro mark hmark heq
    obtain ⟨life, hlife⟩ : ∃ life, books.ids[mark.1]? = some life := by
      obtain ⟨i, hi, rfl⟩ := List.mem_iff_getElem.mp hmark
      have hlength := h.recorded.length_eq
      exact ⟨_, (List.Forall₂.get h.recorded (hlength ▸ hi) hi).1⟩
    have hlt := (List.getElem?_eq_some_iff.mp hlife).1
    rw [Books.ids, List.length_map, heq] at hlt
    exact absurd hlt (Nat.lt_irrefl _)
  unfold lifeAt
  rw [List.filter_eq_nil_iff.mpr fun mark hmark => by simpa using hnone mark hmark]
  rfl

/-- A move that neither begins nor ends a flow. -/
theorem Lives.silent {before after : Books} {order : List (Nat × Bool)} {extra : List Record}
    (h : Lives before order) (hids : after.ids = before.ids)
    (hout : after.out = before.out ++ extra) (hextra : livesOf extra = [])
    (haccounts : ∀ (place : Nat) (account : Account), after.accounts[place]? = some account →
      ∃ old, before.accounts[place]? = some old ∧ old.active = account.active) :
    Lives after order := by
  refine ⟨?_, ?_⟩
  · rw [hids, hout, ← List.append_nil order]
    refine h.recorded.append (List.prefix_refl _) ?_
    unfold Recorded
    rw [hextra]
    exact List.Forall₂.nil
  · intro place account haccount
    obtain ⟨old, hold, hactive⟩ := haccounts place account haccount
    rw [h.each place old hold, hactive]

/-- A flow begins. -/
theorem Lives.open {before : Books} {order : List (Nat × Bool)} (h : Lives before order)
    (record : FlowStart) :
    Lives
      { before with
        accounts := before.accounts ++ [Account.fresh record.flowId]
        out := before.out ++ [.flowStart record] }
      (order ++ [(before.accounts.length, true)]) := by
  refine ⟨?_, ?_⟩
  · refine h.recorded.append ?_ ?_
    · simp only [Books.ids, List.map_append]
      exact List.prefix_append _ _
    · refine List.Forall₂.cons ⟨?_, rfl⟩ List.Forall₂.nil
      show (List.map Account.id _)[before.accounts.length]? = _
      rw [List.map_append, List.getElem?_append_right (by simp), List.length_map, Nat.sub_self]
      rfl
  · intro place account haccount
    rw [lifeAt_append]
    rcases getElem?_append_cases haccount with ⟨rfl, rfl⟩ | ⟨hlt, hold⟩
    · rw [h.fresh, lifeAt_same]
      rfl
    · rw [lifeAt_other (Nat.ne_of_gt hlt), List.append_nil]
      exact h.each place account hold

theorem Lives.end {before : Books} {order : List (Nat × Bool)} {place : Nat} {account : Account}
    {record : FlowEnd} (h : Lives before order) (haccount : before.accounts[place]? = some account)
    (hactive : account.active = true) (hrecord : account.Reports record) :
    Lives
      { before with
        accounts := before.accounts.set place account.ended
        out := before.out ++ [.flowEnd record] }
      (order ++ [(place, false)]) := by
  have hsame : (before.accounts.set place account.ended).map Account.id = before.ids :=
    map_set Account.id haccount rfl
  refine ⟨?_, ?_⟩
  · refine h.recorded.append ?_ ?_
    · show _ <+: List.map Account.id _
      rw [hsame]
    · refine List.Forall₂.cons ⟨?_, rfl⟩ List.Forall₂.nil
      show (List.map Account.id _)[place]? = _
      rw [hsame, Books.ids, List.getElem?_map, haccount, hrecord.flowId]
      rfl
  · intro other entry hentry
    rw [lifeAt_append]
    rcases getElem?_set_cases hentry with ⟨rfl, rfl⟩ | ⟨hne, hold⟩
    · rw [lifeAt_same, h.each other account haccount, if_pos hactive]
      rfl
    · rw [lifeAt_other (Ne.symm hne), List.append_nil]
      exact h.each other entry hold

section

variable {before after : Books} {labels : List Label} {order : List (Nat × Bool)}
  (hlives : Lives before order)
include hlives

/-- Along a move, flows begin and end in some order. -/
theorem Move.lives (h : Move before labels after) :
    ∃ more, Lives after (order ++ more) := by
  have hsilent {next : Books} {extra : List Record} (hids : next.ids = before.ids)
      (hout : next.out = before.out ++ extra) (hextra : livesOf extra = [])
      (haccounts : ∀ (place : Nat) (account : Account), next.accounts[place]? = some account →
        ∃ old, before.accounts[place]? = some old ∧ old.active = account.active) :
      ∃ more, Lives next (order ++ more) :=
    ⟨[], (List.append_nil order).symm ▸ hlives.silent hids hout hextra haccounts⟩
  have hnothing : before.out = before.out ++ [] := (List.append_nil _).symm
  cases h with
  | note | exportCall | beginCall | link | strayLink =>
      exact hsilent rfl rfl rfl fun _ account haccount => ⟨account, haccount, rfl⟩
  | openFlow record => exact ⟨_, hlives.open record⟩
  | endFlow haccount hactive hrecord => exact ⟨_, hlives.end haccount hactive hrecord⟩
  | @anchor place account direction haccount =>
      refine hsilent (map_set Account.id haccount (account.count_id direction)) hnothing rfl ?_
      intro other entry hentry
      rcases getElem?_set_cases hentry with ⟨rfl, rfl⟩ | ⟨-, hold⟩
      · exact ⟨account, haccount, by cases direction <;> rfl⟩
      · exact ⟨entry, hold, rfl⟩
  | endCall hcall hactive hsettles hrecords =>
      refine hsilent hsettles.ids rfl rfl ?_
      intro other entry hentry
      cases hsettles with
      | unlinked => exact ⟨entry, hentry, rfl⟩
      | @credited place account haccount =>
          rcases getElem?_set_cases hentry with ⟨rfl, rfl⟩ | ⟨-, hold⟩
          · refine ⟨account, haccount, ?_⟩
            unfold Account.credit
            split <;> rfl
          · exact ⟨entry, hold, rfl⟩

theorem moves_lives (h : Moves Move before labels after) :
    ∃ more, Lives after (order ++ more) := by
  induction h with
  | refl => exact ⟨[], (List.append_nil order).symm ▸ hlives⟩
  | tail _ hlast ih =>
      obtain ⟨more, hmore⟩ := ih
      obtain ⟨last, hlives⟩ := hlast.lives hmore
      exact ⟨more ++ last, List.append_assoc order more last ▸ hlives⟩

end

/-- Moves close or rename no account. -/
theorem moves_ids {before after : Books} {labels : List Label}
    (h : Moves Move before labels after) : before.ids <+: after.ids := by
  induction h with
  | refl => exact List.prefix_refl _
  | tail _ hlast ih => exact ih.trans hlast.ids

/-- A flow that is over stays over. -/
theorem moves_over {before after : Books} {labels : List Label} (h : Moves Move before labels after)
    {order : List (Nat × Bool)} (hlives : Lives before order) {place : Nat} {account : Account}
    (haccount : before.accounts[place]? = some account) (hover : account.active = false) :
    ∃ new, after.accounts[place]? = some new ∧ new.id = account.id ∧ new.active = false := by
  have hids := moves_ids h
  have hid : before.ids[place]? = some account.id := by
    rw [Books.ids, List.getElem?_map, haccount]
    rfl
  obtain ⟨hlt, hget⟩ := List.getElem?_eq_some_iff.mp hid
  have hkept := List.prefix_iff_getElem?.mp hids place hlt
  rw [hget, Books.ids, List.getElem?_map] at hkept
  obtain ⟨new, hnew, hsame⟩ := Option.map_eq_some_iff.mp hkept
  refine ⟨new, hnew, hsame, ?_⟩
  -- the end that was recorded before is still recorded
  obtain ⟨more, hmore⟩ := moves_lives hlives h
  have heach := hmore.each place new hnew
  rw [lifeAt_append, hlives.each place account haccount, hover] at heach
  cases hactive : new.active with
  | false => rfl
  | true =>
      rw [hactive] at heach
      simp at heach

/-! ## Times -/

/-- A flow was last seen no earlier than first. -/
def FlowState.Timely (flow : FlowState) : Prop :=
  flow.firstTs ≤ flow.lastTs

def TimelyFlows (flows : List FlowState) : Prop :=
  ∀ flow ∈ flows, flow.Timely

/-- The times of a `flow_end` record are in order, and its duration is the difference. -/
structure FlowEnd.Timely (record : FlowEnd) : Prop where
  seen : record.firstTs ≤ record.lastTs
  last : record.lastTs ≤ record.ts
  duration : record.firstTs.toNat + record.duration.toNat = record.ts.toNat

/-- The times of a state. -/
structure Timely (state : State) : Prop where
  flows : TimelyFlows state.flows
  ends : ∀ record ∈ flowEnds state.out, record.Timely

theorem Timely.append {before after : State} {records : List Record} (h : Timely before)
    (hflows : TimelyFlows after.flows) (hout : after.out = before.out ++ records)
    (hrecords : ∀ record ∈ flowEnds records, record.Timely) : Timely after := by
  refine ⟨hflows, fun record hrecord => ?_⟩
  rw [hout, flowEnds_append] at hrecord
  rcases List.mem_append.mp hrecord with hold | hnew
  · exact h.ends record hold
  · exact hrecords record hnew

theorem Timely.moves {before after : State} {labels : List Label} (h : Timely before)
    (hflows : TimelyFlows after.flows) (hmoves : Moves Move before.books labels after.books)
    (hends : endsOf labels = []) : Timely after := by
  obtain ⟨records, hout, hrecords, -⟩ := moves_out hmoves
  refine h.append hflows hout ?_
  rw [hrecords, hends]
  simp

/-- Two flows with the same times. -/
theorem FlowState.Timely.of_span {flow new : FlowState} (h : flow.Timely)
    (hspan : new.span = flow.span) : new.Timely := by
  have htimes : (new.firstTs, new.lastTs) = (flow.firstTs, flow.lastTs) := congrArg Prod.snd hspan
  obtain ⟨hfirst, hlast⟩ := Prod.mk.inj htimes
  show new.firstTs ≤ new.lastTs
  rw [hfirst, hlast]
  exact h

section

variable {flow : FlowState} (h : flow.Timely)
include h

theorem reach_timely (ts : UInt64) :
    (flow.reach ts).Timely := by
  unfold FlowState.reach
  split
  case isTrue hlater => exact UInt64.le_trans h (UInt64.le_of_lt hlater)
  case isFalse => exact h

theorem flowTouch_timely (detail : DetailEvent) (socketId ts : UInt64) :
    (flowTouch detail socketId ts flow).1.Timely := by
  refine (reach_timely h ts).of_span ?_
  unfold flowTouch
  rw [flowLinkSocket_span, flowSetOwner_span]

theorem countPacket_timely (direction : Direction) :
    (countPacket direction flow).Timely := by
  cases direction <;> exact h

theorem creditFlow_timely (pending : PendingIo) (ts bytes : UInt64) :
    (creditFlow pending ts bytes flow).Timely := by
  have hreach := reach_timely h ts
  unfold creditFlow
  dsimp only
  split
  · exact hreach
  · split <;> exact hreach

end

theorem lastTs_le_finishTs (flow : FlowState) (endTs : UInt64) :
    flow.lastTs ≤ flow.finishTs endTs := by
  unfold FlowState.finishTs
  dsimp only
  have hclamped : flow.lastTs ≤ if endTs < flow.lastTs then flow.lastTs else endTs := by
    split
    case isTrue => exact UInt64.le_refl _
    case isFalse hlater => exact UInt64.not_lt.mp hlater
  generalize (if endTs < flow.lastTs then flow.lastTs else endTs) = clamped at *
  split
  case isTrue hlower => exact UInt64.le_trans hclamped (UInt64.le_of_lt hlower)
  case isFalse => exact hclamped

theorem flowFinish_timely {flow : FlowState} (h : flow.Timely) (endTs : UInt64)
    (reason : EndReason) (incomplete : Bool) :
    (flowFinish endTs reason incomplete flow).1.Timely ∧
      ∀ record ∈ flowEnds (flowFinish endTs reason incomplete flow).2, record.Timely := by
  unfold flowFinish
  split
  case isTrue => exact ⟨h, by simp [flowEnds]⟩
  case isFalse =>
    refine ⟨h, fun record hrecord => ?_⟩
    obtain rfl : record = flowEndRecord flow (flow.finishTs endTs) reason incomplete := by
      simpa [flowEnds] using hrecord
    have hlast := lastTs_le_finishTs flow endTs
    have hfirst := UInt64.le_trans h hlast
    refine ⟨h, hlast, ?_⟩
    show flow.firstTs.toNat + (flow.finishTs endTs - flow.firstTs).toNat = _
    rw [UInt64.toNat_sub_of_le _ _ hfirst]
    exact Nat.add_sub_of_le (UInt64.le_iff_toNat_le.mp hfirst)

theorem TimelyFlows.set {flows : List FlowState} {flow : FlowState} (h : TimelyFlows flows)
    (place : Nat) (hflow : flow.Timely) : TimelyFlows (flows.set place flow) := by
  intro entry hentry
  rcases mem_set hentry with hold | rfl
  · exact h entry hold
  · exact hflow

theorem updateFlow_timely {state : State} (h : TimelyFlows state.flows) (place : Nat)
    {change : FlowState → FlowState × List Record}
    (hchange : ∀ flow : FlowState, flow.Timely → (change flow).1.Timely) :
    TimelyFlows (state.updateFlow place change).flows := by
  cases hflow : state.flows[place]? with
  | none =>
      rw [updateFlow_none hflow]
      exact h
  | some flow =>
      rw [updateFlow_some hflow]
      exact h.set place (hchange flow (h flow (List.mem_of_getElem? hflow)))

/-- A flow that is opened has been seen once. -/
theorem flowOpen_timely {state : State} (h : TimelyFlows state.flows) (realloc : Bool)
    (detail : DetailEvent) (tupleId socketId ts : UInt64) {fill : FlowState → FlowState}
    (hmark : ∀ flow, (fill flow).mark = flow.mark) (hspan : ∀ flow, (fill flow).span = flow.span) :
    TimelyFlows (flowOpen state realloc detail tupleId socketId ts fill).1.flows := by
  rcases flowOpen_spec state realloc detail tupleId socketId ts hmark hspan with
    ⟨-, hsame, -⟩ | ⟨-, flow, hadded, -, -, hnew⟩
  · rw [hsame]
    exact h
  · rw [hadded]
    intro entry hentry
    rcases List.mem_append.mp hentry with hold | hlast
    · exact h entry hold
    · obtain rfl := List.mem_singleton.mp hlast
      have htimes : (entry.firstTs, entry.lastTs) = (ts, ts) := congrArg Prod.snd hnew
      obtain ⟨hfirst, hlast⟩ := Prod.mk.inj htimes
      show entry.firstTs ≤ entry.lastTs
      rw [hfirst, hlast]
      exact UInt64.le_refl _

theorem flowFromSocket_timely (session : Session) {state : State} (h : TimelyFlows state.flows)
    (realloc : Bool) (detail : DetailEvent) (ts : UInt64) :
    TimelyFlows (flowFromSocket session state realloc detail ts).1.flows := by
  unfold flowFromSocket
  dsimp only
  split
  case isTrue => exact h
  case isFalse =>
    split
    · exact h
    · exact flowOpen_timely h _ detail _ _ ts (fun _ => rfl) (fun _ => rfl)
    · exact updateFlow_timely h _ fun flow hflow => flowTouch_timely hflow detail _ ts

theorem flowFromPacket_timely (session : Session) {state : State} (h : TimelyFlows state.flows)
    (realloc : Bool) (detail : DetailEvent) (trace : Trace) :
    TimelyFlows (flowFromPacket session state realloc detail trace).1.flows := by
  have hanchor {result : State × Option Nat} (hresult : TimelyFlows result.1.flows) :
      TimelyFlows (flowAnchor session detail trace result).1.flows := by
    unfold flowAnchor
    split
    · exact hresult
    · split
      case isFalse => exact hresult
      case isTrue =>
        intro entry hentry
        obtain ⟨i, hi⟩ := List.mem_iff_getElem?.mp hentry
        rw [State.setFlow, List.getElem?_modify] at hi
        obtain ⟨flow, hflow, rfl⟩ := Option.map_eq_some_iff.mp hi
        have hold := hresult flow (List.mem_of_getElem? hflow)
        split
        · exact countPacket_timely hold _
        · exact hold
  unfold flowFromPacket
  dsimp only
  split
  case isTrue => exact h
  case isFalse =>
    split
    · exact h
    · split
      · split <;> exact h
      · refine hanchor ?_
        split
        · exact flowOpen_timely h _ detail _ _ _ (packetFill_mark detail) (packetFill_span detail)
        · exact updateFlow_timely h _ fun flow hflow => flowTouch_timely hflow detail _ _

/-- The end of a call keeps flows timely. -/
theorem pendingIoFinish_timely (session : Session) {state : State} (h : TimelyFlows state.flows)
    (io : Option Nat) (ts : UInt64) (result : Int64) (incomplete : Bool) :
    TimelyFlows (pendingIoFinish session state io ts result incomplete).flows := by
  unfold pendingIoFinish
  split
  case h_2 => exact h
  case h_1 io pending _ _ =>
    split
    case isTrue => exact h
    case isFalse =>
      dsimp only
      split
      case h_2 => exact h
      case h_1 flow entry _ hentry =>
        obtain ⟨place, -, hplace⟩ := Option.bind_eq_some_iff.mp hentry
        have hold := h entry (List.mem_of_getElem? hplace)
        exact h.set flow (creditFlow_timely hold _ ts _)

/-- The end of a call keeps of the flows what a credit keeps. -/
theorem pendingIoFinish_view (session : Session) (state : State) (io : Option Nat) {ts : UInt64}
    (result : Int64) (incomplete : Bool) {β : Type} (view : FlowState → β)
    (hview : ∀ pending bytes flow, view (creditFlow pending ts bytes flow) = view flow) :
    (pendingIoFinish session state io ts result incomplete).flows.map view =
      state.flows.map view := by
  unfold pendingIoFinish
  split
  case h_2 => rfl
  case h_1 =>
    split
    case isTrue => rfl
    case isFalse =>
      dsimp only
      split
      case h_2 => rfl
      case h_1 flow entry hflow hentry =>
        rw [hflow] at hentry
        exact map_set view hentry (hview _ _ entry)

theorem creditFlow_opening (pending : PendingIo) (ts bytes : UInt64) (flow : FlowState) :
    (creditFlow pending ts bytes flow).opening = flow.opening := by
  have hreach : (flow.reach ts).opening = flow.opening := by
    unfold FlowState.reach
    split <;> rfl
  unfold creditFlow
  dsimp only
  split
  · exact hreach
  · split <;> exact hreach

theorem pendingIoAdd_table (state : State) (realloc : Bool) (func : UInt16) (tid : UInt32) :
    (pendingIoAdd state realloc func tid).1.flows = state.flows := by
  unfold pendingIoAdd
  split
  · rfl
  · split
    · rfl
    · dsimp only
      split <;> rfl

/-- The start of a call keeps flows timely. -/
theorem pendingIoStart_timely (session : Session) {state : State} (h : TimelyFlows state.flows)
    (realloc : Realloc) (detail : DetailEvent) (trace : Trace) (cpu : Int) :
    TimelyFlows (pendingIoStart session state realloc detail trace cpu).flows := by
  have haccept : TimelyFlows
      (pendingIoAccept session (pendingIoObserve state detail) realloc.io detail
        trace).1.flows := by
    have hfinish := @pendingIoFinish_timely session (pendingIoObserve state detail) h
      (pendingIoFind (pendingIoObserve state detail) detail.func detail.tid) detail.ts 0 true
    unfold pendingIoAccept
    dsimp only
    split
    case isTrue => exact h
    case isFalse =>
      split
      · exact hfinish
      · rw [pendingIoAdd_table]
        exact hfinish
  unfold pendingIoStart
  split
  case h_1 accepted heq =>
    rw [heq] at haccept
    exact haccept
  case h_2 accepted io heq =>
    rw [heq] at haccept
    have haccepted : TimelyFlows accepted.flows := haccept
    have hbegun : TimelyFlows (if detail.ske.protoL4 = ipprotoUdp then
        (accepted.setIo io (ioFill session detail trace cpu), none)
      else flowFromSocket session (accepted.setIo io (ioFill session detail trace cpu))
        realloc.flow detail detail.ts).1.flows := by
      split
      · exact haccepted
      · exact @flowFromSocket_timely session
          (accepted.setIo io (ioFill session detail trace cpu)) haccepted _ detail detail.ts
    unfold pendingIoBegin
    dsimp only
    split <;> exact hbegun

/-! ## Loops over the flows -/

/-- What a loop of `flow_finish` makes of an entry. -/
def finishedIf (test : FlowState → Bool) (finish : FlowState → FlowState × List Record)
    (flow : FlowState) : FlowState × List Record :=
  if test flow then finish flow else (flow, [])

/-- A loop of `flow_finish` treats every flow once, as it was before the loop. -/
theorem finishFlows_eq (state : State) (test : FlowState → Bool)
    (finish : FlowState → FlowState × List Record) :
    finishFlows state test finish =
      { state with
        flows := state.flows.map fun flow => (finishedIf test finish flow).1
        out := state.out ++ state.flows.flatMap fun flow => (finishedIf test finish flow).2 } := by
  -- the loop has treated the flows in front and not touched the ones behind
  have hloop (count : Nat) (hcount : count ≤ state.flows.length) :
      (List.range count).foldl (fun state flow => state.updateFlow flow (finishedIf test finish))
        state =
        { state with
          flows := (state.flows.take count).map (fun flow => (finishedIf test finish flow).1) ++
            state.flows.drop count
          out := state.out ++
            (state.flows.take count).flatMap fun flow => (finishedIf test finish flow).2 } := by
    induction count with
    | zero => simp
    | succ count ih =>
        have hplace := List.getElem?_eq_getElem (show count < state.flows.length from hcount)
        rw [List.range_succ, List.foldl_append, List.foldl_cons, List.foldl_nil,
          ih (Nat.le_of_succ_le hcount), @updateFlow_some _ _ state.flows[count]]
        · have htake : state.flows.take (count + 1) = state.flows.take count ++
              [state.flows[count]] := List.take_succ_eq_append_getElem hcount
          have hdrop : state.flows.drop count =
              state.flows[count] :: state.flows.drop (count + 1) :=
            List.drop_eq_getElem_cons hcount
          have hlength : ((state.flows.take count).map fun flow =>
              (finishedIf test finish flow).1).length = count := by
            rw [List.length_map, List.length_take, Nat.min_eq_left (Nat.le_of_succ_le hcount)]
          simp only [htake, List.map_append, List.flatMap_append, List.append_assoc]
          rw [List.set_append_right _ _ (Nat.le_of_eq hlength), hlength, Nat.sub_self, hdrop,
            List.set_cons_zero]
          simp
        · show (_ ++ _)[count]? = _
          rw [List.getElem?_append_right (by simp), List.length_map, List.length_take,
            Nat.min_eq_left (Nat.le_of_succ_le hcount), Nat.sub_self, List.getElem?_drop]
          exact hplace
  have hall := hloop state.flows.length (Nat.le_refl _)
  rw [List.take_length, List.drop_length, List.append_nil] at hall
  exact hall

/-- Loops of `flow_finish` write timely records. -/
theorem finishFlows_timely {state : State} (h : Timely state) (test : FlowState → Bool)
    (endTs : FlowState → UInt64) (reason : EndReason) (incomplete : Bool) :
    Timely (finishFlows state test fun flow => flowFinish (endTs flow) reason incomplete flow) := by
  have hone (flow : FlowState) (hflow : flow ∈ state.flows) :
      (finishedIf test (fun flow => flowFinish (endTs flow) reason incomplete flow) flow).1.Timely ∧
        ∀ record ∈ flowEnds (finishedIf test
          (fun flow => flowFinish (endTs flow) reason incomplete flow) flow).2, record.Timely := by
    unfold finishedIf
    split
    · exact flowFinish_timely (h.flows flow hflow) (endTs flow) reason incomplete
    · exact ⟨h.flows flow hflow, by simp [flowEnds]⟩
  rw [finishFlows_eq]
  refine h.append ?_ rfl ?_
  · intro entry hentry
    obtain ⟨flow, hflow, rfl⟩ := List.mem_map.mp hentry
    exact (hone flow hflow).1
  · intro record hrecord
    obtain ⟨line, hline, hlife⟩ := List.mem_filterMap.mp hrecord
    obtain ⟨flow, hflow, hwritten⟩ := List.mem_flatMap.mp hline
    exact (hone flow hflow).2 record (List.mem_filterMap.mpr ⟨line, hwritten, hlife⟩)

/-! ## Steps -/

/-- Changes that neither touch the flows nor write. -/
theorem Timely.same {before after : State} (h : Timely before) (hflows : after.flows = before.flows)
    (hout : after.out = before.out) : Timely after :=
  ⟨hflows ▸ h.flows, hout ▸ h.ends⟩

theorem Timely.syscalls {state : State} (h : Timely state) (slots : List SyscallSlot)
    (records : List NetworkSyscall) :
    Timely ({ state with syscalls := slots }.writeSyscalls records) := by
  have hnone : flowEnds (records.map .networkSyscall) = [] := by
    simp [flowEnds, List.filterMap_map]
  refine h.append h.flows rfl ?_
  rw [hnone]
  simp

section

variable (session : Session) {state : State} (h : Timely state)
include h

/-- A packet record keeps times in order. -/
theorem packetEvent_timely (realloc : Realloc) (detail : DetailEvent) (trace : Trace) :
    Timely (packetEvent session state realloc detail trace) := by
  have hflows : TimelyFlows (packetEvent session state realloc detail trace).flows := by
    unfold packetEvent
    dsimp only
    rw [exportPacketIoLink_flows]
    exact flowFromPacket_timely session h.flows realloc.flow detail trace
  obtain ⟨-, hends, -, -⟩ :=
    projections_anchorLabels (anchored session state realloc detail trace)
  exact h.moves hflows (packetEvent_moves session state realloc detail trace) hends

/-- A socket record keeps times in order. -/
theorem socketEvent_timely (realloc : Realloc) (detail : DetailEvent) (trace : Trace) :
    Timely (socketEvent session state realloc detail trace) := by
  have htouched : Timely (flowFromSocket session state realloc.flow detail detail.ts).1 :=
    h.moves (flowFromSocket_timely session h.flows _ detail _)
      (flowFromSocket_moves session state realloc.flow detail detail.ts).books rfl
  unfold socketEvent
  dsimp only
  split
  · refine @finishFlows_timely _ ?_ _ (fun _ => detail.ts) .socketDestroy false
    split
    · exact htouched
    · exact h
  · split
    · exact htouched
    · exact h

/-- The end of a call keeps times in order. -/
theorem pendingIoFinish_times (hsound : state.books.Sound) (io : Option Nat) (ts : UInt64)
    (result : Int64) (incomplete : Bool) :
    Timely (pendingIoFinish session state io ts result incomplete) :=
  h.moves (pendingIoFinish_timely session h.flows io ts result incomplete)
    (pendingIoFinish_books session hsound io ts result incomplete) rfl

/-- One call of an entry point keeps times in order. -/
theorem step_timely (hsound : state.books.Sound) (input : Input) :
    Timely (step session state input) := by
  cases input with
  | ret event size =>
      unfold step exportRet
      dsimp only
      split
      · exact h
      · exact (pendingIoFinish_times session h hsound _ _ _ _).same rfl rfl
  | event sample cpu realloc =>
      unfold step exportEvent
      dsimp only
      split
      · exact h
      · exact (pendingIoFinish_times session h hsound _ _ _ _).same rfl rfl
      · exact packetEvent_timely session h realloc _ _
      case h_4 trace _ =>
        obtain ⟨-, hends, -, -⟩ :=
          projections_acceptLabels (acceptedIn session state realloc sample.detail trace)
        have hstart :=
          h.moves (pendingIoStart_timely session h.flows realloc sample.detail trace cpu)
          (pendingIoStart_moves hsound realloc sample.detail trace cpu) hends
        exact hstart.same rfl rfl
      · exact h.same rfl rfl
      · exact (socketEvent_timely session h realloc _ _).same rfl rfl
      · exact (packetEvent_timely session h realloc _ _).same rfl rfl
  | syscall call size =>
      unfold step
      dsimp only
      split
      · exact h
      · obtain ⟨records, hflows, -, hout⟩ := handleNetworkSyscall_writes session.salt state call
        have hwritten := h.syscalls state.syscalls records
        exact hwritten.same hflows hout
  | diagnostic => exact h.same rfl rfl
  | lost count => exact h.same rfl rfl
  | queueLost count => exact h.same rfl rfl
  | markCaptureEnd now =>
      unfold step
      dsimp only
      split
      · exact h
      · exact h.same rfl rfl
  | tick now =>
      unfold step tick
      dsimp only
      split
      · exact h
      · exact finishFlows_timely h _ (fun flow => flow.lastTs + udpFlowIdleNs) .idleTimeout true

end

/-- The times of every reached state are in order. -/
theorem reached_timely (session : Session) (inputs : List Input) :
    Timely (reached session inputs) := by
  induction inputs using List.reverseRecOn with
  | nil =>
      exact ⟨by simp [reached, State.init, TimelyFlows], by simp [reached, State.init, flowEnds]⟩
  | append_singleton history input ih =>
      rw [reached_concat]
      exact step_timely session ih (reached_sound session history) input

/-- The loop over the calls in progress keeps times in order. -/
theorem closeIos_timely (session : Session) {state : State} (h : Timely state)
    (hsound : state.books.Sound) (endTs : UInt64) : Timely (closeIos session state endTs) := by
  unfold closeIos
  generalize List.range state.ios.length = places
  induction places generalizing state with
  | nil => exact h
  | cons place rest ih =>
      rw [List.foldl_cons]
      have hfirst := pendingIoFinish_books session hsound (some place) endTs 0 true
      exact ih (pendingIoFinish_times session h hsound _ _ _ _) (moves_sound hsound hfirst)

/-- The close keeps times in order. -/
theorem closeTables_timely (session : Session) {state : State} (h : Timely state)
    (hsound : state.books.Sound) (now : UInt64) : Timely (closeTables session state now) := by
  have hios := closeIos_timely session h hsound (closeTime state now)
  have hsyscalls :=
    hios.syscalls [] ((closeIos session state (closeTime state now)).syscalls.flatMap
    (closeSlot session.salt (closeTime state now) (closeIos session state (closeTime state now))))
  exact finishFlows_timely hsyscalls (fun _ => true) (fun _ => closeTime state now) .traceEnd true

end Anettrace.Export
