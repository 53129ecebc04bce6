import Anettrace.Export.Simulation

/-!
# The packets of a flow

A `flow_end` record reports the anchor packets attributed to its flow before the step that writes
it. A packet that arrives later within the time the flow covered is still attributed to the flow,
and counted in the table, but the record is not written again.
-/

namespace Anettrace.Export

open Library.Labelled Library.Run Library.Table

def flowEndsOf (flowId : UInt64) (out : List Record) : List FlowEnd :=
  (flowEnds out).filter fun record => record.flowId = flowId

/-- Packet totals are the numbers of anchor packets attributed to a flow, TX and RX apart. -/
structure Counts (flowId txPackets rxPackets : UInt64) (anchors : List (UInt64 × Direction)) :
    Prop where
  tx : txPackets = UInt64.ofNat (anchors.count (flowId, .tx))
  rx : rxPackets = UInt64.ofNat (anchors.count (flowId, .rx))

/-! ## The invariant -/

def Books.endedIds (books : Books) : List UInt64 :=
  (books.accounts.filter fun account => !account.active).map Account.id

/-- What the books say about packets, after moves with the given labels. -/
structure PacketAccount (labels : List Label) (books : Books) : Prop where
  ended : ((endsOf labels).map FlowEnd.flowId).Perm books.endedIds
  counted : ∀ account ∈ books.accounts, books.ids.count account.id ≤ 1 →
    account.active = true → Counts account.id account.txPackets account.rxPackets
      (anchorsOf labels)
  absent : ∀ flowId, flowId ∉ books.ids → ∀ direction, (flowId, direction) ∉ anchorsOf labels
  written : ∀ front record back, labels = front ++ .ended record :: back →
    books.ids.count record.flowId ≤ 1 →
      Counts record.flowId record.txPackets record.rxPackets (anchorsOf front)

theorem PacketAccount.empty : PacketAccount [] Books.empty :=
  ⟨List.Perm.refl _, by simp [Books.empty], by simp, by simp⟩

theorem written_append {labels more : List Label} {before after : List UInt64}
    (h : ∀ front record back, labels = front ++ .ended record :: back →
      before.count record.flowId ≤ 1 →
        Counts record.flowId record.txPackets record.rxPackets (anchorsOf front))
    (hgrown : before <+: after) (hmore : endsOf more = []) :
    ∀ front record back, labels ++ more = front ++ .ended record :: back →
      after.count record.flowId ≤ 1 →
        Counts record.flowId record.txPackets record.rxPackets (anchorsOf front) := by
  intro front record back hsplit hcount
  obtain ⟨rest, hfront, -⟩ | ⟨rest, -, hextra⟩ := split_append hsplit
  · exact h front record rest hfront
      (Nat.le_trans (hgrown.sublist.count_le record.flowId) hcount)
  · rw [hextra, endsOf_append] at hmore
    simp [endsOf] at hmore

/-- A move that neither counts a packet nor ends a flow. -/
theorem PacketAccount.silent {labels more : List Label} {before after : Books}
    (h : PacketAccount labels before) (hids : after.ids = before.ids)
    (hended : after.endedIds = before.endedIds) (hanchors : anchorsOf more = [])
    (hends : endsOf more = [])
    (haccounts : ∀ account ∈ after.accounts, ∃ old ∈ before.accounts, old.id = account.id ∧
      old.active = account.active ∧ old.txPackets = account.txPackets ∧
        old.rxPackets = account.rxPackets) :
    PacketAccount (labels ++ more) after := by
  refine ⟨?_, ?_, ?_, ?_⟩
  · rw [endsOf_append, hends, List.append_nil, hended]
    exact h.ended
  · intro account haccount hcount hactive
    obtain ⟨old, hold, hid, holdActive, htx, hrx⟩ := haccounts account haccount
    rw [hids, ← hid] at hcount
    rw [anchorsOf_append, hanchors, List.append_nil, ← hid, ← htx, ← hrx]
    exact h.counted old hold hcount (holdActive.trans hactive)
  · rw [hids, anchorsOf_append, hanchors, List.append_nil]
    exact h.absent
  · exact written_append h.written (hids ▸ List.prefix_refl _) hends

theorem PacketAccount.open {labels : List Label} {before : Books} (h : PacketAccount labels before)
    (record : FlowStart) :
    PacketAccount (labels ++ [])
      { before with
        accounts := before.accounts ++ [Account.fresh record.flowId]
        out := before.out ++ [.flowStart record] } := by
  have hids : Books.ids { before with
      accounts := before.accounts ++ [Account.fresh record.flowId]
      out := before.out ++ [.flowStart record] } = before.ids ++ [record.flowId] := by
    simp [Books.ids, Account.fresh]
  refine ⟨?_, ?_, ?_, ?_⟩
  · rw [List.append_nil]
    simpa [Books.endedIds, Account.fresh] using h.ended
  · rw [hids, List.append_nil]
    intro account haccount hcount hactive
    obtain hold | hnew := List.mem_append.mp haccount
    · refine h.counted account hold (Nat.le_trans ?_ hcount) hactive
      exact (List.sublist_append_left _ _).count_le _
    · rw [List.mem_singleton.mp hnew] at hcount ⊢
      have hfresh : record.flowId ∉ before.ids := by
        intro hmem
        have hpos := List.count_pos_iff.mpr hmem
        simp only [Account.fresh, List.count_append, List.count_singleton_self] at hcount
        omega
      have hnone (direction : Direction) :
          (anchorsOf labels).count (record.flowId, direction) = 0 :=
        List.count_eq_zero.mpr (h.absent record.flowId hfresh direction)
      refine ⟨?_, ?_⟩
      · exact (congrArg UInt64.ofNat (hnone .tx)).symm
      · exact (congrArg UInt64.ofNat (hnone .rx)).symm
  · rw [hids, List.append_nil]
    intro flowId hflowId direction
    exact h.absent flowId (fun hmem => hflowId (List.mem_append_left _ hmem)) direction
  · rw [hids]
    exact written_append h.written (List.prefix_append _ _) rfl

/-- Changing an account that stays in progress, or stays ended, ends no flow. -/
theorem endedIds_set_same {accounts : List Account} {place : Nat} {account new : Account}
    (haccount : accounts[place]? = some account) (hid : new.id = account.id)
    (hactive : new.active = account.active) :
    ((accounts.set place new).filter fun account => !account.active).map Account.id =
      (accounts.filter fun account => !account.active).map Account.id := by
  obtain ⟨front, back, rfl, hset⟩ := split_at haccount
  rw [hset]
  simp only [List.filter_append, List.filter_cons, hactive, List.map_append]
  split
  · rw [List.map_cons, List.map_cons, hid]
  · rfl

/-- Ending a flow in progress ends one flow. -/
theorem endedIds_set_ended {accounts : List Account} {place : Nat} {account : Account}
    (haccount : accounts[place]? = some account) (hactive : account.active = true) :
    (((accounts.set place account.ended).filter fun account => !account.active).map
      Account.id).Perm
        (account.id :: (accounts.filter fun account => !account.active).map Account.id) := by
  obtain ⟨front, back, rfl, hset⟩ := split_at haccount
  rw [hset]
  simp only [Account.ended, List.filter_append, List.filter_cons, hactive, Bool.not_false,
    Bool.not_true, if_true, Bool.false_eq_true, if_false, List.map_append, List.map_cons]
  exact List.perm_middle

@[simp] theorem Account.count_active (account : Account) (direction : Direction) :
    (account.count direction).active = account.active := by
  cases direction <;> rfl

theorem Counts.count {account : Account} {anchors : List (UInt64 × Direction)}
    (direction : Direction) (h : Counts account.id account.txPackets account.rxPackets anchors) :
    Counts account.id (account.count direction).txPackets (account.count direction).rxPackets
      (anchors ++ [(account.id, direction)]) := by
  obtain ⟨htx, hrx⟩ := h
  have hsum (total : Nat) : UInt64.ofNat (total + 1) = UInt64.ofNat total + 1 := by
    rw [UInt64.ofNat_add]
    rfl
  cases direction <;> refine ⟨?_, ?_⟩ <;>
    simp [Account.count, List.count_append, htx, hrx, hsum]

theorem Counts.other {flowId txPackets rxPackets other : UInt64}
    {anchors : List (UInt64 × Direction)} (direction : Direction)
    (h : Counts flowId txPackets rxPackets anchors) (hother : other ≠ flowId) :
    Counts flowId txPackets rxPackets (anchors ++ [(other, direction)]) := by
  obtain ⟨htx, hrx⟩ := h
  refine ⟨?_, ?_⟩ <;> simp [List.count_append, htx, hrx, hother]

/-- A packet is counted. -/
theorem PacketAccount.anchor {labels : List Label} {before : Books} {place : Nat}
    {account : Account} {direction : Direction} (h : PacketAccount labels before)
    (haccount : before.accounts[place]? = some account) :
    PacketAccount (labels ++ [.anchored account.id direction])
      { before with accounts := before.accounts.set place (account.count direction) } := by
  have hids : Books.ids
      { before with accounts := before.accounts.set place (account.count direction) } =
        before.ids := map_set Account.id haccount (Account.count_id _ _)
  have hmem : account.id ∈ before.ids := List.mem_map_of_mem (List.mem_of_getElem? haccount)
  have hanchors : anchorsOf (labels ++ [.anchored account.id direction]) =
      anchorsOf labels ++ [(account.id, direction)] := anchorsOf_append _ _
  refine ⟨?_, ?_, ?_, ?_⟩
  · rw [endsOf_append]
    have hended := endedIds_set_same haccount (Account.count_id account direction)
      (Account.count_active account direction)
    rw [Books.endedIds, hended, List.map_append]
    exact (List.append_nil ((endsOf labels).map FlowEnd.flowId)).symm ▸ h.ended
  · rw [hids, hanchors]
    intro other hother hcount hactive
    obtain ⟨i, hi⟩ := List.mem_iff_getElem?.mp hother
    obtain ⟨-, rfl⟩ | ⟨hne, hi⟩ := getElem?_set_cases hi
    · rw [Account.count_id] at hcount ⊢
      rw [Account.count_active] at hactive
      exact (h.counted account (List.mem_of_getElem? haccount) hcount hactive).count direction
    · have hother : account.id ≠ other.id := fun heq =>
        hne (count_places hcount hi haccount rfl heq)
      exact (h.counted other (List.mem_of_getElem? hi) hcount hactive).other direction hother
  · rw [hids, hanchors]
    intro flowId hflowId other hother
    obtain hold | hnew := List.mem_append.mp hother
    · exact h.absent flowId hflowId other hold
    · obtain ⟨rfl, -⟩ := Prod.mk.inj (List.mem_singleton.mp hnew)
      exact hflowId hmem
  · rw [hids]
    exact written_append h.written (List.prefix_refl _) rfl

theorem PacketAccount.end {labels : List Label} {before : Books} {place : Nat}
    {account : Account} {record : FlowEnd} (h : PacketAccount labels before)
    (haccount : before.accounts[place]? = some account) (hactive : account.active = true)
    (hrecord : account.Reports record) :
    PacketAccount (labels ++ [.ended record])
      { before with
        accounts := before.accounts.set place account.ended
        out := before.out ++ [.flowEnd record] } := by
  have hids : Books.ids { before with
      accounts := before.accounts.set place account.ended
      out := before.out ++ [.flowEnd record] } = before.ids := map_set Account.id haccount rfl
  have hanchors : anchorsOf (labels ++ [.ended record]) = anchorsOf labels := by
    rw [anchorsOf_append]
    exact List.append_nil _
  have hends : endsOf (labels ++ [.ended record]) = endsOf labels ++ [record] := endsOf_append _ _
  refine ⟨?_, ?_, ?_, ?_⟩
  · rw [hends, List.map_append, List.map_singleton, hrecord.flowId]
    exact ((List.perm_append_singleton _ _).trans (h.ended.cons _)).trans
      (endedIds_set_ended haccount hactive).symm
  · rw [hids, hanchors]
    intro other hother hcount hotherActive
    obtain hold | rfl := mem_set hother
    · exact h.counted other hold hcount hotherActive
    · cases hotherActive
  · rw [hids, hanchors]
    exact h.absent
  · rw [hids]
    intro front ended back hsplit hcount
    obtain ⟨rest, hfront, -⟩ | ⟨rest, rfl, hextra⟩ := split_append hsplit
    · exact h.written front ended rest hfront hcount
    · cases rest with
      | nil =>
          cases hextra
          rw [hrecord.flowId] at hcount
          have hcounts := h.counted account (List.mem_of_getElem? haccount) hcount hactive
          rw [List.append_nil, hrecord.flowId, hrecord.txPackets, hrecord.rxPackets]
          exact hcounts
      | cons first rest =>
          have hlength := congrArg List.length hextra
          simp at hlength

theorem Settles.packets {accounts after : List Account} {call : PendingIo} {bytes flowId : UInt64}
    (h : Settles accounts call bytes flowId after) :
    (after.filter fun account => !account.active).map Account.id =
        (accounts.filter fun account => !account.active).map Account.id ∧
      ∀ account ∈ after, ∃ old ∈ accounts, old.id = account.id ∧ old.active = account.active ∧
        old.txPackets = account.txPackets ∧ old.rxPackets = account.rxPackets := by
  cases h with
  | unlinked => exact ⟨rfl, fun account haccount => ⟨account, haccount, rfl, rfl, rfl, rfl⟩⟩
  | @credited _ old hold =>
      have hcredit : (old.credit call.tx bytes).active = old.active ∧
          (old.credit call.tx bytes).txPackets = old.txPackets ∧
          (old.credit call.tx bytes).rxPackets = old.rxPackets := by
        unfold Account.credit
        split <;> exact ⟨rfl, rfl, rfl⟩
      obtain ⟨hactive, htx, hrx⟩ := hcredit
      refine ⟨endedIds_set_same hold (Account.credit_id _ _ _) hactive, fun account haccount => ?_⟩
      obtain hmem | rfl := mem_set haccount
      · exact ⟨account, hmem, rfl, rfl, rfl, rfl⟩
      · exact ⟨old, List.mem_of_getElem? hold, (Account.credit_id _ _ _).symm, hactive.symm,
          htx.symm, hrx.symm⟩

theorem Move.packetAccount {labels more : List Label} {before after : Books}
    (h : PacketAccount labels before) (hmove : Move before more after) :
    PacketAccount (labels ++ more) after := by
  have hsame (account : Account) (haccount : account ∈ before.accounts) :
      ∃ old ∈ before.accounts, old.id = account.id ∧ old.active = account.active ∧
        old.txPackets = account.txPackets ∧ old.rxPackets = account.rxPackets :=
    ⟨account, haccount, rfl, rfl, rfl, rfl⟩
  cases hmove with
  | note | exportCall | beginCall | link | strayLink => exact h.silent rfl rfl rfl rfl hsame
  | openFlow record => exact h.open record
  | anchor haccount => exact h.anchor haccount
  | endFlow haccount hactive hrecord => exact h.end haccount hactive hrecord
  | endCall hcall hactive hsettles hrecords =>
      obtain ⟨hended, haccounts⟩ := hsettles.packets
      exact h.silent hsettles.ids hended rfl rfl haccounts

/-! ## Records and steps -/

theorem moves_written {before after : State} {labels front back : List Label} {record : FlowEnd}
    (h : Moves Move before.books labels after.books)
    (hlabels : labels = front ++ .ended record :: back) :
    .flowEnd record ∈ after.out.drop before.out.length := by
  obtain ⟨records, hout, hends, -⟩ := moves_out h
  have hmem : record ∈ flowEnds records := by
    rw [hends, hlabels, endsOf_append]
    exact List.mem_append_right _ List.mem_cons_self
  obtain ⟨written, hwritten, heq⟩ := List.mem_filterMap.mp hmem
  have hrecord : written = .flowEnd record := by
    cases written with
    | flowEnd fields => exact congrArg Record.flowEnd (Option.some.inj heq)
    | _ => cases heq
  have hdrop : after.out.drop before.out.length = records := by
    rw [show after.out = before.out ++ records from hout, List.drop_left]
  rw [hdrop, ← hrecord]
  exact hwritten

def WrittenAfter (session : Session) (inputs : List Input) (now eventCount : UInt64)
    (before : List Input) (record : FlowEnd) : Prop :=
  (∃ input after, inputs = before ++ input :: after ∧
      .flowEnd record ∈ (reached session (before ++ [input])).out.drop
        (reached session before).out.length) ∨
    (before = inputs ∧
      .flowEnd record ∈ (close session (reached session inputs) now eventCount).drop
        (reached session inputs).out.length)

/-- The packets seen in the moves before a flow ended are those of the inputs before the one that
ended it. -/
def Bounded (session : Session) (inputs : List Input) (labels : List Label) : Prop :=
  ∀ front record back, labels = front ++ .ended record :: back →
    ∃ before input after, inputs = before ++ input :: after ∧
      .flowEnd record ∈ (reached session (before ++ [input])).out.drop
        (reached session before).out.length ∧
      anchorsOf front = attributions session before

/-- No packet is counted in the step that ends a flow. -/
theorem bounded_concat {session : Session} {inputs : List Input} {input : Input}
    {labels more : List Label} (h : Bounded session inputs labels)
    (hrun : RunMoves session inputs labels) (hmoves : Moves Move (reached session inputs).books more
      (step session (reached session inputs) input).books)
    (hobserved : Observed session (reached session inputs) input more) :
    Bounded session (inputs ++ [input]) (labels ++ more) := by
  intro front record back hsplit
  obtain ⟨rest, hfront, -⟩ | ⟨rest, rfl, hextra⟩ := split_append hsplit
  · obtain ⟨before, next, after, rfl, hwritten, hanchors⟩ := h front record rest hfront
    exact ⟨before, next, after ++ [input], by simp, hwritten, hanchors⟩
  · refine ⟨inputs, input, [], rfl, ?_, ?_⟩
    · rw [reached_concat]
      exact moves_written hmoves hextra
    · have hnone : anchorsOf more = [] := by
        refine hobserved.apart.resolve_left fun hends => ?_
        rw [hextra, endsOf_append] at hends
        simp [endsOf] at hends
      rw [hextra, anchorsOf_append] at hnone
      rw [anchorsOf_append, hrun.anchors, (List.append_eq_nil_iff.mp hnone).1, List.append_nil]

/-- Every run is a sequence of moves whose ends agree with its steps. -/
theorem reached_bounded (session : Session) (inputs : List Input) :
    ∃ labels, RunMoves session inputs labels ∧ Bounded session inputs labels := by
  induction inputs using List.reverseRecOn with
  | nil => exact ⟨[], RunMoves.nil session, fun front record back h => by simp at h⟩
  | append_singleton history input ih =>
      obtain ⟨labels, hlabels, hbounded⟩ := ih
      obtain ⟨more, hmoves, hobserved⟩ := step_moves (reached_sound session history) input
      exact ⟨labels ++ more, hlabels.concat hmoves hobserved,
        bounded_concat hbounded hlabels hmoves hobserved⟩

theorem moves_packetAccount {labels more : List Label} {before after : Books}
    (haccount : PacketAccount labels before) (h : Moves Move before more after) :
    PacketAccount (labels ++ more) after :=
  h.history PacketAccount Move.packetAccount haccount

theorem endsOf_split {labels : List Label} {record : FlowEnd} (h : record ∈ endsOf labels) :
    ∃ front back, labels = front ++ .ended record :: back := by
  obtain ⟨label, hlabel, heq⟩ := List.mem_filterMap.mp h
  have hended : label = .ended record := by
    cases label with
    | ended fields => exact congrArg Label.ended (Option.some.inj heq)
    | _ => cases heq
  obtain ⟨front, back, hsplit⟩ := List.append_of_mem hlabel
  exact ⟨front, back, hended ▸ hsplit⟩

theorem PacketAccount.single {labels : List Label} {books : Books} {record : FlowEnd}
    (h : PacketAccount labels books) (hended : ∀ account ∈ books.accounts, account.active = false)
    (hsingle : (endsOf labels).filter (fun other => other.flowId = record.flowId) = [record]) :
    books.ids.count record.flowId ≤ 1 := by
  have hall : books.endedIds = books.ids := by
    unfold Books.endedIds Books.ids
    rw [List.filter_eq_self.mpr]
    intro account haccount
    rw [hended account haccount]
    rfl
  rw [← hall, ← h.ended.count_eq, List.count, List.countP_map, List.countP_eq_length_filter]
  have hlength := congrArg List.length hsingle
  exact Nat.le_of_eq hlength

/-- The one `flow_end` record of a flow reports the anchor packets that were attributed to the flow
before the step that writes the record. -/
theorem flow_packets (session : Session) (inputs : List Input) (now eventCount : UInt64)
    (record : FlowEnd) (hsingle : flowEndsOf record.flowId
      (close session (reached session inputs) now eventCount) = [record]) :
    ∃ before, WrittenAfter session inputs now eventCount before record ∧
      Counts record.flowId record.txPackets record.rxPackets (attributions session before) := by
  obtain ⟨labels, hlabels, hbounded⟩ := reached_bounded session inputs
  have hsound := reached_sound session inputs
  obtain ⟨⟨exports, ends, hclose⟩, -⟩ := closeTables_moves session hsound now
  have hended := closeTables_ended session (reached session inputs) now
  have haccount := moves_packetAccount (moves_packetAccount PacketAccount.empty hlabels.moves)
    hclose
  rw [List.nil_append] at haccount
  obtain ⟨records, hout, hends, -⟩ := moves_out (hlabels.moves.trans hclose)
  have hrecords : flowEnds (close session (reached session inputs) now eventCount) =
      endsOf (labels ++ (exportLabels exports ++ endLabels ends)) := by
    unfold close
    rw [flowEnds_append, ← hends]
    exact (List.append_nil _).trans (congrArg flowEnds hout)
  unfold flowEndsOf at hsingle
  rw [hrecords] at hsingle
  have hmem : record ∈ endsOf (labels ++ (exportLabels exports ++ endLabels ends)) := by
    have hfilter := List.mem_singleton_self record
    rw [← hsingle] at hfilter
    exact (List.mem_filter.mp hfilter).1
  obtain ⟨front, back, hsplit⟩ := endsOf_split hmem
  have haccounts : ∀ account ∈ (closeTables session (reached session inputs) now).books.accounts,
      account.active = false := by
    intro account hmem
    obtain ⟨flow, hflow, rfl⟩ := List.mem_map.mp hmem
    exact hended flow hflow
  have hcounts :=
    haccount.written front record back hsplit (haccount.single haccounts hsingle)
  obtain ⟨rest, hfront, -⟩ | ⟨rest, rfl, hextra⟩ := split_append hsplit
  · obtain ⟨before, input, after, hinputs, hwritten, hanchors⟩ := hbounded front record rest hfront
    rw [hanchors] at hcounts
    exact ⟨before, Or.inl ⟨input, after, hinputs, hwritten⟩, hcounts⟩
  · refine ⟨inputs, Or.inr ⟨rfl, ?_⟩, ?_⟩
    · have hwritten := moves_written hclose hextra
      unfold close
      rw [List.drop_append]
      exact List.mem_append_left _ hwritten
    · have hnone : anchorsOf (exportLabels exports ++ endLabels ends) = [] := by
        rw [anchorsOf_append, (projections_exportLabels exports).1, (projections_endLabels ends).1]
        rfl
      rw [hextra, anchorsOf_append] at hnone
      rw [anchorsOf_append, hlabels.anchors, (List.append_eq_nil_iff.mp hnone).1,
        List.append_nil] at hcounts
      exact hcounts

/-- The totals of the one `flow_end` record of each flow are the anchor packets of the whole run. -/
def ReportsAllPackets (session : Session) (inputs : List Input) (now eventCount : UInt64) : Prop :=
  ∀ record, flowEndsOf record.flowId (close session (reached session inputs) now eventCount) =
    [record] → Counts record.flowId record.txPackets record.rxPackets (attributions session inputs)

/-- A UDP packet, the tick that ends its flow 30 seconds later, and an earlier packet of the flow
that is delivered after the tick. -/
def tickRun : List Input :=
  [smallInput 0 ipprotoUdp .tx 100, .tick 40000000000, smallInput 0 ipprotoUdp .tx 200]

def tickEnd : FlowEnd :=
  (flowEnds (close smallSession (reached smallSession tickRun) 50000000000 3)).head
    (by decide +kernel)

theorem flow_packets_tick :
    flowEndsOf tickEnd.flowId
        (close smallSession (reached smallSession tickRun) 50000000000 3) = [tickEnd] ∧
      ∃ before, WrittenAfter smallSession tickRun 50000000000 3 before tickEnd ∧
        Counts tickEnd.flowId tickEnd.txPackets tickEnd.rxPackets
          (attributions smallSession before) := by
  have hsingle : flowEndsOf tickEnd.flowId
      (close smallSession (reached smallSession tickRun) 50000000000 3) = [tickEnd] := by
    decide +kernel
  exact ⟨hsingle, flow_packets smallSession tickRun 50000000000 3 tickEnd hsingle⟩

/-- Both packets are attributed to the flow, and its `flow_end` record counts one. -/
theorem late_packet_not_reported : ¬ ReportsAllPackets smallSession tickRun 50000000000 3 := by
  intro hall
  have hsingle : flowEndsOf tickEnd.flowId
      (close smallSession (reached smallSession tickRun) 50000000000 3) = [tickEnd] := by
    decide +kernel
  have hdiffer : tickEnd.txPackets ≠
      UInt64.ofNat ((attributions smallSession tickRun).count (tickEnd.flowId, .tx)) := by
    decide +kernel
  exact hdiffer (hall tickEnd hsingle).tx

end Anettrace.Export
