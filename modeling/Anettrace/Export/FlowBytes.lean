import Anettrace.Export.Simulation

/-!
# The bytes of a flow

The byte totals of a `flow_end` record are the bytes of the completions written before it that name
the flow. A completion that is not associated names no flow, and a completion credits at most one.
-/

namespace Anettrace.Export

open Library.Labelled Library.Run Library.Table

/-! ## Records of bytes -/

def flowIdsOf (out : List Record) : List UInt64 :=
  out.filterMap fun
    | .flowStart start => some start.flowId
    | _ => none

def recordBytes (tx : Bool) (flowId : UInt64) : Record → Nat
  | .ioComplete complete =>
      if complete.tx = tx ∧ complete.flowId = flowId then complete.bytes.toNat else 0
  | _ => 0

def completedBytes (tx : Bool) (flowId : UInt64) (out : List Record) : Nat :=
  (out.map (recordBytes tx flowId)).sum

/-- The flows of a capture have different identities, none of which is the 0 that stands for no
flow. -/
def CollisionFree (ids : List UInt64) : Prop :=
  ids.Nodup ∧ 0 ∉ ids

instance (ids : List UInt64) : Decidable (CollisionFree ids) :=
  inferInstanceAs (Decidable (ids.Nodup ∧ 0 ∉ ids))

/-- Byte totals agree with the completions that name the flow. -/
structure Agrees (flowId txBytes rxBytes : UInt64) (out : List Record) : Prop where
  tx : txBytes = UInt64.ofNat (completedBytes true flowId out)
  rx : rxBytes = UInt64.ofNat (completedBytes false flowId out)

/-- What a capture says about the bytes of its flows. -/
structure FlowBytes (out : List Record) : Prop where
  /-- The totals of a flow are the bytes completed before its end record. -/
  totals : ∀ before record after, out = before ++ .flowEnd record :: after →
    Agrees record.flowId record.txBytes record.rxBytes before
  /-- A completion that is not associated names no flow of the capture. -/
  unassociated : ∀ complete, .ioComplete complete ∈ out → complete.association ≠ .associated →
    complete.flowId ∉ flowIdsOf out
  /-- A completion that is associated names one flow of the capture. -/
  associated : ∀ complete, .ioComplete complete ∈ out → complete.association = .associated →
    (flowIdsOf out).count complete.flowId = 1

@[simp] theorem flowIdsOf_append (first second : List Record) :
    flowIdsOf (first ++ second) = flowIdsOf first ++ flowIdsOf second :=
  List.filterMap_append

@[simp] theorem completedBytes_append (tx : Bool) (flowId : UInt64) (first second : List Record) :
    completedBytes tx flowId (first ++ second) =
      completedBytes tx flowId first + completedBytes tx flowId second := by
  simp only [completedBytes, List.map_append, List.sum_append]

theorem Agrees.append {flowId txBytes rxBytes : UInt64} {out extra : List Record}
    (h : Agrees flowId txBytes rxBytes out) (hextra : ∀ tx, completedBytes tx flowId extra = 0) :
    Agrees flowId txBytes rxBytes (out ++ extra) := by
  refine ⟨?_, ?_⟩
  · rw [completedBytes_append, hextra, Nat.add_zero]
    exact h.tx
  · rw [completedBytes_append, hextra, Nat.add_zero]
    exact h.rx

/-! ## The invariant -/

/-- The association of a completion tells whether it names a flow. -/
structure Associates (complete : IoComplete) (ids : List UInt64) : Prop where
  associated : complete.association = .associated → complete.flowId ≠ 0
  unassociated : complete.association ≠ .associated → complete.flowId = 0
  known : complete.flowId = 0 ∨ complete.flowId ∈ ids

/-- What the books say about bytes. -/
structure ByteAccount (books : Books) : Prop where
  ids : flowIdsOf books.out = books.ids
  completes : ∀ complete, .ioComplete complete ∈ books.out → Associates complete books.ids
  active : CollisionFree books.ids → ∀ account ∈ books.accounts, account.active = true →
    Agrees account.id account.txBytes account.rxBytes books.out
  ended : CollisionFree books.ids → ∀ before record after,
    books.out = before ++ .flowEnd record :: after →
      Agrees record.flowId record.txBytes record.rxBytes before

theorem ByteAccount.empty : ByteAccount Books.empty :=
  ⟨rfl, by simp [Books.empty], by simp [Books.empty], by simp [Books.empty]⟩

/-- Fewer flows collide less. -/
theorem CollisionFree.ungrown {before after : List UInt64} (h : CollisionFree after)
    (hgrown : before <+: after) : CollisionFree before :=
  ⟨h.1.sublist hgrown.sublist, fun hzero => h.2 (hgrown.subset hzero)⟩

def Record.Silent : Record → Prop
  | .flowStart _ | .flowEnd _ | .ioComplete _ => False
  | _ => True

/-! ## Moves -/

theorem Associates.grow {complete : IoComplete} {before after : List UInt64}
    (h : Associates complete before) (hgrown : before <+: after) : Associates complete after :=
  ⟨h.associated, h.unassociated, h.known.imp_right fun hmem => hgrown.subset hmem⟩

/-- No completion names a flow that does not exist yet. -/
theorem completedBytes_fresh {out : List Record} {ids : List UInt64} {flowId : UInt64}
    (hcompletes : ∀ complete, .ioComplete complete ∈ out → Associates complete ids)
    (hfresh : flowId ∉ ids) (hzero : flowId ≠ 0) (tx : Bool) :
    completedBytes tx flowId out = 0 := by
  refine List.sum_eq_zero_iff_forall_eq_nat.mpr fun bytes hbytes => ?_
  obtain ⟨record, hrecord, rfl⟩ := List.mem_map.mp hbytes
  cases record with
  | ioComplete complete =>
      refine if_neg fun hsame => ?_
      obtain hnone | hknown := (hcompletes complete hrecord).known
      · exact hzero (hsame.2.symm.trans hnone)
      · exact hfresh (hsame.2 ▸ hknown)
  | _ => rfl

/-- A move that writes one silent record, or none, and changes no byte total of a flow in
progress. -/
theorem ByteAccount.silent {before after : Books} {extra : List Record} (h : ByteAccount before)
    (hids : after.ids = before.ids) (hout : after.out = before.out ++ extra)
    (hsilent : ∀ record ∈ extra, record.Silent)
    (hactive : ∀ account ∈ after.accounts, account.active = true →
      ∃ old ∈ before.accounts, old.active = true ∧ old.id = account.id ∧
        old.txBytes = account.txBytes ∧ old.rxBytes = account.rxBytes) :
    ByteAccount after := by
  have hflows : flowIdsOf extra = [] := List.filterMap_eq_nil_iff.mpr fun record hrecord => by
    have := hsilent record hrecord
    cases record <;> first | rfl | exact this.elim
  have hbytes (tx : Bool) (flowId : UInt64) : completedBytes tx flowId extra = 0 := by
    refine List.sum_eq_zero_iff_forall_eq_nat.mpr fun bytes hmem => ?_
    obtain ⟨record, hrecord, rfl⟩ := List.mem_map.mp hmem
    have := hsilent record hrecord
    cases record <;> first | rfl | exact this.elim
  refine ⟨?_, ?_, ?_, ?_⟩
  · rw [hout, flowIdsOf_append, hflows, List.append_nil, hids]
    exact h.ids
  · intro complete hcomplete
    rw [hout] at hcomplete
    rw [hids]
    obtain hold | hnew := List.mem_append.mp hcomplete
    · exact h.completes complete hold
    · exact (hsilent _ hnew).elim
  · intro hfree account haccount haccountActive
    obtain ⟨old, hold, holdActive, hid, htx, hrx⟩ := hactive account haccount haccountActive
    rw [hids] at hfree
    rw [hout, ← hid, ← htx, ← hrx]
    exact (h.active hfree old hold holdActive).append fun tx => hbytes tx old.id
  · intro hfree front record back hsplit
    rw [hids] at hfree
    rw [hout] at hsplit
    obtain ⟨rest, hfront, -⟩ | ⟨rest, -, hextra⟩ := split_append hsplit
    · exact h.ended hfree front record rest hfront
    · have hmem : .flowEnd record ∈ extra :=
        hextra ▸ List.mem_append_right rest List.mem_cons_self
      exact (hsilent _ hmem).elim

theorem ByteAccount.open {before : Books} (h : ByteAccount before) (record : FlowStart) :
    ByteAccount
      { before with
        accounts := before.accounts ++ [Account.fresh record.flowId]
        out := before.out ++ [.flowStart record] } := by
  have hids : Books.ids { before with
      accounts := before.accounts ++ [Account.fresh record.flowId]
      out := before.out ++ [.flowStart record] } = before.ids ++ [record.flowId] := by
    simp [Books.ids, Account.fresh]
  have hgrown : before.ids <+: before.ids ++ [record.flowId] := List.prefix_append _ _
  refine ⟨?_, ?_, ?_, ?_⟩
  · rw [hids, flowIdsOf_append, h.ids]
    rfl
  · intro complete hcomplete
    rw [hids]
    have hold : .ioComplete complete ∈ before.out := by simpa using hcomplete
    exact (h.completes complete hold).grow hgrown
  · rw [hids]
    intro hfree account haccount hactive
    have holdFree := hfree.ungrown hgrown
    obtain hold | hnew := List.mem_append.mp haccount
    · exact (h.active holdFree account hold hactive).append fun tx => rfl
    · rw [List.mem_singleton.mp hnew]
      have hfresh : record.flowId ∉ before.ids := fun hmem =>
        (List.nodup_append.mp hfree.1).2.2 _ hmem _ List.mem_cons_self rfl
      have hzero : record.flowId ≠ 0 := fun heq =>
        hfree.2 (List.mem_append_right _ (by simp [heq]))
      have hnone := completedBytes_fresh h.completes hfresh hzero
      refine Agrees.append ⟨?_, ?_⟩ fun tx => rfl
      · exact (congrArg UInt64.ofNat (hnone true)).symm
      · exact (congrArg UInt64.ofNat (hnone false)).symm
  · rw [hids]
    intro hfree front ended back hsplit
    obtain ⟨rest, hfront, -⟩ | ⟨rest, -, hextra⟩ := split_append hsplit
    · exact h.ended (hfree.ungrown hgrown) front ended rest hfront
    · have hmem : Record.flowEnd ended ∈ [Record.flowStart record] :=
        hextra ▸ List.mem_append_right rest List.mem_cons_self
      cases List.mem_singleton.mp hmem

theorem ByteAccount.end {before : Books} {place : Nat} {account : Account} {record : FlowEnd}
    (h : ByteAccount before) (haccount : before.accounts[place]? = some account)
    (hactive : account.active = true) (hrecord : account.Reports record) :
    ByteAccount
      { before with
        accounts := before.accounts.set place account.ended
        out := before.out ++ [.flowEnd record] } := by
  have hids : Books.ids { before with
      accounts := before.accounts.set place account.ended
      out := before.out ++ [.flowEnd record] } = before.ids := map_set Account.id haccount rfl
  refine ⟨?_, ?_, ?_, ?_⟩
  · rw [hids, flowIdsOf_append, h.ids]
    exact List.append_nil _
  · intro complete hcomplete
    rw [hids]
    exact h.completes complete (by simpa using hcomplete)
  · rw [hids]
    intro hfree other hother hotherActive
    obtain hold | rfl := mem_set hother
    · exact (h.active hfree other hold hotherActive).append fun tx => rfl
    · cases hotherActive
  · rw [hids]
    intro hfree front ended back hsplit
    obtain ⟨rest, hfront, -⟩ | ⟨rest, rfl, hextra⟩ := split_append hsplit
    · exact h.ended hfree front ended rest hfront
    · cases rest with
      | nil =>
          cases hextra
          have hagrees := h.active hfree account (List.mem_of_getElem? haccount) hactive
          rw [List.append_nil, hrecord.flowId, hrecord.txBytes, hrecord.rxBytes]
          exact hagrees
      | cons first rest =>
          have hlength := congrArg List.length hextra
          simp at hlength

/-- What a completion adds to the totals of a flow. -/
theorem Agrees.complete {flowId txBytes rxBytes : UInt64} {out : List Record} {ioEnd : IoEnd}
    {complete : IoComplete} (h : Agrees flowId txBytes rxBytes out)
    (hflow : complete.flowId = flowId) :
    Agrees flowId (if complete.tx then txBytes + complete.bytes else txBytes)
      (if complete.tx then rxBytes else rxBytes + complete.bytes)
      (out ++ [.ioEnd ioEnd, .ioComplete complete]) := by
  have hadded (tx : Bool) : completedBytes tx flowId [.ioEnd ioEnd, .ioComplete complete] =
      if complete.tx = tx then complete.bytes.toNat else 0 := by
    simp [completedBytes, recordBytes, hflow]
  have hsum (total : Nat) :
      UInt64.ofNat (total + complete.bytes.toNat) = UInt64.ofNat total + complete.bytes := by
    rw [UInt64.ofNat_add, UInt64.ofNat_toNat]
  obtain ⟨htx, hrx⟩ := h
  cases hdirection : complete.tx with
  | true =>
      refine ⟨?_, ?_⟩
      · rw [completedBytes_append, hadded, hdirection, if_pos rfl, if_pos rfl, hsum, htx]
      · rw [completedBytes_append, hadded, hdirection, if_pos rfl, if_neg (by decide),
          Nat.add_zero, hrx]
  | false =>
      refine ⟨?_, ?_⟩
      · rw [completedBytes_append, hadded, hdirection, if_neg Bool.false_ne_true,
          if_neg Bool.false_ne_true, Nat.add_zero, htx]
      · rw [completedBytes_append, hadded, hdirection, if_neg Bool.false_ne_true, if_pos rfl, hsum,
          hrx]

theorem completedBytes_other {flowId : UInt64} {ioEnd : IoEnd} {complete : IoComplete}
    (hflow : complete.flowId ≠ flowId) (tx : Bool) :
    completedBytes tx flowId [.ioEnd ioEnd, .ioComplete complete] = 0 := by
  simp [completedBytes, recordBytes, hflow]

/-- The association of a completion follows from what the call was tied to. -/
theorem Settles.associates {accounts after : List Account} {call : PendingIo} {ioEnd : IoEnd}
    {complete : IoComplete} (h : Settles accounts call complete.bytes complete.flowId after)
    (hclear : call.flowAmbiguous = true → call.flowId = 0)
    (hknown : call.flowId = 0 ∨ call.flowId ∈ accounts.map Account.id)
    (hrecords : EndRecords call ioEnd complete) :
    Associates complete (accounts.map Account.id) := by
  have hassociation := hrecords.completeAssociation
  simp only [PendingIo.association] at hassociation
  refine ⟨fun hassociated hzero => ?_, fun hunassociated => ?_, ?_⟩
  · rw [hassociation, hzero] at hassociated
    split at hassociated
    · cases hassociated
    · cases hassociated
  · cases hambiguous : call.flowAmbiguous with
    | true => exact (h.ambiguous hclear hambiguous).1
    | false =>
        by_contra hne
        rw [hambiguous, if_neg Bool.false_ne_true, if_pos hne] at hassociation
        exact hunassociated hassociation
  · cases h with
    | credited haccount _ _ hflow =>
        exact Or.inr (hflow ▸ List.mem_map_of_mem (List.mem_of_getElem? haccount))
    | unlinked hflow => exact hflow ▸ hknown

theorem ByteAccount.finish {before : Books} {place : Nat} {call : PendingIo}
    {accounts : List Account} {ioEnd : IoEnd} {complete : IoComplete} (h : ByteAccount before)
    (hsound : before.Sound) (hcall : before.calls[place]? = some call)
    (hactive : call.active = true)
    (hsettles : Settles before.accounts call complete.bytes complete.flowId accounts)
    (hrecords : EndRecords call ioEnd complete) :
    ByteAccount
      { accounts := accounts
        calls := before.calls.set place { call with flowId := complete.flowId, active := false }
        out := before.out ++ [.ioEnd ioEnd, .ioComplete complete] } := by
  have hmem := List.mem_of_getElem? hcall
  have hids : Books.ids
      { accounts := accounts
        calls := before.calls.set place { call with flowId := complete.flowId, active := false }
        out := before.out ++ [.ioEnd ioEnd, .ioComplete complete] } = before.ids := hsettles.ids
  refine ⟨?_, ?_, ?_, ?_⟩
  · rw [hids, flowIdsOf_append, h.ids]
    exact List.append_nil _
  · intro other hother
    rw [hids]
    obtain hold | hnew := List.mem_append.mp hother
    · exact h.completes other hold
    · have heq : other = complete := by simpa using hnew
      rw [heq]
      exact hsettles.associates (hsound.clear call hmem hactive) (hsound.known call hmem hactive)
        hrecords
  · rw [hids]
    intro hfree account haccount haccountActive
    cases hsettles with
    | @credited credited old hold holdActive hclear hflow =>
        obtain ⟨i, hi⟩ := List.mem_iff_getElem?.mp haccount
        obtain ⟨-, rfl⟩ | ⟨hne, hi⟩ := getElem?_set_cases hi
        · have hagrees := h.active hfree old (List.mem_of_getElem? hold) holdActive
          have hcomplete := @Agrees.complete _ _ _ _ ioEnd _ hagrees hflow.symm
          rw [Account.credit_id, ← hrecords.tx]
          cases hdirection : complete.tx <;> rw [hdirection] at hcomplete <;> exact hcomplete
        · have hother : complete.flowId ≠ account.id := fun heq =>
            hne (nodup_places hfree.1 hi hold (heq.symm.trans hflow.symm))
          exact (h.active hfree account (List.mem_of_getElem? hi) haccountActive).append
            (completedBytes_other hother)
    | unlinked _ hnone =>
        have hother : complete.flowId ≠ account.id := by
          intro heq
          have hzero : complete.flowId ≠ 0 := fun hzero =>
            hfree.2 (hzero ▸ heq ▸ List.mem_map_of_mem haccount)
          exact hnone hzero account haccount haccountActive heq.symm
        exact (h.active hfree account haccount haccountActive).append
          (completedBytes_other hother)
  · rw [hids]
    intro hfree front ended back hsplit
    obtain ⟨rest, hfront, -⟩ | ⟨rest, -, hextra⟩ := split_append hsplit
    · exact h.ended hfree front ended rest hfront
    · have hend : Record.flowEnd ended ∈ [Record.ioEnd ioEnd, .ioComplete complete] :=
        hextra ▸ List.mem_append_right rest List.mem_cons_self
      simp at hend

theorem Move.byteAccount {before after : Books} {labels : List Label}
    (h : ByteAccount before ∧ before.Sound) (hmove : Move before labels after) :
    ByteAccount after ∧ after.Sound := by
  refine ⟨?_, hmove.sound h.2⟩
  obtain ⟨h, hsound⟩ := h
  have hsame (account : Account) (haccount : account ∈ before.accounts)
      (hactive : account.active = true) : ∃ old ∈ before.accounts, old.active = true ∧
        old.id = account.id ∧ old.txBytes = account.txBytes ∧ old.rxBytes = account.rxBytes :=
    ⟨account, haccount, hactive, rfl, rfl, rfl⟩
  have hsilent {record : Record} (hrecord : record.Silent) :
      ∀ other ∈ [record], other.Silent := by
    intro other hother
    rw [List.mem_singleton.mp hother]
    exact hrecord
  cases hmove with
  | note record => exact h.silent rfl rfl (hsilent trivial) hsame
  | exportCall record => exact h.silent rfl rfl (hsilent trivial) hsame
  | beginCall => exact h.silent rfl rfl (hsilent trivial) hsame
  | link record => exact h.silent rfl rfl (hsilent trivial) hsame
  | strayLink record => exact h.silent rfl rfl (hsilent trivial) hsame
  | @anchor _ account direction haccount =>
      refine h.silent (map_set Account.id haccount (Account.count_id _ _))
        (List.append_nil _).symm (fun _ hnone => nomatch hnone) fun other hother hactive => ?_
      obtain hold | rfl := mem_set hother
      · exact hsame other hold hactive
      · refine ⟨account, List.mem_of_getElem? haccount, ?_⟩
        cases direction <;> exact ⟨hactive, rfl, rfl, rfl⟩
  | openFlow record => exact h.open record
  | endFlow haccount hactive hrecord => exact h.end haccount hactive hrecord
  | endCall hcall hactive hsettles hrecords => exact h.finish hsound hcall hactive hsettles hrecords

/-! ## Runs -/

theorem moves_byteAccount {labels : List Label} {before after : Books}
    (haccount : ByteAccount before) (hsound : before.Sound) (h : Moves Move before labels after) :
    ByteAccount after := by
  have hinv := h.preserve (fun books => ByteAccount books ∧ books.Sound) Move.byteAccount
    ⟨haccount, hsound⟩
  exact hinv.1

theorem closeTables_byteAccount (session : Session) (inputs : List Input) (now : UInt64) :
    ByteAccount (closeTables session (reached session inputs) now).books := by
  obtain ⟨labels, hlabels⟩ := reached_moves session inputs
  have hsound := reached_sound session inputs
  obtain ⟨⟨_, _, hclose⟩, -⟩ := closeTables_moves session hsound now
  exact moves_byteAccount (moves_byteAccount ByteAccount.empty Books.sound_empty hlabels.moves)
    hsound hclose

/-- The end of a call changes one flow at most. -/
theorem pendingIoFinish_one (session : Session) (state : State) (io : Option Nat) (ts : UInt64)
    (result : Int64) (incomplete : Bool) :
    ∃ place : Nat, ∀ i : Nat, i ≠ place →
      (pendingIoFinish session state io ts result incomplete).flows[i]? = state.flows[i]? := by
  unfold pendingIoFinish
  split
  case h_1 place pending _ _ =>
    split
    · exact ⟨0, fun _ _ => rfl⟩
    · dsimp only
      split
      case h_1 flow _ _ _ =>
        exact ⟨flow, fun i hi => List.getElem?_set_ne hi.symm⟩
      case h_2 => exact ⟨0, fun _ _ => rfl⟩
  case h_2 => exact ⟨0, fun _ _ => rfl⟩

/-- In every run that ends with a close and whose flows have different identities, the totals of a
flow are the bytes of the completions that name it, and no completion adds to two flows. -/
theorem flow_bytes (session : Session) (inputs : List Input) (now eventCount : UInt64)
    (hfree : CollisionFree
      (flowIdsOf (close session (reached session inputs) now eventCount))) :
    FlowBytes (close session (reached session inputs) now eventCount) ∧
      ∀ before, before <+: inputs → ∀ io ts result incomplete, ∃ place : Nat, ∀ i : Nat,
        i ≠ place →
          (pendingIoFinish session (reached session before) io ts result incomplete).flows[i]? =
            (reached session before).flows[i]? := by
  refine ⟨?_, fun before _ io ts result incomplete =>
    pendingIoFinish_one session (reached session before) io ts result incomplete⟩
  have haccount := closeTables_byteAccount session inputs now
  have hids : flowIdsOf (close session (reached session inputs) now eventCount) =
      (closeTables session (reached session inputs) now).books.ids := by
    unfold close
    rw [flowIdsOf_append, ← haccount.ids]
    exact List.append_nil _
  have hcomplete {complete : IoComplete}
      (h : .ioComplete complete ∈ close session (reached session inputs) now eventCount) :
      Associates complete (closeTables session (reached session inputs) now).books.ids := by
    unfold close at h
    exact haccount.completes complete ((List.mem_append.mp h).resolve_right (by simp))
  rw [hids] at hfree
  refine ⟨?_, ?_, ?_⟩
  · intro before record after hsplit
    unfold close at hsplit
    obtain ⟨rest, hfront, -⟩ | ⟨rest, -, hextra⟩ := split_append hsplit
    · exact haccount.ended hfree before record rest hfront
    · have hmem : Record.flowEnd record ∈ rest ++ .flowEnd record :: after :=
        List.mem_append_right rest List.mem_cons_self
      rw [← hextra] at hmem
      cases List.mem_singleton.mp hmem
  · intro complete h hunassociated
    rw [hids, (hcomplete h).unassociated hunassociated]
    exact hfree.2
  · intro complete h hassociated
    rw [hids]
    obtain hzero | hknown := (hcomplete h).known
    · exact absurd hzero ((hcomplete h).associated hassociated)
    · rw [hfree.1.count, if_pos hknown]

/-- A TCP write of 5 bytes, and a packet of its connection. -/
def writeRun : List Input :=
  [smallInput 2 ipprotoTcp .tx 100, smallInput 0 ipprotoTcp .tx 110, .ret ⟨2, 7, 120, 5⟩ 24]

theorem flow_bytes_write :
    CollisionFree (flowIdsOf (close smallSession (reached smallSession writeRun) 200 3)) ∧
      FlowBytes (close smallSession (reached smallSession writeRun) 200 3) := by
  have hfree : CollisionFree
      (flowIdsOf (close smallSession (reached smallSession writeRun) 200 3)) := by
    decide +kernel
  exact ⟨hfree, (flow_bytes smallSession writeRun 200 3 hfree).1⟩

end Anettrace.Export
