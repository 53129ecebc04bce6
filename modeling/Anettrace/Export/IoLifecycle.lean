import Anettrace.Export.Simulation

/-!
# The life of a protocol call

Every accepted call is started, ended and completed exactly once, and a call that packets tied to
two flows belongs to none. The invariant is kept by the moves of the books; it accounts for the end
records against the start records and the calls in progress.
-/

namespace Anettrace.Export

open Library.Labelled Library.Run Library.Table

/-! ## Records of calls -/

def startsOf (out : List Record) : List UInt64 :=
  out.filterMap fun
    | .ioStart start => some start.ioId
    | _ => none

def ioEndsOf (out : List Record) : List UInt64 :=
  out.filterMap fun
    | .ioEnd ioEnd => some ioEnd.ioId
    | _ => none

def completesOf (out : List Record) : List UInt64 :=
  out.filterMap fun
    | .ioComplete complete => some complete.ioId
    | _ => none

/-- The flows that packets tie a call to. -/
def linkedFlows (ioId : UInt64) (out : List Record) : List UInt64 :=
  out.filterMap fun
    | .packetIoLink link => if link.ioId = ioId ∧ link.flowId ≠ 0 then some link.flowId else none
    | _ => none

def callsInProgress (calls : List PendingIo) : List UInt64 :=
  (calls.filter PendingIo.active).map PendingIo.ioId

/-- Packets tie a call to two different flows. -/
def TiedToTwo (ioId : UInt64) (records : List Record) : Prop :=
  ∃ first ∈ linkedFlows ioId records, ∃ second ∈ linkedFlows ioId records, first ≠ second

/-- The end record of a call between what is written before and after it: the completion follows at
once and agrees with it, and a call that packets tied to two flows after its start is tied to
none. -/
structure EndsWell (before : List Record) (ioEnd : IoEnd) (after : List Record) : Prop where
  spec : ∃ complete rest opened start links,
    after = .ioComplete complete :: rest ∧ complete.ioId = ioEnd.ioId ∧
      complete.flowId = ioEnd.flowId ∧ complete.association = ioEnd.association ∧
      before = opened ++ .ioStart start :: links ∧ start.ioId = ioEnd.ioId ∧
      (TiedToTwo ioEnd.ioId links → ioEnd.flowId = 0 ∧ ioEnd.association = .multipleFlows)

/-- What a capture says about the calls that were accepted. -/
structure IoLifecycle (accepted : List UInt64) (out : List Record) : Prop where
  /-- Every accepted call has one start record, in the order of acceptance. -/
  started : startsOf out = accepted
  /-- Every accepted call has one end record. -/
  ended : (ioEndsOf out).Perm accepted
  /-- An end record follows the start record of its call. -/
  ordered : ∀ front, front <+: out → ∀ ioId,
    (ioEndsOf front).count ioId ≤ (startsOf front).count ioId
  /-- Every end record is completed at once and agrees with the links of its call. -/
  paired : ∀ before ioEnd after, out = before ++ .ioEnd ioEnd :: after →
    EndsWell before ioEnd after
  /-- There are no other completions. -/
  completed : completesOf out = ioEndsOf out

/-! ## Records that are not about a call -/

/-- A record that neither starts nor ends a call nor ties it to a flow. -/
def Record.Quiet : Record → Prop
  | .ioStart _ | .ioEnd _ | .ioComplete _ => False
  | .packetIoLink link => link.flowId = 0
  | _ => True

def AllQuiet (records : List Record) : Prop :=
  ∀ record ∈ records, record.Quiet

section Projections

variable (first second : List Record) (ioId : UInt64)

@[simp] theorem startsOf_append : startsOf (first ++ second) = startsOf first ++ startsOf second :=
  List.filterMap_append

@[simp] theorem ioEndsOf_append : ioEndsOf (first ++ second) = ioEndsOf first ++ ioEndsOf second :=
  List.filterMap_append

@[simp] theorem completesOf_append :
    completesOf (first ++ second) = completesOf first ++ completesOf second :=
  List.filterMap_append

@[simp] theorem linkedFlows_append :
    linkedFlows ioId (first ++ second) = linkedFlows ioId first ++ linkedFlows ioId second :=
  List.filterMap_append

end Projections

theorem AllQuiet.nothing {records : List Record} (h : AllQuiet records) :
    startsOf records = [] ∧ ioEndsOf records = [] ∧ completesOf records = [] ∧
      ∀ ioId, linkedFlows ioId records = [] := by
  refine ⟨?_, ?_, ?_, fun ioId => ?_⟩ <;>
    refine List.filterMap_eq_nil_iff.mpr fun record hrecord => ?_ <;>
    have hquiet := h record hrecord <;>
    cases record <;> first | rfl | exact hquiet.elim | exact if_neg fun hlink => hlink.2 hquiet

theorem EndsWell.append {before after : List Record} {ioEnd : IoEnd}
    (h : EndsWell before ioEnd after) (extra : List Record) :
    EndsWell before ioEnd (after ++ extra) := by
  obtain ⟨complete, rest, opened, start, links, rfl, hrest⟩ := h.spec
  exact ⟨complete, rest ++ extra, opened, start, links, rfl, hrest⟩

/-! ## The invariant -/

/-- The start record of a call in progress, and the flows its packets tied it to since. -/
structure Tracked (call : PendingIo) (out : List Record) : Prop where
  spec : ∃ opened start links, out = opened ++ .ioStart start :: links ∧
    start.ioId = call.ioId ∧
    ∀ flowId ∈ linkedFlows call.ioId links, call.flowAmbiguous = true ∨ call.flowId = flowId

/-- What the books say about calls, after moves with the given labels. -/
structure CallAccount (labels : List Label) (books : Books) : Prop where
  started : startsOf books.out = acceptsOf labels
  balanced : (ioEndsOf books.out ++ callsInProgress books.calls).Perm (startsOf books.out)
  ordered : ∀ front, front <+: books.out → ∀ ioId,
    (ioEndsOf front).count ioId ≤ (startsOf front).count ioId
  paired : ∀ before ioEnd after, books.out = before ++ .ioEnd ioEnd :: after →
    EndsWell before ioEnd after
  completed : completesOf books.out = ioEndsOf books.out
  tracked : ∀ call ∈ books.calls, call.active = true → Tracked call books.out

theorem CallAccount.empty : CallAccount [] Books.empty := by
  refine ⟨rfl, List.Perm.refl _, ?_, ?_, rfl, ?_⟩
  · intro front hfront ioId
    rw [List.prefix_nil.mp hfront]
    exact Nat.le_refl _
  · intro before ioEnd after h
    simp [Books.empty] at h
  · simp [Books.empty]

theorem Tracked.append {call : PendingIo} {out : List Record} (h : Tracked call out)
    {extra : List Record} (hextra : linkedFlows call.ioId extra = []) :
    Tracked call (out ++ extra) := by
  obtain ⟨opened, start, links, rfl, hid, hlinked⟩ := h.spec
  refine ⟨opened, start, links ++ extra, by simp, hid, ?_⟩
  rw [linkedFlows_append, hextra, List.append_nil]
  exact hlinked

theorem linkedFlows_ne_zero {ioId flowId : UInt64} {out : List Record}
    (h : flowId ∈ linkedFlows ioId out) : flowId ≠ 0 := by
  obtain ⟨record, -, hrecord⟩ := List.mem_filterMap.mp h
  split at hrecord
  · split at hrecord
    case isTrue hlink =>
      cases hrecord
      exact hlink.2
    case isFalse => cases hrecord
  · cases hrecord

theorem linkedFlows_single {ioId flowId : UInt64} {link : PacketIoLink}
    (h : flowId ∈ linkedFlows ioId [.packetIoLink link]) : link.flowId = flowId := by
  obtain ⟨record, hmem, hrecord⟩ := List.mem_filterMap.mp h
  rw [List.mem_singleton.mp hmem] at hrecord
  exact ((Option.ite_none_right_eq_some.mp hrecord).2 : some link.flowId = some flowId) |>
    Option.some.inj

/-- A link ties a call in progress to its flow, or finds it tied to another. -/
theorem Tracked.link {call : PendingIo} {out : List Record} (record : PacketIoLink)
    (h : Tracked call out) (hactive : call.active = true) :
    Tracked (linkIo record.ioId record.flowId call) (out ++ [.packetIoLink record]) := by
  obtain ⟨-, -, -, -, -, -, hid⟩ := link_same record.ioId record.flowId call
  obtain ⟨opened, start, links, rfl, hstart, hlinked⟩ := h.spec
  refine ⟨opened, start, links ++ [.packetIoLink record], by simp, hstart.trans hid.symm, ?_⟩
  rw [hid, linkedFlows_append]
  intro flowId hflowId
  by_cases hsame : record.ioId = call.ioId
  · have hlink : linkIo record.ioId record.flowId call =
        { call with
          flowAmbiguous :=
            call.flowAmbiguous || (call.flowId ≠ 0 && call.flowId ≠ record.flowId)
          flowId :=
            if call.flowAmbiguous || (call.flowId ≠ 0 && call.flowId ≠ record.flowId) then 0
            else record.flowId } := by
      unfold linkIo
      rw [if_neg (by simp [hactive, hsame])]
    rw [hlink]
    dsimp only
    by_cases hother :
        (call.flowAmbiguous || (call.flowId ≠ 0 && call.flowId ≠ record.flowId)) = true
    · exact Or.inl hother
    · rw [if_neg hother]
      simp only [Bool.or_eq_true, Bool.and_eq_true, decide_eq_true_eq, not_or, not_and,
        not_not] at hother
      obtain ⟨hunambiguous, hflow⟩ := hother
      refine Or.inr ?_
      obtain hold | hnew := List.mem_append.mp hflowId
      · obtain hambiguous | rfl := hlinked flowId hold
        · exact absurd hambiguous hunambiguous
        · exact (hflow (linkedFlows_ne_zero hold)).symm
      · exact linkedFlows_single hnew
  · have hlink : linkIo record.ioId record.flowId call = call := by
      unfold linkIo
      rw [if_pos (Or.inr fun heq => hsame heq.symm)]
    have hnone : linkedFlows call.ioId [.packetIoLink record] = [] := by
      simp [linkedFlows, hsame]
    rw [hnone, List.append_nil] at hflowId
    rw [hlink]
    exact hlinked flowId hflowId

section

variable {out extra : List Record}
  (hout : ∀ front, front <+: out →
    ∀ ioId, (ioEndsOf front).count ioId ≤ (startsOf front).count ioId)
include hout

theorem ordered_append
    (hextra : ∀ ioId, (ioEndsOf out ++ ioEndsOf extra).count ioId ≤ (startsOf out).count ioId) :
    ∀ front, front <+: out ++ extra → ∀ ioId,
      (ioEndsOf front).count ioId ≤ (startsOf front).count ioId := by
  intro front hfront ioId
  obtain hold | ⟨rest, rfl, back, rfl⟩ := prefix_append hfront
  · exact hout front hold ioId
  · have hcount := hextra ioId
    simp only [ioEndsOf_append, startsOf_append, List.count_append] at hcount ⊢
    omega

theorem ordered_append_others (hextra : ioEndsOf extra = []) :
    ∀ front, front <+: out ++ extra → ∀ ioId,
      (ioEndsOf front).count ioId ≤ (startsOf front).count ioId := by
  refine ordered_append hout fun ioId => ?_
  rw [hextra, List.append_nil]
  exact hout out (List.prefix_refl _) ioId

end

theorem paired_append {out extra : List Record}
    (hout : ∀ before ioEnd after, out = before ++ .ioEnd ioEnd :: after →
      EndsWell before ioEnd after) (hextra : ioEndsOf extra = []) :
    ∀ before ioEnd after, out ++ extra = before ++ .ioEnd ioEnd :: after →
      EndsWell before ioEnd after := by
  intro before ioEnd after h
  obtain ⟨rest, hbefore, rfl⟩ | ⟨rest, -, hrest⟩ := split_append h
  · exact (hout before ioEnd rest hbefore).append extra
  · rw [hrest, ioEndsOf_append] at hextra
    exact absurd hextra (by simp [ioEndsOf])

/-- Moves that write quiet records and leave the calls. -/
theorem CallAccount.quiet {labels more : List Label} {before after : Books}
    {extra : List Record} (h : CallAccount labels before) (hcalls : after.calls = before.calls)
    (hout : after.out = before.out ++ extra) (hquiet : AllQuiet extra)
    (haccepts : acceptsOf more = []) : CallAccount (labels ++ more) after := by
  obtain ⟨hstarts, hends, hcompletes, hlinked⟩ := hquiet.nothing
  refine ⟨?_, ?_, ?_, ?_, ?_, ?_⟩
  · rw [hout, startsOf_append, hstarts, acceptsOf_append, haccepts, List.append_nil,
      List.append_nil]
    exact h.started
  · rw [hout, hcalls, startsOf_append, hstarts, ioEndsOf_append, hends, List.append_nil,
      List.append_nil]
    exact h.balanced
  · rw [hout]
    exact ordered_append_others h.ordered hends
  · rw [hout]
    exact paired_append h.paired hends
  · rw [hout, completesOf_append, hcompletes, ioEndsOf_append, hends, h.completed]
  · intro call hcall hactive
    rw [hcalls] at hcall
    rw [hout]
    exact (h.tracked call hcall hactive).append (hlinked call.ioId)

/-! ## Calls in progress -/

theorem Placed.inProgress {calls after : List PendingIo} {call : PendingIo} {place : Nat}
    (h : Placed calls call place after) (hactive : call.active = true) :
    (callsInProgress after).Perm (call.ioId :: callsInProgress calls) := by
  cases h with
  | reused hold hended =>
      obtain ⟨front, back, rfl, hset⟩ := split_at hold
      rw [hset]
      simp only [callsInProgress, List.filter_append, List.filter_cons, hactive, hended, if_true,
        Bool.false_eq_true, if_false, List.map_append, List.map_cons]
      exact List.perm_middle
  | added =>
      simp only [callsInProgress, List.filter_append, List.filter_cons, hactive, if_true,
        List.filter_nil, List.map_append, List.map_cons, List.map_nil]
      exact List.perm_append_singleton _ _

theorem inProgress_set {calls : List PendingIo} {call ended : PendingIo} {place : Nat}
    (hcall : calls[place]? = some call) (hactive : call.active = true)
    (hended : ended.active = false) :
    (callsInProgress calls).Perm (call.ioId :: callsInProgress (calls.set place ended)) := by
  obtain ⟨front, back, rfl, hset⟩ := split_at hcall
  rw [hset]
  simp only [callsInProgress, List.filter_append, List.filter_cons, hactive, hended, if_true,
    Bool.false_eq_true, if_false, List.map_append, List.map_cons]
  exact List.perm_middle

theorem inProgress_link (calls : List PendingIo) (ioId flowId : UInt64) :
    callsInProgress (calls.map (linkIo ioId flowId)) = callsInProgress calls := by
  induction calls with
  | nil => rfl
  | cons call rest ih =>
      obtain ⟨hactive, -, -, -, -, -, hid⟩ := link_same ioId flowId call
      simp only [callsInProgress, List.map_cons, List.filter_cons, hactive] at ih ⊢
      split
      · rw [List.map_cons, List.map_cons, hid, ih]
      · exact ih

/-! ## The moves of calls -/

theorem CallAccount.begin {labels : List Label} {before : Books} {call : PendingIo}
    {record : IoStart} {place : Nat} {calls : List PendingIo} (h : CallAccount labels before)
    (hplaced : Placed before.calls call place calls) (hactive : call.active = true)
    (hrecord : record.ioId = call.ioId) :
    CallAccount (labels ++ [.accepted call.ioId])
      { before with calls := calls, out := before.out ++ [.ioStart record] } := by
  refine ⟨?_, ?_, ?_, ?_, ?_, ?_⟩
  · rw [startsOf_append, acceptsOf_append, h.started]
    exact congrArg (acceptsOf labels ++ [·]) hrecord
  · rw [startsOf_append, ioEndsOf_append]
    have hstart : startsOf [.ioStart record] = [call.ioId] := congrArg (fun ioId => [ioId]) hrecord
    have hend : ioEndsOf [.ioStart record] = [] := rfl
    rw [hstart, hend, List.append_nil]
    calc (ioEndsOf before.out ++ callsInProgress calls).Perm
          (ioEndsOf before.out ++ call.ioId :: callsInProgress before.calls) :=
        (hplaced.inProgress hactive).append_left _
      _ |>.Perm (call.ioId :: (ioEndsOf before.out ++ callsInProgress before.calls)) :=
        List.perm_middle
      _ |>.Perm (call.ioId :: startsOf before.out) := h.balanced.cons _
      _ |>.Perm (startsOf before.out ++ [call.ioId]) := (List.perm_append_singleton _ _).symm
  · exact ordered_append_others h.ordered rfl
  · exact paired_append h.paired rfl
  · rw [completesOf_append, ioEndsOf_append, h.completed]
    rfl
  · intro other hother hotherActive
    obtain ⟨i, hi⟩ := List.mem_iff_getElem?.mp hother
    obtain ⟨-, rfl⟩ | ⟨-, hold⟩ := hplaced.cases hi
    · exact ⟨before.out, record, [], rfl, hrecord, by simp [linkedFlows]⟩
    · exact (h.tracked other (List.mem_of_getElem? hold) hotherActive).append rfl

theorem CallAccount.link {labels : List Label} {before : Books} (record : PacketIoLink)
    (h : CallAccount labels before) :
    CallAccount (labels ++ [])
      { before with
        calls := before.calls.map (linkIo record.ioId record.flowId)
        out := before.out ++ [.packetIoLink record] } := by
  refine ⟨?_, ?_, ?_, ?_, ?_, ?_⟩
  · rw [startsOf_append, List.append_nil, h.started]
    exact List.append_nil _
  · rw [inProgress_link, startsOf_append, ioEndsOf_append]
    have hbalanced := h.balanced
    simpa [startsOf, ioEndsOf] using hbalanced
  · exact ordered_append_others h.ordered rfl
  · exact paired_append h.paired rfl
  · rw [completesOf_append, ioEndsOf_append, h.completed]
    rfl
  · intro call hcall hactive
    obtain ⟨old, hold, rfl⟩ := List.mem_map.mp hcall
    obtain ⟨hsame, -, -, -, -, -, hid⟩ := link_same record.ioId record.flowId old
    have holdActive := hsame ▸ hactive
    exact Tracked.link record (h.tracked old hold holdActive) holdActive

theorem tied_ambiguous {call : PendingIo} {links : List Record}
    (hlinked : ∀ flowId ∈ linkedFlows call.ioId links,
      call.flowAmbiguous = true ∨ call.flowId = flowId)
    (htied : TiedToTwo call.ioId links) : call.flowAmbiguous = true := by
  obtain ⟨first, hfirst, second, hsecond, hne⟩ := htied
  obtain hambiguous | heq := hlinked first hfirst
  · exact hambiguous
  · obtain hambiguous | heq' := hlinked second hsecond
    · exact hambiguous
    · exact absurd (heq.symm.trans heq') hne

theorem CallAccount.endsWell {labels : List Label} {books : Books} {call : PendingIo}
    {accounts : List Account} {ioEnd : IoEnd} {complete : IoComplete}
    (h : CallAccount labels books) (hclear : call.flowAmbiguous = true → call.flowId = 0)
    (hcall : call ∈ books.calls) (hactive : call.active = true)
    (hsettles : Settles books.accounts call complete.bytes complete.flowId accounts)
    (hrecords : EndRecords call ioEnd complete) :
    EndsWell books.out ioEnd [.ioComplete complete] := by
  obtain ⟨opened, start, links, hout, hstart, hlinked⟩ := (h.tracked call hcall hactive).spec
  have hid := hrecords.endId
  refine ⟨complete, [], opened, start, links, rfl, hrecords.completeId.trans hid.symm,
    hrecords.flowId.symm, hrecords.completeAssociation.trans hrecords.endAssociation.symm, hout,
    hstart.trans hid.symm, ?_⟩
  intro htied
  rw [hid] at htied
  have hambiguous := tied_ambiguous hlinked htied
  obtain ⟨hzero, -⟩ := hsettles.ambiguous hclear hambiguous
  refine ⟨hrecords.flowId.trans hzero, ?_⟩
  rw [hrecords.endAssociation]
  simp [PendingIo.association, hambiguous]

theorem CallAccount.finish {labels : List Label} {before : Books} {place : Nat} {call : PendingIo}
    {accounts : List Account} {ioEnd : IoEnd} {complete : IoComplete}
    (h : CallAccount labels before) (hclear : call.flowAmbiguous = true → call.flowId = 0)
    (hcall : before.calls[place]? = some call) (hactive : call.active = true)
    (hsettles : Settles before.accounts call complete.bytes complete.flowId accounts)
    (hrecords : EndRecords call ioEnd complete) :
    CallAccount (labels ++ [])
      { accounts := accounts
        calls := before.calls.set place { call with flowId := complete.flowId, active := false }
        out := before.out ++ [.ioEnd ioEnd, .ioComplete complete] } := by
  have hended : ioEndsOf [.ioEnd ioEnd, .ioComplete complete] = [call.ioId] :=
    congrArg (fun ioId => [ioId]) hrecords.endId
  have hcompleted : completesOf [.ioEnd ioEnd, .ioComplete complete] = [call.ioId] :=
    congrArg (fun ioId => [ioId]) hrecords.completeId
  have hstarted : startsOf [.ioEnd ioEnd, .ioComplete complete] = [] := rfl
  have hprogress := @inProgress_set _ _ { call with flowId := complete.flowId, active := false } _
    hcall hactive rfl
  refine ⟨?_, ?_, ?_, ?_, ?_, ?_⟩
  · rw [startsOf_append, hstarted, List.append_nil, List.append_nil]
    exact h.started
  · rw [startsOf_append, hstarted, List.append_nil, ioEndsOf_append, hended, List.append_assoc,
      List.singleton_append]
    exact (hprogress.symm.append_left _).trans h.balanced
  · refine ordered_append h.ordered fun ioId => ?_
    rw [hended, List.count_append, ← h.balanced.count_eq, List.count_append, hprogress.count_eq]
    have hone : List.count ioId [call.ioId] ≤ List.count ioId (call.ioId :: callsInProgress
        (before.calls.set place { call with flowId := complete.flowId, active := false })) := by
      simp only [List.count_cons, List.count_nil]
      omega
    omega
  · intro front ioEnd' after hsplit
    obtain ⟨rest, hfront, rfl⟩ | ⟨rest, rfl, hrest⟩ := split_append hsplit
    · exact (h.paired front ioEnd' rest hfront).append _
    · cases rest with
      | nil =>
          cases hrest
          rw [List.append_nil]
          exact h.endsWell hclear (List.mem_of_getElem? hcall) hactive hsettles hrecords
      | cons first rest =>
          obtain ⟨-, hrest⟩ := List.cons.inj hrest
          cases rest with
          | nil => cases hrest
          | cons second rest =>
              have hlength := congrArg List.length hrest
              simp at hlength
  · rw [completesOf_append, hcompleted, ioEndsOf_append, hended, h.completed]
  · intro other hother hotherActive
    obtain hold | rfl := mem_set hother
    · exact (h.tracked other hold hotherActive).append rfl
    · cases hotherActive

theorem Move.callAccount {labels more : List Label} {before after : Books}
    (h : CallAccount labels before ∧ before.Sound) (hmove : Move before more after) :
    CallAccount (labels ++ more) after ∧ after.Sound := by
  refine ⟨?_, hmove.sound h.2⟩
  obtain ⟨h, hsound⟩ := h
  have hquiet {record : Record} (hrecord : record.Quiet) : AllQuiet [record] := by
    intro other hother
    rw [List.mem_singleton.mp hother]
    exact hrecord
  cases hmove with
  | note record => exact h.quiet rfl rfl (hquiet trivial) rfl
  | exportCall record => exact h.quiet rfl rfl (hquiet trivial) rfl
  | openFlow record => exact h.quiet rfl rfl (hquiet trivial) rfl
  | anchor => exact h.quiet rfl (List.append_nil _).symm (fun _ hnone => nomatch hnone) rfl
  | endFlow => exact h.quiet rfl rfl (hquiet trivial) rfl
  | strayLink record hflow => exact h.quiet rfl rfl (hquiet hflow) rfl
  | link record hknown => exact CallAccount.link record h
  | beginCall hplaced hactive hvisible hclear hknown hthread hsocket hrecord =>
      exact h.begin hplaced hactive hrecord
  | endCall hcall hactive hsettles hrecords =>
      exact h.finish (hsound.clear _ (List.mem_of_getElem? hcall) hactive) hcall hactive hsettles
        hrecords

/-! ## Runs -/

theorem moves_callAccount {labels more : List Label} {before after : Books}
    (haccount : CallAccount labels before) (hsound : before.Sound)
    (h : Moves Move before more after) : CallAccount (labels ++ more) after := by
  have hinv := h.history (fun seen books => CallAccount seen books ∧ books.Sound)
    Move.callAccount ⟨haccount, hsound⟩
  exact hinv.1

theorem reached_callAccount {session : Session} {inputs : List Input} {labels : List Label}
    (h : RunMoves session inputs labels) : CallAccount labels (reached session inputs).books :=
  moves_callAccount CallAccount.empty Books.sound_empty h.moves

/-- What holds of the calls in progress: no two share a thread and a function, or a thread, a
socket and a direction; and a call that packets tied to two flows since its start is tied to none,
so that ending it changes no flow. -/
structure CallsInProgress (session : Session) (state : State) : Prop where
  thread : ∀ (i j : Nat) (call other : PendingIo), state.ios[i]? = some call →
    state.ios[j]? = some other → call.active = true → other.active = true →
    call.func = other.func → call.tid = other.tid → i = j
  socket : ∀ (i j : Nat) (call other : PendingIo), state.ios[i]? = some call →
    state.ios[j]? = some other → call.active = true → other.active = true →
    call.tid = other.tid → call.socketId = other.socketId → call.tx = other.tx → i = j
  tied : ∀ (i : Nat) (call : PendingIo), state.ios[i]? = some call → call.active = true →
    ∃ opened start links, state.out = opened ++ .ioStart start :: links ∧
      start.ioId = call.ioId ∧
      (TiedToTwo call.ioId links → call.flowId = 0 ∧ ∀ ts result incomplete,
        (pendingIoFinish session state (some i) ts result incomplete).flows = state.flows)

theorem calls_in_progress (session : Session) (inputs : List Input) :
    CallsInProgress session (reached session inputs) := by
  have hsound := reached_sound session inputs
  obtain ⟨labels, hlabels⟩ := reached_moves session inputs
  have haccount := reached_callAccount hlabels
  refine ⟨hsound.thread, hsound.socket, ?_⟩
  intro i call hcall hactive
  have hmem : call ∈ (reached session inputs).books.calls := List.mem_of_getElem? hcall
  have hclear := hsound.clear call hmem hactive
  obtain ⟨opened, start, links, hout, hstart, hlinked⟩ :=
    (haccount.tracked call hmem hactive).spec
  refine ⟨opened, start, links, hout, hstart, fun htied => ?_⟩
  have hambiguous := tied_ambiguous hlinked htied
  exact ⟨hclear hambiguous, fun ts result incomplete =>
    pendingIoFinish_ambiguous hcall hclear hambiguous ts result incomplete⟩

/-- Every run that ends with a close starts, ends and completes each accepted call exactly once. -/
theorem io_lifecycle (session : Session) (inputs : List Input) (now eventCount : UInt64) :
    IoLifecycle (acceptances session inputs)
        (close session (reached session inputs) now eventCount) ∧
      ∀ before, before <+: inputs → CallsInProgress session (reached session before) := by
  refine ⟨?_, fun before _ => calls_in_progress session before⟩
  obtain ⟨labels, hlabels⟩ := reached_moves session inputs
  have hsound := reached_sound session inputs
  obtain ⟨⟨exports, ends, hclose⟩, hended⟩ := closeTables_moves session hsound now
  have haccount := moves_callAccount (reached_callAccount hlabels) hsound hclose
  have haccepts : acceptsOf (labels ++ (exportLabels exports ++ endLabels ends)) =
      acceptances session inputs := by
    obtain ⟨-, -, hexports, -⟩ := projections_exportLabels exports
    obtain ⟨-, -, hends, -⟩ := projections_endLabels ends
    rw [acceptsOf_append, acceptsOf_append, hexports, hends, List.append_nil, List.append_nil]
    exact hlabels.accepts
  have hnone : callsInProgress (closeTables session (reached session inputs) now).books.calls =
      [] := by
    refine List.map_eq_nil_iff.mpr (List.filter_eq_nil_iff.mpr fun call hcall => ?_)
    rw [hended call hcall]
    exact Bool.false_ne_true
  have hstarted := haccount.started.trans haccepts
  have hbalanced := haccount.balanced
  rw [hnone, List.append_nil, hstarted] at hbalanced
  unfold close
  refine ⟨?_, ?_, ?_, ?_, ?_⟩
  · rw [startsOf_append]
    exact (List.append_nil _).trans hstarted
  · rw [ioEndsOf_append]
    exact (List.append_nil (ioEndsOf _)).symm ▸ hbalanced
  · exact ordered_append_others haccount.ordered rfl
  · exact paired_append haccount.paired rfl
  · rw [completesOf_append, ioEndsOf_append]
    exact congrArg (· ++ []) haccount.completed

end Anettrace.Export
