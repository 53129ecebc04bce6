import Anettrace.Export.FlowLifecycle
import Anettrace.Native.Moves

/-!
# Flows in the native trace

The native halves of the flow functions of `src/perfetto_export.c`. Each follows the branches of the
function it belongs to, in the state that function finds, and leaves the tables to the model of that
function. `Mirrors` is what ties the two halves together: outside tags mode the slices of flows and
protocol calls are begun and ended exactly with the records of the JSONL file.
-/

namespace Anettrace.Native

open Anettrace.Export Library.Labelled Library.Table

variable {told : UInt64 → UInt64 → Prop}

/-! ## The functions -/

def flowSocketTrack (salt : UInt64) (trail : Trail) (flow : FlowState) : Trail × Nat :=
  nativeSocketTrack salt trail flow.socketId (if flow.ownerValid then flow.ownerTgid else 0)
    (if flow.ownerValid then flow.task else [])

def nativeFlowTrack (salt : UInt64) (trail : Trail) (flow : FlowState) : Trail × Nat :=
  let uuid := flowUuid salt flow.id
  match nativeFindTrack trail uuid with
  | some track => (trail, track)
  | none =>
      let (trail, _) :=
        if flow.socketId ≠ 0 then flowSocketTrack salt trail flow
        else nativeProcessTrack salt trail flow.ownerTgid flow.task
      let parent :=
        if flow.socketId ≠ 0 then socketUuid salt flow.socketId else processUuid salt flow.ownerTgid
      nativeAddTrack trail flow.id
        ⟨uuid, .flow (formatFlowLabel flow) (flowProtocolName flow) flow.localAddr flow.localPort
          flow.remoteAddr flow.remotePort, parent, .flow, flow.ownerTgid, 0⟩

def nativeFlowLinkSocket (session : Session) (trail : Trail) (flow : FlowState) (ts : UInt64) :
    Trail :=
  if flow.socketId = 0 ∨ flow.linkedSocketId = flow.socketId ∨ session.traceTags then trail
  else
    nativeEventWrite (flowSocketTrack session.salt trail flow).1 ts
      ⟨.instant, socketUuid session.salt flow.socketId, .socketFlow, flow.id⟩

def flowSlice (salt id : UInt64) : TrackEvent :=
  ⟨.sliceBegin, flowUuid salt id, .flow, id⟩

def flowSliceEnd (salt id : UInt64) : TrackEvent :=
  ⟨.sliceEnd, flowUuid salt id, .flow, id⟩

def nativeFlowEmitStart (session : Session) (trail : Trail) (flow : FlowState) : Trail :=
  let trail := nativeFlowLinkSocket session trail flow flow.firstTs
  if session.traceTags then trail
  else
    nativeEventWrite (nativeFlowTrack session.salt trail flow).1 flow.firstTs
      (flowSlice session.salt flow.id)

/-- The native half of `flow_finish`. Outside tags mode `native_track_uuid` was set when the flow
was created. -/
def nativeFlowFinish (session : Session) (trail : Trail) (endTs : UInt64) (flow : FlowState) :
    Trail :=
  if !flow.active ∨ session.traceTags then trail
  else nativeEventWrite trail (flow.finishTs endTs) (flowSliceEnd session.salt flow.id)

/-- The native half of the loops that call `flow_finish`. -/
def nativeFinishFlows (session : Session) (state : State) (trail : Trail)
    (test : FlowState → Bool) (endTs : FlowState → UInt64) : Trail :=
  state.flows.foldl
    (fun trail flow => if test flow then
      nativeFlowFinish session trail (endTs flow) flow else trail)
    trail

def nativeFlowOpen (session : Session) (state : State) (trail : Trail) (realloc : Bool)
    (detail : DetailEvent) (tupleId socketId ts : UInt64) (fill : FlowState → FlowState) : Trail :=
  match flowCreate state realloc tupleId socketId detail.netns ts with
  | (_, none) => trail
  | (state, some flow) =>
      let (_, flow) := flowAssignDisplayIndex state (fill flow)
      nativeFlowEmitStart session trail (flowSetOwner flow detail socketId)

def nativeFlowTouch (session : Session) (state : State) (trail : Trail) (detail : DetailEvent)
    (socketId ts : UInt64) (flow : Nat) : Trail :=
  match state.flows[flow]? with
  | none => trail
  | some flow =>
      nativeFlowLinkSocket session trail (flowSetOwner (flow.reach ts) detail socketId) ts

def nativeFlowFromSocket (session : Session) (state : State) (trail : Trail) (realloc : Bool)
    (detail : DetailEvent) (ts : UInt64) : Trail :=
  let socketId := detailSocketInstanceId session.salt detail
  if !flowSocketSupported detail.ske then trail
  else
    let id := socketFlowId session.salt detail.ske
    match flowLookup state.flows id socketId detail.netns ts with
    | ⟨none, true⟩ => trail
    | ⟨none, false⟩ =>
        nativeFlowOpen session state trail realloc detail id socketId ts (socketFill detail)
    | ⟨some flow, _⟩ => nativeFlowTouch session state trail detail socketId ts flow

def nativeFlowFromPacket (session : Session) (state : State) (trail : Trail) (realloc : Bool)
    (detail : DetailEvent) (trace : Trace) : Trail :=
  let socketId := ownerSocketId session.salt detail
  if !flowPacketSupported detail.pkt trace then trail
  else
    let id := packetFlowId session.salt detail.pkt
    match flowLookup state.flows id socketId detail.netns detail.ts with
    | ⟨none, true⟩ => trail
    | ⟨found, _⟩ =>
        if packetTraceTerminal trace then trail
        else
          match found with
          | none =>
              nativeFlowOpen session state trail realloc detail id socketId detail.ts
                (packetFill detail)
          | some flow => nativeFlowTouch session state trail detail socketId detail.ts flow

/-! ## The two halves -/

/-- The beginning of the slice of a protocol call. -/
def ioSlice (salt : UInt64) (call : PendingIo) : TrackEvent :=
  ⟨.sliceBegin, threadUuid salt call.tgid call.tid, .io call.tx, call.ioId⟩

/-- The boundary of a slice that is written with a record. -/
def mirrored (salt : UInt64) : Record → Option Mark
  | .flowStart record => some ⟨record.ts, flowSlice salt record.flowId⟩
  | .flowEnd record => some ⟨record.ts, flowSliceEnd salt record.flowId⟩
  | .ioStart record =>
      some ⟨record.ts,
        ⟨.sliceBegin, threadUuid salt record.tgid record.tid, .io record.tx, record.ioId⟩⟩
  | .ioComplete record =>
      some ⟨record.ts,
        ⟨.sliceEnd, threadUuid salt record.tgid record.tid, .io record.tx, record.ioId⟩⟩
  | _ => none

/-- The boundaries of slices that are written with records. -/
def mirroredMarks (session : Session) (records : List Record) : List Mark :=
  if session.traceTags then [] else records.filterMap (mirrored session.salt)

/-- A boundary of a slice that lasts beyond the step that begins it: of any but a system call and
the allocation of a socket. -/
def Mark.isLasting (mark : Mark) : Bool :=
  match mark.event.category with
  | .syscall | .allocation => false
  | _ => true

/-- The flows, and the protocol calls that are shown, have begun slices. -/
structure Tracked (session : Session) (state : State) (trail : Trail) : Prop where
  flows : session.traceTags = false → ∀ entry ∈ state.flows.map FlowState.opening,
    trail.BegunAt ⟨entry.2, flowSlice session.salt entry.1⟩
  calls : session.traceTags = false → ∀ call ∈ state.ios, call.active = true →
    call.visible = true → trail.BegunAt ⟨call.startTs, ioSlice session.salt call⟩

/-- Slices that are begun and at once ended, at times that something tells. -/
inductive Paired (told : UInt64 → UInt64 → Prop) : List Mark → Prop where
  | nil : Paired told []
  | pair {start finish : UInt64} {event : TrackEvent} {rest : List Mark}
      (htold : told start finish) (htype : event.type = .sliceEnd) (hrest : Paired told rest) :
      Paired told (⟨start, event.opening⟩ :: ⟨finish, event⟩ :: rest)

theorem Paired.append {told : UInt64 → UInt64 → Prop} {first second : List Mark}
    (h : Paired told first) (hnext : Paired told second) : Paired told (first ++ second) := by
  induction h with
  | nil => exact hnext
  | pair htold htype _ ih => exact .pair htold htype ih

/-- A boundary of the slice of a system call or of the allocation of a socket. -/
def Mark.isBrief (mark : Mark) : Bool :=
  !mark.isLasting

/-- A change of the tables and the JSONL file together with one of the native trace. The slices that
do not last are begun and ended at the times that `told` tells. -/
structure Mirrors (session : Session) (told : UInt64 → UInt64 → Prop) (before : State)
    (trail : Trail) (after : State) (next : Trail) : Prop where
  tracked : Tracked session after next
  written : ∃ records marks, after.out = before.out ++ records ∧ TrailMoves trail marks next ∧
    marks.filter Mark.isLasting = mirroredMarks session records ∧
      Paired told (marks.filter Mark.isBrief)

@[simp] theorem mirroredMarks_nil (session : Session) : mirroredMarks session [] = [] := by
  unfold mirroredMarks
  split <;> rfl

@[simp] theorem mirroredMarks_append (session : Session) (first second : List Record) :
    mirroredMarks session (first ++ second) =
      mirroredMarks session first ++ mirroredMarks session second := by
  unfold mirroredMarks
  split
  · rfl
  · exact List.filterMap_append

/-- All boundaries that are written with records are of flows and calls. -/
theorem mirroredMarks_filter (session : Session) (records : List Record) :
    (mirroredMarks session records).filter Mark.isLasting = mirroredMarks session records := by
  refine List.filter_eq_self.mpr fun mark hmark => ?_
  unfold mirroredMarks at hmark
  split at hmark
  case isTrue => cases hmark
  case isFalse =>
    obtain ⟨record, -, hrecord⟩ := List.mem_filterMap.mp hmark
    cases record <;> cases hrecord <;> rfl

theorem paired_lasting {marks : List Mark} (h : marks.filter Mark.isLasting = marks)
    (told : UInt64 → UInt64 → Prop) : Paired told (marks.filter Mark.isBrief) := by
  have hnone : marks.filter Mark.isBrief = [] := by
    refine List.filter_eq_nil_iff.mpr fun mark hmark => ?_
    show ¬(!mark.isLasting) = true
    rw [List.filter_eq_self.mp h mark hmark]
    exact Bool.false_ne_true
  rw [hnone]
  exact .nil

/-- Links are written with no boundary. -/
theorem mirroredMarks_links (session : Session) {records : List Record} (h : AllLinks records) :
    mirroredMarks session records = [] := by
  unfold mirroredMarks
  split
  case isTrue => rfl
  case isFalse =>
    refine List.filterMap_eq_nil_iff.mpr fun record hrecord => ?_
    obtain ⟨fields, rfl⟩ := h record hrecord
    rfl

section Mirrors

variable {session : Session} {before middle after : State} {trail between next : Trail}

/-- Moves that neither begin nor end the slice of a flow or a call. -/
theorem Tracked.moves (h : Tracked session before trail) {marks : List Mark}
    (hmoves : TrailMoves trail marks next) : Tracked session before next :=
  ⟨fun htags entry hentry => hmoves.begun (h.flows htags entry hentry),
    fun htags call hcall hactive hvisible =>
      hmoves.begun (h.calls htags call hcall hactive hvisible)⟩

theorem Tracked.same (h : Tracked session before trail)
    (hflows : after.flows.map FlowState.opening = before.flows.map FlowState.opening)
    (hios : after.ios = before.ios) : Tracked session after trail :=
  ⟨hflows ▸ h.flows, hios ▸ h.calls⟩

theorem Mirrors.trans (h : Mirrors session told before trail middle between)
    (hnext : Mirrors session told middle between after next) :
    Mirrors session told before trail after next := by
  obtain ⟨first, marks, hout, hmoves, hmarks, hpaired⟩ := h.written
  obtain ⟨second, more, hnextOut, hnextMoves, hmore, hmorePaired⟩ := hnext.written
  refine ⟨hnext.tracked, first ++ second, marks ++ more, ?_, hmoves.trans hnextMoves, ?_, ?_⟩
  · rw [hnextOut, hout, List.append_assoc]
  · rw [List.filter_append, hmarks, hmore, mirroredMarks_append]
  · rw [List.filter_append]
    exact hpaired.append hmorePaired

theorem Tracked.mirrors (h : Tracked session before trail) {marks : List Mark}
    (hmoves : TrailMoves trail marks next) (hmarks : marks.filter Mark.isLasting = [])
    (hpaired : Paired told (marks.filter Mark.isBrief)) :
    Mirrors session told before trail before next :=
  ⟨h.moves hmoves, [], marks, (List.append_nil _).symm, hmoves, by rw [hmarks, mirroredMarks_nil],
    hpaired⟩

theorem Tracked.quiet (h : Tracked session before trail) (hmoves : TrailMoves trail [] next) :
    Mirrors session told before trail before next :=
  h.mirrors hmoves rfl .nil

theorem Mirrors.refl (h : Tracked session before trail) :
    Mirrors session told before trail before trail :=
  h.quiet (Moves.refl _)

/-- Changes of a state that neither half shows. -/
theorem Mirrors.same (h : Mirrors session told before trail middle next)
    (hflows : after.flows.map FlowState.opening = middle.flows.map FlowState.opening)
    (hios : after.ios = middle.ios) (hout : after.out = middle.out) :
    Mirrors session told before trail after next := by
  obtain ⟨records, marks, hrecords, hmoves, hmarks⟩ := h.written
  exact ⟨h.tracked.same hflows hios, records, marks, hout.trans hrecords, hmoves, hmarks⟩

end Mirrors

/-! ## Flow functions mirror -/

theorem flowSocketTrack_created (salt : UInt64) (trail : Trail) (flow : FlowState) :
    Created trail (flowSocketTrack salt trail flow) (socketUuid salt flow.socketId)
      [.socket, .process] :=
  nativeSocketTrack_created salt trail flow.socketId _ _

theorem nativeFlowTrack_created (salt : UInt64) (trail : Trail) (flow : FlowState) :
    Created trail (nativeFlowTrack salt trail flow) (flowUuid salt flow.id)
      [.flow, .socket, .process] := by
  unfold nativeFlowTrack
  dsimp only
  split
  case h_1 place hfind => exact created_of_found hfind
  case h_2 hfind =>
    by_cases hsocket : flow.socketId ≠ 0
    · rw [if_pos hsocket, if_pos hsocket]
      have hcreated := flowSocketTrack_created salt trail flow
      exact created_of_added _ hfind hcreated.creates hcreated.kinds (by simp) (Or.inr hcreated.mem)
    · rw [if_neg hsocket, if_neg hsocket]
      have hcreated := nativeProcessTrack_created salt trail flow.ownerTgid flow.task
      refine created_of_added _ hfind hcreated.creates ?_ (by simp) (Or.inr hcreated.mem)
      intro track htrack
      exact (hcreated.kinds track htrack).imp_right (List.mem_cons_of_mem _)

theorem nativeFlowLinkSocket_moves (session : Session) (trail : Trail) (flow : FlowState)
    (ts : UInt64) : TrailMoves trail [] (nativeFlowLinkSocket session trail flow ts) := by
  unfold nativeFlowLinkSocket
  split
  · exact Moves.refl _
  · have hcreated := flowSocketTrack_created session.salt trail flow
    exact @Created.instant _ _ _
      ⟨.instant, socketUuid session.salt flow.socketId, .socketFlow, flow.id⟩ hcreated ts rfl

theorem nativeFlowEmitStart_moves (session : Session) (trail : Trail) (flow : FlowState) :
    TrailMoves trail (mirroredMarks session (flowEmitStart flow).2)
      (nativeFlowEmitStart session trail flow) ∧
    (session.traceTags = false →
      (nativeFlowEmitStart session trail flow).BegunAt
        ⟨flow.firstTs, flowSlice session.salt flow.id⟩) := by
  have hlink := nativeFlowLinkSocket_moves session trail flow flow.firstTs
  have hspan := flowLinkSocket_span flow flow.firstTs
  have hlinks := mirroredMarks_links session (flowLinkSocket_links flow flow.firstTs)
  unfold nativeFlowEmitStart flowEmitStart
  dsimp only
  rw [mirroredMarks_append, hlinks, List.nil_append]
  generalize nativeFlowLinkSocket session trail flow flow.firstTs = linked at *
  generalize flowLinkSocket flow flow.firstTs = result at *
  obtain ⟨hid, hfirst⟩ : result.1.id = flow.id ∧ result.1.firstTs = flow.firstTs :=
    ⟨congrArg Prod.fst hspan, congrArg (fun span => span.2.1) hspan⟩
  cases htags : session.traceTags with
  | true =>
      have hnone : mirroredMarks session [.flowStart (flowStartRecord result.1)] =
          [] := if_pos htags
      rw [if_pos rfl, hnone]
      exact ⟨hlink, fun h => by cases h⟩
  | false =>
      have hmark : mirroredMarks session [.flowStart (flowStartRecord result.1)] =
          [⟨flow.firstTs, flowSlice session.salt flow.id⟩] := by
        unfold mirroredMarks
        rw [if_neg (by simp [htags]), ← hid, ← hfirst]
        rfl
      rw [if_neg Bool.false_ne_true, hmark]
      have hcreated := nativeFlowTrack_created session.salt linked flow
      have hmoves := @Created.slice _ _ _ (flowSlice session.salt flow.id) hcreated flow.firstTs rfl
        ⟨Category.noConfusion, Category.noConfusion⟩
      exact ⟨hlink.silent_then hmoves, fun _ => hmoves.begins hcreated.hasTrack⟩

theorem nativeFlowFinish_moves {session : Session} {trail : Trail} {flow : FlowState}
    (hbegun : session.traceTags = false → trail.Begun (flowSlice session.salt flow.id))
    (endTs : UInt64) (reason : EndReason) (incomplete : Bool) :
    TrailMoves trail (mirroredMarks session (flowFinish endTs reason incomplete flow).2)
      (nativeFlowFinish session trail endTs flow) := by
  cases hactive : flow.active with
  | false =>
      have hsame : nativeFlowFinish session trail endTs flow = trail := if_pos (by simp [hactive])
      rw [flowFinish_inactive hactive, hsame, mirroredMarks_nil]
      exact Moves.refl _
  | true =>
      have hrecord : (flowFinish endTs reason incomplete flow).2 =
          [.flowEnd (flowEndRecord flow (flow.finishTs endTs) reason incomplete)] := by
        unfold flowFinish
        rw [if_neg (by simp [hactive])]
      rw [hrecord]
      cases htags : session.traceTags with
      | true =>
          have hnone (records : List Record) : mirroredMarks session records = [] := if_pos htags
          have hsame : nativeFlowFinish session trail endTs flow = trail := if_pos (by simp [htags])
          rw [hsame, hnone]
          exact Moves.refl _
      | false =>
          have hmark : mirroredMarks session
              [.flowEnd (flowEndRecord flow (flow.finishTs endTs) reason incomplete)] =
              [⟨flow.finishTs endTs, flowSliceEnd session.salt flow.id⟩] := by
            unfold mirroredMarks
            rw [if_neg (by simp [htags])]
            rfl
          have hwritten : nativeFlowFinish session trail endTs flow = nativeEventWrite trail
              (flow.finishTs endTs) (flowSliceEnd session.salt flow.id) :=
            if_neg (by simp [hactive, htags])
          rw [hmark, hwritten]
          exact Moves.single (@TrailMove.sliceEnd _ _ (flowSliceEnd session.salt flow.id)
            (hbegun htags) rfl ⟨Category.noConfusion, Category.noConfusion⟩)

section

variable {session : Session} {state : State} {trail : Trail} (h : Tracked session state trail)
include h

theorem nativeFlowTouch_mirrors (detail : DetailEvent) (socketId ts : UInt64) (place : Nat) :
    Mirrors session told state trail (state.updateFlow place (flowTouch detail socketId ts))
      (nativeFlowTouch session state trail detail socketId ts place) := by
  unfold nativeFlowTouch
  cases hflow : state.flows[place]? with
  | none =>
      rw [updateFlow_none hflow]
      exact Mirrors.refl h
  | some flow =>
      rw [updateFlow_some hflow]
      have hmoves := nativeFlowLinkSocket_moves session trail
        (flowSetOwner (flow.reach ts) detail socketId) ts
      have hids := @map_set _ _ _ _ _ (flowTouch detail socketId ts flow).1 FlowState.opening hflow
        (flowTouch_opening detail socketId ts flow)
      refine ⟨(h.moves hmoves).same hids rfl, _, [], rfl, hmoves, ?_, .nil⟩
      rw [mirroredMarks_links session (flowTouch_links detail socketId ts flow)]
      rfl

/-- A loop of `flow_finish` in both halves. -/
theorem nativeFinishFlows_mirrors (test : FlowState → Bool) (endTs : FlowState → UInt64)
    (reason : EndReason) (incomplete : Bool) :
    Mirrors session told state trail
      (finishFlows state test fun flow => flowFinish (endTs flow) reason incomplete flow)
      (nativeFinishFlows session state trail test endTs) := by
  have hloop (flows : List FlowState) {start : Trail}
      (hbegun : session.traceTags = false → ∀ flow ∈ flows,
        start.BegunAt ⟨flow.firstTs, flowSlice session.salt flow.id⟩) :
      TrailMoves start
        (mirroredMarks session (flows.flatMap fun flow =>
          (finishedIf test (fun flow => flowFinish (endTs flow) reason incomplete flow) flow).2))
        (flows.foldl (fun trail flow =>
          if test flow then nativeFlowFinish session trail (endTs flow) flow
            else trail) start) := by
    induction flows generalizing start with
    | nil =>
        rw [List.flatMap_nil, mirroredMarks_nil]
        exact Moves.refl _
    | cons flow rest ih =>
        have hfirst : TrailMoves start
            (mirroredMarks session
              (finishedIf test (fun flow => flowFinish (endTs flow) reason incomplete flow) flow).2)
            (if test flow then nativeFlowFinish session start (endTs flow) flow else start) := by
          unfold finishedIf
          split
          · exact nativeFlowFinish_moves
              (fun htags => ⟨_, hbegun htags flow List.mem_cons_self⟩) _ _ _
          · rw [mirroredMarks_nil]
            exact Moves.refl _
        rw [List.flatMap_cons, mirroredMarks_append, List.foldl_cons]
        refine hfirst.trans (ih ?_)
        intro htags other hother
        exact hfirst.begun (hbegun htags other (List.mem_cons_of_mem _ hother))
  have hmoves := @hloop state.flows trail fun htags flow hflow =>
    h.flows htags flow.opening (List.mem_map_of_mem hflow)
  have hsame (flow : FlowState) : (finishedIf test
      (fun flow => flowFinish (endTs flow) reason incomplete flow) flow).1.opening =
        flow.opening := by
    unfold finishedIf flowFinish
    split
    · dsimp only
      split <;> rfl
    · rfl
  rw [finishFlows_eq]
  refine ⟨(h.moves hmoves).same ?_ rfl, _, _, rfl, hmoves, mirroredMarks_filter _ _,
    paired_lasting (mirroredMarks_filter _ _) told⟩
  show List.map FlowState.opening (List.map _ state.flows) = _
  rw [List.map_map]
  exact List.map_congr_left fun flow _ => hsame flow

/-- A flow that is opened begins a slice. -/
theorem nativeFlowOpen_mirrors (realloc : Bool) (detail : DetailEvent)
    (tupleId socketId ts : UInt64) (fill : FlowState → FlowState) :
    Mirrors session told state trail (flowOpen state realloc detail tupleId socketId ts fill).1
      (nativeFlowOpen session state trail realloc detail tupleId socketId ts fill) := by
  obtain ⟨hflows, hout, hios, -, -⟩ :=
    flowCreate_frame state realloc tupleId socketId detail.netns ts
  unfold flowOpen nativeFlowOpen
  generalize flowCreate state realloc tupleId socketId detail.netns ts = created at *
  obtain ⟨created, entry⟩ := created
  dsimp only at hflows hout hios
  cases entry with
  | none => exact (Mirrors.refl h).same (congrArg _ hflows) hios hout
  | some flow =>
      obtain ⟨-, hflows', hout', hios', -⟩ := flowAssignDisplayIndex_frame created (fill flow)
      dsimp only
      generalize flowAssignDisplayIndex created (fill flow) = assigned at *
      obtain ⟨hmoves, hbegun⟩ := nativeFlowEmitStart_moves session trail
        (flowSetOwner assigned.2 detail socketId)
      have hopening : (flowEmitStart (flowSetOwner assigned.2 detail socketId)).1.opening =
          (flowSetOwner assigned.2 detail socketId).opening :=
        opening_of_span (flowLinkSocket_span _ _)
      generalize flowSetOwner assigned.2 detail socketId = opened at *
      refine ⟨⟨fun htags entry hflow => ?_, fun htags call hcall => ?_⟩, _, _, ?_, hmoves,
        mirroredMarks_filter _ _, paired_lasting (mirroredMarks_filter _ _) told⟩
      · -- the new flow stands behind the others
        rw [List.map_append, hflows', hflows] at hflow
        rcases List.mem_append.mp hflow with hold | hnew
        · exact hmoves.begun (h.flows htags entry hold)
        · obtain rfl : entry = opened.opening := (List.mem_singleton.mp hnew).trans hopening
          exact hbegun htags
      · intro hactive hvisible
        have hold : call ∈ state.ios := by
          rw [← hios, ← hios']
          exact hcall
        exact hmoves.begun (h.calls htags call hold hactive hvisible)
      · show assigned.1.out ++ _ = _
        rw [hout', hout]

theorem nativeFlowFromSocket_mirrors (realloc : Bool) (detail : DetailEvent) (ts : UInt64) :
    Mirrors session told state trail (flowFromSocket session state realloc detail ts).1
      (nativeFlowFromSocket session state trail realloc detail ts) := by
  unfold flowFromSocket nativeFlowFromSocket
  dsimp only
  split
  case isTrue => exact Mirrors.refl h
  case isFalse =>
    generalize flowLookup state.flows (socketFlowId session.salt detail.ske)
      (detailSocketInstanceId session.salt detail) detail.netns ts = answer
    rcases answer with ⟨_ | flow, _ | _⟩
    · exact nativeFlowOpen_mirrors h realloc detail _ _ ts _
    · exact Mirrors.refl h
    · exact nativeFlowTouch_mirrors h detail _ ts flow
    · exact nativeFlowTouch_mirrors h detail _ ts flow

end

/-- The end of `flow_from_packet` changes no identity. -/
theorem flowAnchor_same (session : Session) (detail : DetailEvent) (trace : Trace)
    (result : State × Option Nat) :
    (flowAnchor session detail trace result).1.flows.map FlowState.opening =
        result.1.flows.map FlowState.opening ∧
      (flowAnchor session detail trace result).1.ios = result.1.ios ∧
      (flowAnchor session detail trace result).1.out = result.1.out := by
  unfold flowAnchor
  split
  · exact ⟨rfl, rfl, rfl⟩
  · split
    case isFalse => exact ⟨rfl, rfl, rfl⟩
    case isTrue place _ _ =>
      refine ⟨?_, rfl, rfl⟩
      show List.map FlowState.opening (List.modify _ place _) = _
      cases hflow : result.1.flows[place]? with
      | none => rw [modify_none hflow]
      | some flow =>
          rw [modify_some hflow]
          refine map_set FlowState.opening hflow ?_
          cases detail.direction <;> rfl

/-- `flow_from_packet` in both halves. -/
theorem nativeFlowFromPacket_mirrors {session : Session} {state : State} {trail : Trail}
    (h : Tracked session state trail) (realloc : Bool) (detail : DetailEvent) (trace : Trace) :
    Mirrors session told state trail (flowFromPacket session state realloc detail trace).1
      (nativeFlowFromPacket session state trail realloc detail trace) := by
  have hanchor {result : State × Option Nat} {next : Trail}
      (hresult : Mirrors session told state trail result.1 next) :
      Mirrors session told state trail (flowAnchor session detail trace result).1 next := by
    obtain ⟨hflows, hios, hout⟩ := flowAnchor_same session detail trace result
    exact hresult.same hflows hios hout
  unfold flowFromPacket nativeFlowFromPacket
  dsimp only
  split
  case isTrue => exact Mirrors.refl h
  case isFalse =>
    generalize flowLookup state.flows (packetFlowId session.salt detail.pkt)
      (ownerSocketId session.salt detail) detail.netns detail.ts = answer
    cases packetTraceTerminal trace with
    | true => rcases answer with ⟨_ | flow, _ | _⟩ <;> exact Mirrors.refl h
    | false =>
        have htouch (flow : Nat) := @nativeFlowTouch_mirrors told session state trail h detail
          (ownerSocketId session.salt detail) detail.ts flow
        rcases answer with ⟨_ | flow, _ | _⟩
        · exact hanchor (nativeFlowOpen_mirrors h realloc detail _ _ detail.ts _)
        · exact Mirrors.refl h
        · exact @hanchor (_, some flow) _ (htouch flow)
        · exact @hanchor (_, some flow) _ (htouch flow)

end Anettrace.Native
