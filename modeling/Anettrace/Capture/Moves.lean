import Anettrace.Capture.Model
import Anettrace.Native.OverviewMoves

/-!
# A capture follows its moves

Every input of a capture, and its close, is a sequence of moves of the native trace next to the step
of the tables. The slices of flows and protocol calls follow the records of the JSONL file. Those of
sockets and connect attempts follow the flag of one track, which the input names.
-/

namespace Anettrace.Capture

open Anettrace.Export Anettrace.Native Library.Labelled Library.Run

variable {told : UInt64 → UInt64 → Prop}

/-! ## Two halves and the lifetimes -/

/-- A boundary of the slice of a flow or of a protocol call, which the records tell. -/
def isMirrored (mark : Mark) : Bool :=
  match mark.event.category with
  | .flow | .io _ => true
  | _ => false

/-- A boundary of the lifetime of a socket or of a connect attempt. -/
def isLifetime (mark : Mark) : Bool :=
  match mark.event.category with
  | .socket | .connect => true
  | _ => false

/-- A change of the tables together with one of the native trace that begins and ends the given
lifetimes. -/
structure Advances (session : Session) (told : UInt64 → UInt64 → Prop) (before : State)
    (trail : Trail) (lifetimes : List Mark) (after : State) (next : Trail) : Prop where
  tracked : Tracked session after next
  written : ∃ records marks, after.out = before.out ++ records ∧ TrailMoves trail marks next ∧
    marks.filter isMirrored = mirroredMarks session records ∧
      marks.filter isLifetime = lifetimes ∧ Paired told (marks.filter Mark.isBrief) ∧
        ∀ mark ∈ marks, mark.isLasting = true → isMirrored mark = true ∨ isLifetime mark = true

theorem filter_lasting {keep : Mark → Bool} (hkeep : ∀ mark, keep mark = true →
    mark.isLasting = true) (marks : List Mark) :
    (marks.filter Mark.isLasting).filter keep = marks.filter keep := by
  rw [List.filter_filter]
  refine List.filter_congr fun mark _ => ?_
  cases hmark : keep mark with
  | false => rfl
  | true => rw [hkeep mark hmark]; rfl

theorem isMirrored_lasting (mark : Mark) (h : isMirrored mark = true) : mark.isLasting = true := by
  unfold isMirrored at h
  unfold Mark.isLasting
  split at h <;> simp_all

theorem isLifetime_lasting (mark : Mark) (h : isLifetime mark = true) : mark.isLasting = true := by
  unfold isLifetime at h
  unfold Mark.isLasting
  split at h <;> simp_all

/-- Boundaries written with records are of flows and calls. -/
theorem mirroredMarks_split (session : Session) (records : List Record) :
    (mirroredMarks session records).filter isMirrored = mirroredMarks session records ∧
      (mirroredMarks session records).filter isLifetime = [] := by
  have hmark : ∀ mark ∈ mirroredMarks session records,
      isMirrored mark = true ∧ isLifetime mark = false := by
    intro mark hmark
    unfold mirroredMarks at hmark
    split at hmark
    case isTrue => cases hmark
    case isFalse =>
      obtain ⟨record, -, hrecord⟩ := List.mem_filterMap.mp hmark
      cases record <;> cases hrecord <;> exact ⟨rfl, rfl⟩
  refine ⟨List.filter_eq_self.mpr fun mark hmem => (hmark mark hmem).1, ?_⟩
  refine List.filter_eq_nil_iff.mpr fun mark hmem => ?_
  rw [(hmark mark hmem).2]
  exact Bool.false_ne_true

section Advances

variable {session : Session} {before middle after : State} {trail between next : Trail}
  {first second : List Mark}

/-- What mirrors begins and ends no lifetime. -/
theorem mirrors_advances (h : Mirrors session told before trail after next) :
    Advances session told before trail [] after next := by
  obtain ⟨records, marks, hout, hmoves, hmarks, hpaired⟩ := h.written
  obtain ⟨hmirrored, hlifetime⟩ := mirroredMarks_split session records
  refine ⟨h.tracked, records, marks, hout, hmoves, ?_, ?_, hpaired, fun mark hmem hlasting => ?_⟩
  · rw [← filter_lasting isMirrored_lasting, hmarks, hmirrored]
  · rw [← filter_lasting isLifetime_lasting, hmarks, hlifetime]
  · have hmark : mark ∈ mirroredMarks session records :=
      hmarks ▸ List.mem_filter.mpr ⟨hmem, hlasting⟩
    exact Or.inl (List.filter_eq_self.mp hmirrored mark hmark)

theorem Advances.trans (h : Advances session told before trail first middle between)
    (hnext : Advances session told middle between second after next) :
    Advances session told before trail (first ++ second) after next := by
  obtain ⟨records, marks, hout, hmoves, hmirrored, hlifetime, hpaired, hlasting⟩ := h.written
  obtain ⟨more, others, hmore, hothers, hnextMirrored, hnextLifetime, hnextPaired, hnextLasting⟩ :=
    hnext.written
  refine ⟨hnext.tracked, records ++ more, marks ++ others, ?_, hmoves.trans hothers, ?_, ?_, ?_, ?_⟩
  · rw [hmore, hout, List.append_assoc]
  · rw [List.filter_append, hmirrored, hnextMirrored, mirroredMarks_append]
  · rw [List.filter_append, hlifetime, hnextLifetime]
  · rw [List.filter_append]
    exact hpaired.append hnextPaired
  · exact fun mark hmem => (List.mem_append.mp hmem).elim (hlasting mark) (hnextLasting mark)

/-- Moves of the native trace alone that begin and end lasting slices of sockets and attempts
only. -/
theorem tracked_advances (h : Tracked session before trail) {marks : List Mark}
    (hmoves : TrailMoves trail marks next) {lifetimes : List Mark}
    (hmarks : marks.filter Mark.isLasting = lifetimes)
    (hlifetimes : ∀ mark ∈ lifetimes, isLifetime mark = true)
    (hpaired : Paired told (marks.filter Mark.isBrief)) :
    Advances session told before trail lifetimes before next := by
  refine ⟨h.moves hmoves, [], marks, (List.append_nil _).symm, hmoves, ?_, ?_, hpaired,
    fun mark hmem hlasting => ?_⟩
  · rw [← filter_lasting isMirrored_lasting, hmarks, mirroredMarks_nil]
    refine List.filter_eq_nil_iff.mpr fun mark hmem => ?_
    have hlifetime := hlifetimes mark hmem
    unfold isLifetime at hlifetime
    unfold isMirrored
    split at hlifetime <;> simp_all
  · rw [← filter_lasting isLifetime_lasting, hmarks]
    exact List.filter_eq_self.mpr hlifetimes
  · exact Or.inr (hlifetimes mark (hmarks ▸ List.mem_filter.mpr ⟨hmem, hlasting⟩))

theorem Advances.imp {more : UInt64 → UInt64 → Prop}
    (h : Advances session told before trail first after next)
    (himp : ∀ start finish, told start finish → more start finish) :
    Advances session more before trail first after next := by
  obtain ⟨records, marks, hout, hmoves, hmirrored, hlifetime, hpaired, hlasting⟩ := h.written
  exact ⟨h.tracked, records, marks, hout, hmoves, hmirrored, hlifetime, hpaired.imp himp, hlasting⟩

theorem Advances.moves (h : Advances session told before trail first after next) :
    ∃ marks, TrailMoves trail marks next ∧ marks.filter isLifetime = first := by
  obtain ⟨_, marks, -, hmoves, -, hlifetime, -⟩ := h.written
  exact ⟨marks, hmoves, hlifetime⟩

end Advances

/-! ## The lifetimes of an input -/

/-- The track whose flag an input reads and sets, and the boundaries it writes for that track. -/
def touched (session : Session) : CaptureInput → Option (UInt64 × (NativeTrack → List Mark))
  | .event sample extension _ _ =>
      let detail := sample.detail
      let uuid := socketUuid session.salt (recordSocketId session.salt detail)
      if session.traceTags then none
      else
        match branch session sample with
        | .lifecycle =>
            if createsSocket session detail then
              some (uuid, createMarks extension.startTs detail.ts)
            else some (uuid, recordMarks detail.ts (extension.newstate = tcpClose))
        | .socket trace => some (uuid, recordMarks detail.ts (socketTraceTerminal trace))
        | _ => none
  | .connect connect =>
      some (connectUuid session.salt (connect.attemptId session.salt),
        connectMarks session.salt connect)
  | _ => none

/-- The lifetimes that a step begins and ends, by the flag of the track it touches. Nothing before
the track is there begins or ends one. -/
def Turns (touched : Option (UInt64 × (NativeTrack → List Mark))) (trail next : Trail)
    (lifetimes : List Mark) : Prop :=
  match touched with
  | none => lifetimes = []
  | some (uuid, marks) =>
      ∃ found track early late, TrailMoves trail early found ∧ early.filter isLifetime = [] ∧
        track ∈ found.tracks ∧ track.uuid = uuid ∧ TrailMoves found late next ∧
        late.filter isLifetime = marks track ∧ lifetimes = marks track

/-- A function that touches a track, between moves that begin and end no lifetime. -/
theorem touches_turns {session : Session} {before middle after : State}
    {start trail next last : Trail} {uuid : UInt64} {lifetimes : NativeTrack → List Mark}
    (hearly : Advances session told before start [] middle trail)
    (h : Touches told uuid lifetimes trail next)
    (hlifetimes : ∀ track, ∀ mark ∈ lifetimes track, isLifetime mark = true)
    (hlate : Tracked session middle next → Advances session told middle next [] after last) :
    ∃ marks, Advances session told before start marks after last ∧
      Turns (some (uuid, lifetimes)) start last marks := by
  obtain ⟨found, track, marks, hfound, htrack, huuid, hmoves, hmarks, hpaired⟩ := h
  have hshown := hearly.tracked.moves hfound
  have hmiddle := tracked_advances hshown hmoves hmarks (hlifetimes track) hpaired
  have hall := hlate hmiddle.tracked
  have hbefore : Advances session told middle trail [] middle found :=
    tracked_advances hearly.tracked hfound rfl (by simp) .nil
  obtain ⟨early, hearlyMoves, hearlyMarks⟩ := (hearly.trans hbefore).moves
  obtain ⟨late, hlateMoves, hlateMarks⟩ := (hmiddle.trans hall).moves
  rw [List.append_nil] at hlateMarks
  have hadvances := (hearly.trans hbefore).trans (hmiddle.trans hall)
  rw [List.append_nil, List.nil_append, List.append_nil] at hadvances
  exact ⟨_, hadvances, found, track, early, late, hearlyMoves, hearlyMarks, htrack, huuid,
    hlateMoves, hlateMarks, rfl⟩

/-- The times of the slices that an input begins and ends at once: of system calls, and of the
allocation of a socket. -/
def briefSpans (session : CaptureSession) (exporter : Exporter) : CaptureInput → List (Nat × Nat)
  | .event sample extension _ _ =>
      match branch session.toSession sample with
      | .lifecycle =>
          if createsSocket session.toSession sample.detail then
            [(extension.startTs.toNat, sample.detail.ts.toNat)]
          else []
      | _ => []
  | .syscall call size =>
      if size < session.syscallSize then []
      else
        callSpans session (ringLatest exporter.native.out).toNat (handledCalls exporter.state call)
  | _ => []

/-! ## Steps -/

/-- What holds of the exporter between two inputs. -/
structure Coupled (session : CaptureSession) (exporter : Exporter) : Prop where
  tracked : Tracked session.toSession exporter.state exporter.native.toTrail
  ready : exporter.native.Ready
  sound : exporter.state.books.Sound

/-- One input: the two halves advance, and the lifetimes are those of the track that it touches. -/
structure StepAdvances (session : CaptureSession) (told : UInt64 → UInt64 → Prop)
    (exporter : Exporter) (input : CaptureInput) (lifetimes : List Mark) (after : State)
    (next : Overview) : Prop where
  advances : Advances session.toSession told exporter.state exporter.native.toTrail lifetimes after
    next.toTrail
  turns : Turns (touched session.toSession input) exporter.native.toTrail next.toTrail lifetimes
  ready : next.Ready

/-- The boundaries of lifetimes are of sockets and attempts. -/
theorem recordMarks_lifetimes (ts : UInt64) (terminal : Bool) (track : NativeTrack) :
    ∀ mark ∈ recordMarks ts terminal track, isLifetime mark = true := by
  intro mark hmark
  unfold recordMarks closeMarks openMarks at hmark
  cases terminal <;> cases hactive : track.active <;> simp [hactive] at hmark <;>
    (subst hmark; rfl)

theorem createMarks_lifetimes (startTs ts : UInt64) (track : NativeTrack) :
    ∀ mark ∈ createMarks startTs ts track, isLifetime mark = true := by
  intro mark hmark
  rcases List.mem_append.mp hmark with hclose | hopen
  · exact recordMarks_lifetimes startTs true track mark hclose
  · rw [List.mem_singleton.mp hopen]
    rfl

theorem connectMarks_lifetimes (salt : UInt64) (connect : ConnectEvent) (track : NativeTrack) :
    ∀ mark ∈ connectMarks salt connect track, isLifetime mark = true := by
  intro mark hmark
  unfold connectMarks at hmark
  dsimp only at hmark
  split at hmark
  · rw [List.mem_singleton.mp hmark]
    rfl
  · split at hmark
    · rw [List.mem_singleton.mp hmark]
      rfl
    · cases hmark

variable {session : CaptureSession} {exporter : Exporter}

/-- An input that touches no track, and leaves the queue of the overview. -/
theorem Coupled.mirrors (h : Coupled session exporter) {input : CaptureInput} {after : State}
    {next : Trail}
    (hmirrors : Mirrors session.toSession told exporter.state exporter.native.toTrail after next)
    (htouched : touched session.toSession input = none) :
    StepAdvances session told exporter input [] after (withTrail exporter.native next) := by
  have hadvances := mirrors_advances hmirrors
  obtain ⟨marks, hmoves, -⟩ := hadvances.moves
  refine ⟨hadvances, ?_, @Overview.Ready.moves _ (withTrail exporter.native next) h.ready marks
    hmoves rfl⟩
  rw [htouched]
  rfl

theorem Coupled.flushed (h : Coupled session exporter) (ts : UInt64) :
    Mirrors session.toSession told exporter.state exporter.native.toTrail exporter.state
        (overviewFlush session.toSession exporter.state exporter.native ts false).toTrail ∧
      (overviewFlush session.toSession exporter.state exporter.native ts false).Ready := by
  obtain ⟨waiting, hdrains⟩ := h.ready.drains
  obtain ⟨remaining, hflushed⟩ := @Drains.flush session.toSession _ _ _ hdrains exporter.state ts
    false
  exact ⟨h.tracked.quiet hflushed.moves, hflushed.ready⟩

theorem Coupled.observed (h : Coupled session exporter) (detail : DetailEvent) :
    Mirrors session.toSession told exporter.state exporter.native.toTrail exporter.state
        (overviewObserve session.toSession exporter.state exporter.native detail).toTrail ∧
      (overviewObserve session.toSession exporter.state exporter.native detail).Ready := by
  obtain ⟨waiting, hdrains⟩ := h.ready.drains
  obtain ⟨remaining, hobserved⟩ := @Drains.observe session.toSession _ _ _ hdrains exporter.state
    detail
  exact ⟨h.tracked.quiet hobserved.moves, hobserved.ready⟩

/-- The packet branch of both halves. -/
theorem nativePacketEvent_mirrors {session : Session} {state : State} {trail : Trail}
    (h : Tracked session state trail) (realloc : Realloc) (detail : DetailEvent) (trace : Trace) :
    Mirrors session told state trail (packetEvent session state realloc detail trace)
      (nativePacketEvent session state trail realloc detail trace) := by
  have hflow : Mirrors session told _ _ _ _ :=
    nativeFlowFromPacket_mirrors h realloc.flow detail trace
  unfold packetEvent nativePacketEvent
  exact hflow.trans (nativePacketIoLink_mirrors hflow.tracked detail _)

theorem nativeExportPacketEvent_drains {overview : Overview} (state : State)
    (hready : overview.Ready) (sample : Sample) (cpu : Int) (trace : Trace) :
    ∃ remaining, Drains overview.toTrail
      (nativeExportPacketEvent session state overview sample cpu trace) remaining := by
  obtain ⟨waiting, hdrains⟩ := hready.drains
  obtain ⟨remaining, hobserved⟩ :=
    @Drains.observe session.toSession _ _ _ hdrains state sample.detail
  unfold nativeExportPacketEvent
  dsimp only
  generalize overviewObserve session.toSession state overview sample.detail = observed at *
  have hthread := nativeThreadTrack_created session.salt observed.toTrail sample.detail.tgid
    sample.detail.tid sample.detail.task
  have hmoves := hthread.creates.moves
  have hfound : Drains overview.toTrail (withTrail observed
      (nativeThreadTrack session.salt observed.toTrail sample.detail.tgid sample.detail.tid
        sample.detail.task).1) remaining :=
    ⟨hobserved.holds, fun pending hpending => hmoves.hasTrack (hobserved.tracks pending hpending),
      hobserved.moves.then_silent hmoves⟩
  exact @Drains.queue session.toSession _ _ _ hfound state
    (packetRequest session state sample cpu trace) hthread.hasTrack

theorem StepAdvances.silent {input : CaptureInput} {after : State} {next : Overview}
    (hmirrors : Mirrors session.toSession told exporter.state exporter.native.toTrail after
      next.toTrail) (hready : next.Ready) (htouched : touched session.toSession input = none) :
    StepAdvances session told exporter input [] after next := by
  refine ⟨mirrors_advances hmirrors, ?_, hready⟩
  rw [htouched]
  rfl

theorem StepAdvances.touches {input : CaptureInput} {middle after : State} {flushed : Overview}
    {trail next last : Trail} {uuid : UInt64} {lifetimes : NativeTrack → List Mark}
    (hflushed : flushed.Ready)
    (hearly : Mirrors session.toSession told exporter.state exporter.native.toTrail middle trail)
    (hfrom : ∃ marks, TrailMoves flushed.toTrail marks trail)
    (htouches : Touches told uuid lifetimes trail next)
    (hlifetimes : ∀ track, ∀ mark ∈ lifetimes track, isLifetime mark = true)
    (hlate : Tracked session.toSession middle next →
      Mirrors session.toSession told middle next after last)
    (htouched : touched session.toSession input = some (uuid, lifetimes)) :
    ∃ marks, StepAdvances session told exporter input marks after (withTrail flushed last) := by
  obtain ⟨marks, hadvances, hturns⟩ := touches_turns (mirrors_advances hearly) htouches hlifetimes
    fun htracked => mirrors_advances (hlate htracked)
  obtain ⟨before, hbefore⟩ := hfrom
  obtain ⟨found, _, middleMarks, hfound, -, -, hmiddle, -, -⟩ := htouches
  have hnext := hfound.silent_then hmiddle
  obtain ⟨_, lateMarks, -, hlateMoves, -, -⟩ :=
    (hlate ((hearly.tracked.moves hfound).moves hmiddle)).written
  have hmoves := (hbefore.trans hnext).trans hlateMoves
  exact ⟨marks, hadvances, htouched ▸ hturns,
    @Overview.Ready.moves _ (withTrail flushed last) hflushed _ hmoves rfl⟩

def nativeSocketFlow (session : Session) (state : State) (trail : Trail) (realloc : Realloc)
    (detail : DetailEvent) (trace : Trace) : Trail :=
  if !socketTraceTerminal trace ∧ trace.name ≠ "tcp_close" then
    nativeFlowFromSocket session state trail realloc.flow detail detail.ts
  else trail

/-- The flows that a terminal record of a socket finishes. -/
def socketFinish (session : Session) (state : State) (detail : DetailEvent) (trace : Trace) :
    State :=
  if socketTraceTerminal trace then
    finishFlows state (fun flow => flow.socketId = detailSocketInstanceId session.salt detail)
      (flowFinish detail.ts .socketDestroy false)
  else state

def nativeSocketFinish (session : Session) (state : State) (trail : Trail) (detail : DetailEvent)
    (trace : Trace) : Trail :=
  if socketTraceTerminal trace then
    nativeFinishFlows session state trail
      (fun flow => flow.socketId = detailSocketInstanceId session.salt detail) (fun _ => detail.ts)
  else trail

theorem socketEvent_eq (session : Session) (state : State) (realloc : Realloc)
    (detail : DetailEvent) (trace : Trace) :
    socketEvent session state realloc detail trace =
      socketFinish session (socketFlowState session state realloc detail trace) detail trace := rfl

theorem nativeSocketEvent_eq (session : Session) (state : State) (trail : Trail)
    (realloc : Realloc) (detail : DetailEvent) (trace : Trace) :
    nativeSocketEvent session state trail realloc detail trace =
      nativeSocketFinish session (socketFlowState session state realloc detail trace)
        (nativeExportSocketEvent session
          (nativeSocketFlow session state trail realloc detail trace) detail trace) detail trace :=
            rfl

theorem socketFlow_mirrors {session : Session} {state : State} {trail : Trail}
    (h : Tracked session state trail) (realloc : Realloc) (detail : DetailEvent) (trace : Trace) :
    Mirrors session told state trail (socketFlowState session state realloc detail trace)
      (nativeSocketFlow session state trail realloc detail trace) := by
  unfold socketFlowState nativeSocketFlow
  split
  · exact nativeFlowFromSocket_mirrors h realloc.flow detail detail.ts
  · exact Mirrors.refl h

theorem socketFinish_mirrors {session : Session} {state : State} {trail : Trail}
    (h : Tracked session state trail) (detail : DetailEvent) (trace : Trace) :
    Mirrors session told state trail (socketFinish session state detail trace)
      (nativeSocketFinish session state trail detail trace) := by
  unfold socketFinish nativeSocketFinish
  split
  · exact nativeFinishFlows_mirrors h _ (fun _ => detail.ts) .socketDestroy false
  · exact Mirrors.refl h

theorem Coupled.event (h : Coupled session exporter) (sample : Sample) (extension : SocketExtension)
    (cpu : Int) (realloc : Realloc) (htold : branch session.toSession sample = .lifecycle →
      createsSocket session.toSession sample.detail = true →
        told extension.startTs sample.detail.ts) :
    ∃ lifetimes, StepAdvances session told exporter (.event sample extension cpu realloc) lifetimes
      (exportEvent session.toSession exporter.state sample cpu realloc)
      (nativeExportEvent session exporter.state exporter.native sample extension cpu realloc) := by
  obtain ⟨hflush, hready⟩ := @Coupled.flushed told _ _ h sample.detail.ts
  have htouched : touched session.toSession (.event sample extension cpu realloc) =
      if session.traceTags then none
      else
        match branch session.toSession sample with
        | .lifecycle =>
            if createsSocket session.toSession sample.detail then
              some (socketUuid session.salt (recordSocketId session.salt sample.detail),
                createMarks extension.startTs sample.detail.ts)
            else
              some (socketUuid session.salt (recordSocketId session.salt sample.detail),
                recordMarks sample.detail.ts (extension.newstate = tcpClose))
        | .socket trace =>
            some (socketUuid session.salt (recordSocketId session.salt sample.detail),
              recordMarks sample.detail.ts (socketTraceTerminal trace))
        | _ => none := rfl
  have hcount {after : State} {next : Trail}
      (hmirrors : Mirrors session.toSession told exporter.state exporter.native.toTrail after
        next) :
      Mirrors session.toSession told exporter.state exporter.native.toTrail after.countExported
        next :=
    hmirrors.same rfl rfl rfl
  unfold exportEvent nativeExportEvent
  dsimp only
  generalize overviewFlush session.toSession exporter.state exporter.native sample.detail.ts false =
    flushed at *
  cases hbranch : branch session.toSession sample with
  | ignored =>
      have hnone : touched session.toSession (.event sample extension cpu realloc) = none := by
        rw [htouched, hbranch]
        exact ite_self none
      exact ⟨[], StepAdvances.silent (Mirrors.refl h.tracked) h.ready hnone⟩
  | returned =>
      have hnone : touched session.toSession (.event sample extension cpu realloc) = none := by
        rw [htouched, hbranch]
        exact ite_self none
      have hfinish : Mirrors session.toSession told _ _ _ _ :=
        nativePendingIoFinish_mirrors h.tracked h.sound
          (pendingIoFind exporter.state sample.detail.func sample.detail.tid) sample.detail.ts
          (returnValue sample.detail.retval) false
      exact ⟨[], h.mirrors (hcount hfinish) hnone⟩
  | hidden trace =>
      have hnone : touched session.toSession (.event sample extension cpu realloc) = none := by
        rw [htouched, hbranch]
        exact ite_self none
      obtain ⟨hobserve, hobserved⟩ := @Coupled.observed told _ _ h sample.detail
      dsimp only
      generalize overviewObserve session.toSession exporter.state exporter.native sample.detail =
        observed at *
      have hpacket : Mirrors session.toSession told _ _ _ _ :=
        nativePacketEvent_mirrors hobserve.tracked realloc sample.detail trace
      obtain ⟨_, marks, -, hmoves, -, -⟩ := hpacket.written
      exact ⟨[], StepAdvances.silent (hobserve.trans hpacket)
        (@Overview.Ready.moves _ (withTrail observed _) hobserved marks hmoves rfl) hnone⟩
  | io trace =>
      have hnone : touched session.toSession (.event sample extension cpu realloc) = none := by
        rw [htouched, hbranch]
        exact ite_self none
      have hstart : Mirrors session.toSession told _ _ _ _ :=
        nativePendingIoStart_mirrors hflush.tracked h.sound realloc sample.detail trace cpu
      obtain ⟨_, marks, -, hmoves, -, -⟩ := hstart.written
      exact ⟨[], StepAdvances.silent (hcount (hflush.trans hstart))
        (@Overview.Ready.moves _ (withTrail flushed _) hready marks hmoves rfl) hnone⟩
  | lifecycle =>
      dsimp only
      cases htags : session.traceTags with
      | true =>
          have hnone : touched session.toSession (.event sample extension cpu realloc) = none := by
            rw [htouched, if_pos htags]
          -- in tags mode only the allocation of the socket is shown
          have hpassing : Passing told flushed.toTrail
              (if createsSocket session.toSession sample.detail then
                nativeExportSocketCreate session.toSession flushed.toTrail sample.detail
                  extension.startTs
              else nativeExportSocketState session.toSession flushed.toTrail sample.detail
                extension.newstate) := by
            split
            case isTrue hcreates =>
              exact nativeExportSocketCreate_passing htags flushed.toTrail sample.detail
                (htold hbranch hcreates)
            case isFalse =>
              unfold nativeExportSocketState
              rw [if_pos htags]
              exact Passing.refl _
          have hmirrors := hpassing.mirrors hflush.tracked
          obtain ⟨marks, hmoves, -, -⟩ := hpassing
          exact ⟨[], StepAdvances.silent (hcount (hflush.trans hmirrors))
            (@Overview.Ready.moves _ (withTrail flushed _) hready marks hmoves rfl) hnone⟩
      | false =>
          rw [hbranch, if_neg (by simp [htags])] at htouched
          have hlate (next : Trail) (htracked : Tracked session.toSession exporter.state next) :
              Mirrors session.toSession told exporter.state next exporter.state.countExported
                next :=
            (Mirrors.refl htracked).same rfl rfl rfl
          by_cases hcreates : createsSocket session.toSession sample.detail = true
          · rw [if_pos hcreates]
            simp only [hcreates, if_true] at htouched
            exact StepAdvances.touches hready hflush ⟨[], Moves.refl _⟩
              (nativeExportSocketCreate_touches htags flushed.toTrail sample.detail
                (htold hbranch hcreates))
              (createMarks_lifetimes _ _) (hlate _) htouched
          · rw [if_neg hcreates]
            simp only [hcreates] at htouched
            exact StepAdvances.touches hready hflush ⟨[], Moves.refl _⟩
              (nativeExportSocketState_touches htags flushed.toTrail sample.detail
                extension.newstate)
              (recordMarks_lifetimes _ _) (hlate _) htouched
  | socket trace =>
      dsimp only
      have hlinked : Mirrors session.toSession told _ _ _ _ :=
        socketFlow_mirrors hflush.tracked realloc sample.detail trace
      rw [nativeSocketEvent_eq, socketEvent_eq]
      generalize socketFlowState session.toSession exporter.state realloc sample.detail trace =
        linked at *
      generalize nativeSocketFlow session.toSession exporter.state flushed.toTrail realloc
        sample.detail trace = trail at *
      obtain ⟨_, marks, -, hmoves, -, -⟩ := hlinked.written
      have hlate (next : Trail) (htracked : Tracked session.toSession linked next) :
          Mirrors session.toSession told _ _ _ _ :=
        socketFinish_mirrors htracked sample.detail trace
      cases htags : session.traceTags with
      | true =>
          have hnone : touched session.toSession (.event sample extension cpu realloc) = none := by
            rw [htouched, if_pos htags]
          -- in tags mode the record itself is not shown
          have hsame : nativeExportSocketEvent session.toSession trail sample.detail trace =
              trail :=
            if_pos htags
          rw [hsame]
          obtain ⟨_, more, -, hmore, -, -⟩ := (hlate trail hlinked.tracked).written
          exact ⟨[], StepAdvances.silent
            (hcount (hflush.trans (hlinked.trans (hlate trail hlinked.tracked))))
            (@Overview.Ready.moves _ (withTrail flushed _) hready _ (hmoves.trans hmore) rfl) hnone⟩
      | false =>
          rw [hbranch, if_neg (by simp [htags])] at htouched
          exact StepAdvances.touches hready (hflush.trans hlinked) ⟨marks, hmoves⟩
            (nativeExportSocketEvent_touches htags trail sample.detail trace)
            (recordMarks_lifetimes _ _)
            (fun htracked => (hlate _ htracked).same rfl rfl rfl) htouched
  | packet trace =>
      have hnone : touched session.toSession (.event sample extension cpu realloc) = none := by
        rw [htouched, hbranch]
        exact ite_self none
      have hpacket : Mirrors session.toSession told _ _ _ _ :=
        nativePacketEvent_mirrors hflush.tracked realloc sample.detail trace
      obtain ⟨_, marks, -, hmoves, -, -⟩ := hpacket.written
      have hlinked := @Overview.Ready.moves _ (withTrail flushed _) hready marks hmoves rfl
      obtain ⟨remaining, hdrains⟩ := @nativeExportPacketEvent_drains session _
        (packetEvent session.toSession exporter.state realloc sample.detail trace)
          hlinked sample cpu
        trace
      have hqueue : Mirrors session.toSession told _ _ _ _ := hpacket.tracked.quiet hdrains.moves
      exact ⟨[], StepAdvances.silent (hcount (hflush.trans (hpacket.trans hqueue)))
        hdrains.ready hnone⟩

theorem Coupled.step (h : Coupled session exporter) (input : CaptureInput) :
    ∃ lifetimes, StepAdvances session (ToldBy (briefSpans session exporter input)) exporter input
      lifetimes (tablesStep session.toSession exporter.state input)
      (nativeStep session exporter.state exporter.native input) := by
  have hsame {told : UInt64 → UInt64 → Prop} {after : State}
      (hflows : after.flows = exporter.state.flows)
      (hios : after.ios = exporter.state.ios) (hout : after.out = exporter.state.out) {next : Trail}
      (hpassing : Passing told exporter.native.toTrail next) :
      Mirrors session.toSession told exporter.state exporter.native.toTrail after next :=
    (hpassing.mirrors h.tracked).same (congrArg _ hflows) hios hout
  have hcount {told : UInt64 → UInt64 → Prop} {after : State} {next : Trail}
      (hmirrors : Mirrors session.toSession told exporter.state exporter.native.toTrail after
        next) :
      Mirrors session.toSession told exporter.state exporter.native.toTrail after.countExported
        next :=
    hmirrors.same rfl rfl rfl
  cases input with
  | clock monotonicNs boottimeNs realtimeNs =>
      have hmoves :=
        Moves.single (@TrailMove.snapshot exporter.native.toTrail monotonicNs boottimeNs
        realtimeNs)
      exact ⟨[], h.mirrors (h.tracked.quiet hmoves) rfl⟩
  | ret record size =>
      show ∃ lifetimes, StepAdvances session _ exporter (.ret record size) lifetimes
        (exportRet session.toSession exporter.state record size)
        (if size < session.retSize ∨ !(session.getTrace record.func).any traceIsIo then
          exporter.native
        else
          withTrail exporter.native (nativePendingIoFinish session.toSession exporter.state
            exporter.native.toTrail (pendingIoFind exporter.state record.func record.tid)
              record.ts))
      unfold exportRet
      by_cases hskipped : size < session.retSize ∨ !(session.getTrace record.func).any traceIsIo
      · rw [if_pos hskipped, if_pos hskipped]
        exact ⟨[], StepAdvances.silent (Mirrors.refl h.tracked) h.ready rfl⟩
      · rw [if_neg hskipped, if_neg hskipped]
        have hfinish := @nativePendingIoFinish_mirrors (ToldBy []) session.toSession _ _ h.tracked
          h.sound (pendingIoFind exporter.state record.func record.tid) record.ts
          (returnValue record.val) false
        exact ⟨[], h.mirrors (hcount hfinish) rfl⟩
  | event sample extension cpu realloc =>
      refine h.event sample extension cpu realloc fun hbranch hcreates => ?_
      show _ ∈ briefSpans session exporter (.event sample extension cpu realloc)
      unfold briefSpans
      dsimp only
      rw [hbranch]
      dsimp only
      rw [if_pos hcreates]
      exact List.mem_singleton_self _
  | syscall call size =>
      show ∃ lifetimes, StepAdvances session
        (ToldBy (if size < session.syscallSize then []
          else callSpans session (ringLatest exporter.native.out).toNat
            (handledCalls exporter.state call)))
        exporter (.syscall call size) lifetimes
        (if size < session.syscallSize then exporter.state
          else (handleNetworkSyscall session.salt exporter.state call).countExported)
        (if size < session.syscallSize then exporter.native
          else withTrail exporter.native
            (nativeHandleNetworkSyscall session exporter.state exporter.native.toTrail call))
      by_cases hshort : size < session.syscallSize
      · rw [if_pos hshort, if_pos hshort, if_pos hshort]
        exact ⟨[], StepAdvances.silent (Mirrors.refl h.tracked) h.ready rfl⟩
      · rw [if_neg hshort, if_neg hshort, if_neg hshort]
        exact ⟨[], h.mirrors (hcount (nativeHandleNetworkSyscall_mirrors h.tracked call)) rfl⟩
  | connect connect =>
      exact StepAdvances.touches h.ready (Mirrors.refl h.tracked) ⟨[], Moves.refl _⟩
        (nativeExportConnectEvent_touches session.toSession exporter.native.toTrail connect)
        (connectMarks_lifetimes _ _) (fun htracked => (Mirrors.refl htracked).same rfl rfl rfl) rfl
  | handoff ready =>
      have hmirrors :=
        @hsame (ToldBy []) (tablesStep session.toSession exporter.state (.handoff ready)) rfl rfl
          rfl _ (nativeExportRxHandoff_passing session.toSession _ ready)
      exact ⟨[], h.mirrors hmirrors rfl⟩
  | lost now count =>
      have hmirrors :=
        @hsame (ToldBy []) (tablesStep session.toSession exporter.state (.lost now count)) rfl rfl
          rfl _
          (Passing.quiet (nativeExportMeta_moves session.toSession _ (tickTime exporter.state now)))
      exact ⟨[], h.mirrors hmirrors rfl⟩
  | queueLost now count =>
      have hmirrors :=
        @hsame (ToldBy []) (tablesStep session.toSession exporter.state (.queueLost now count)) rfl
          rfl rfl _
          (Passing.quiet (nativeExportMeta_moves session.toSession _ (tickTime exporter.state now)))
      exact ⟨[], h.mirrors hmirrors rfl⟩
  | markCaptureEnd now =>
      show ∃ lifetimes, StepAdvances session _ exporter (.markCaptureEnd now) lifetimes
        (if now = 0 then exporter.state else { exporter.state with captureEndNs := now })
        exporter.native
      split
      · exact ⟨[], StepAdvances.silent (Mirrors.refl h.tracked) h.ready rfl⟩
      · exact ⟨[], StepAdvances.silent ((Mirrors.refl h.tracked).same rfl rfl rfl) h.ready rfl⟩
  | tick now =>
      show ∃ lifetimes, StepAdvances session _ exporter (.tick now) lifetimes
        (Export.tick exporter.state now)
        (if tickTime exporter.state now = 0 then exporter.native
        else
          withTrail
            (overviewFlush session.toSession exporter.state exporter.native
              (tickTime exporter.state now) false)
            (nativeFinishFlows session.toSession exporter.state
              (overviewFlush session.toSession exporter.state exporter.native
                (tickTime exporter.state now) false).toTrail
              (idle (tickTime exporter.state now)) fun flow => flow.lastTs + udpFlowIdleNs))
      unfold Export.tick
      split
      · exact ⟨[], StepAdvances.silent (Mirrors.refl h.tracked) h.ready rfl⟩
      · obtain ⟨hflush, hready⟩ := @Coupled.flushed (ToldBy []) _ _ h (tickTime exporter.state now)
        generalize overviewFlush session.toSession exporter.state exporter.native
          (tickTime exporter.state now) false = flushed at *
        have hfinish := @nativeFinishFlows_mirrors (ToldBy []) session.toSession _ _ hflush.tracked
          (idle (tickTime exporter.state now)) (fun flow => flow.lastTs + udpFlowIdleNs)
          .idleTimeout true
        obtain ⟨_, marks, -, hmoves, -, -⟩ := hfinish.written
        exact ⟨[], StepAdvances.silent (hflush.trans hfinish)
          (@Overview.Ready.moves _ (withTrail flushed _) hready marks hmoves rfl) rfl⟩

theorem Coupled.after (h : Coupled session exporter) (input : CaptureInput) :
    Coupled session (captureStep session exporter input) := by
  obtain ⟨lifetimes, hadvances, -, hready⟩ := h.step input
  refine ⟨hadvances.tracked, hready, ?_⟩
  show (tablesStep session.toSession exporter.state input).books.Sound
  unfold tablesStep
  cases input.toInput with
  | none => exact h.sound
  | some input =>
      obtain ⟨labels, hmoves, -⟩ := step_moves h.sound input
      exact moves_sound h.sound hmoves

theorem Coupled.init (session : CaptureSession) : Coupled session Exporter.init :=
  ⟨⟨fun _ _ h => (by cases h), fun _ _ h => (by cases h)⟩, Overview.Ready.init, Books.sound_empty⟩

/-! ## Runs -/

@[simp] theorem captured_concat (session : CaptureSession) (inputs : List CaptureInput)
    (input : CaptureInput) :
    captured session (inputs ++ [input]) =
      captureStep session (captured session inputs) input :=
  run_concat _ _ _ _

theorem captured_coupled (session : CaptureSession) (inputs : List CaptureInput) :
    Coupled session (captured session inputs) :=
  @run_invariant _ _ (captureStep session) Exporter.init (Coupled session) (Coupled.init session)
    (fun _ input h => h.after input) inputs

/-- The times of the slices that the inputs of a run begin and end at once. -/
def runBrief (session : CaptureSession) (inputs : List CaptureInput) : List (Nat × Nat) :=
  observations (captureStep session) (briefSpans session) Exporter.init inputs

theorem captured_moves (session : CaptureSession) (inputs : List CaptureInput) :
    ∃ lifetimes, Advances session.toSession (ToldBy (runBrief session inputs)) State.init
      Trail.init lifetimes (captured session inputs).state
      (captured session inputs).native.toTrail := by
  induction inputs using List.reverseRecOn with
  | nil => exact ⟨[], mirrors_advances (Mirrors.refl (Coupled.init session).tracked)⟩
  | append_singleton history input ih =>
      obtain ⟨lifetimes, hadvances⟩ := ih
      obtain ⟨more, hstep, -, -⟩ := (captured_coupled session history).step input
      have htold : runBrief session (history ++ [input]) = runBrief session history ++
          briefSpans session (captured session history) input := observations_concat _ _
      rw [captured_concat, htold]
      exact ⟨lifetimes ++ more, (hadvances.imp fun _ _ => List.mem_append_left _).trans
        (hstep.imp fun _ _ => List.mem_append_right _)⟩

theorem captured_state (session : CaptureSession) (inputs : List CaptureInput) :
    (captured session inputs).state =
      reached session.toSession (inputs.filterMap CaptureInput.toInput) := by
  induction inputs using List.reverseRecOn with
  | nil => rfl
  | append_singleton history input ih =>
      rw [captured_concat, List.filterMap_append]
      show tablesStep session.toSession (captured session history).state input = _
      unfold tablesStep
      cases hinput : input.toInput with
      | none => simpa [hinput] using ih
      | some found => simp [hinput, ih]

end Anettrace.Capture
