import Anettrace.Capture.Latest
import Anettrace.Capture.Lifetimes

/-!
# The times of slices

When each slice of a capture begins and ends, as its inputs tell: the records of flows and protocol
calls by the tables before an input, those of sockets and connect attempts by when the slice that is
open was begun, and system calls and allocations by their own times.
-/

namespace Anettrace.Capture

open Anettrace.Export Anettrace.Native Library.Labelled Library.Run Library.Table
  Library.Alternation

/-! ## Slices in lists of boundaries -/

/-- A slice in a list of boundaries: at its end, its beginning was the last one. -/
def SliceIn (marks : List Mark) (opening ending : Mark) : Prop :=
  ∃ before between after, marks = before ++ opening :: between ++ ending :: after ∧
    ending.event.type = .sliceEnd ∧ opening.event = ending.event.opening ∧
      ∀ mark ∈ between, mark.event ≠ ending.event.opening

section SliceIn

variable {told : UInt64 → UInt64 → Prop} {marks : List Mark} {opening ending : Mark}

theorem SliceIn.filter (h : SliceIn marks opening ending) {keep : Mark → Bool}
    (hopening : keep opening = true) (hending : keep ending = true) :
    SliceIn (marks.filter keep) opening ending := by
  obtain ⟨before, between, after, rfl, htype, hsame, hlast⟩ := h
  refine ⟨before.filter keep, between.filter keep, after.filter keep, ?_, htype, hsame,
    fun mark hmark => hlast mark (List.mem_filter.mp hmark).1⟩
  rw [List.filter_append, List.filter_append, List.filter_cons_of_pos hopening,
    List.filter_cons_of_pos hending]

/-- The end of a slice that is begun and at once ended stands behind its beginning. -/
theorem paired_front (h : Paired told marks) {front after : List Mark}
    (heq : marks = front ++ ending :: after) (htype : ending.event.type = .sliceEnd) :
    ∃ rest start, front = rest ++ [⟨start, ending.event.opening⟩] ∧ told start ending.ts := by
  induction h generalizing front with
  | nil => exact absurd heq.symm (by simp)
  | @pair start finish event rest htold _ _ ih =>
      match front with
      | [] =>
          obtain ⟨rfl, -⟩ := List.cons.inj heq
          cases htype
      | [first] =>
          obtain ⟨rfl, hrest⟩ := List.cons.inj heq
          obtain ⟨rfl, -⟩ := List.cons.inj hrest
          exact ⟨[], start, rfl, htold⟩
      | first :: second :: front =>
          obtain ⟨rfl, htail⟩ := List.cons.inj heq
          obtain ⟨rfl, hrest⟩ := List.cons.inj htail
          obtain ⟨before, begun, rfl, hbegun⟩ := ih hrest
          exact ⟨_ :: _ :: before, begun, rfl, hbegun⟩

theorem paired_told (h : Paired told marks) (hslice : SliceIn marks opening ending) :
    told opening.ts ending.ts := by
  obtain ⟨before, between, after, heq, htype, -, hlast⟩ := hslice
  obtain ⟨rest, start, hfront, htold⟩ := paired_front h heq htype
  rcases List.eq_nil_or_concat' between with rfl | ⟨inner, last, rfl⟩
  · obtain ⟨-, hopening⟩ := List.append_inj' hfront rfl
    obtain rfl := List.singleton_inj.mp hopening
    exact htold
  · rw [← List.cons_append, ← List.append_assoc] at hfront
    obtain ⟨-, hopening⟩ := List.append_inj' hfront rfl
    obtain rfl := List.singleton_inj.mp hopening
    exact absurd rfl (hlast _ (List.mem_append_right _ (List.mem_singleton_self _)))

end SliceIn

/-! ## Flows and protocol calls -/

/-- The times of flows and protocol calls that are ended; tags mode does not show them. -/
def endSpans (session : Session) (flows : List (FlowState × UInt64))
    (calls : List (PendingIo × UInt64)) : List (Nat × Nat) :=
  if session.traceTags then []
  else
    flows.map (fun entry => (entry.1.firstTs.toNat, entry.2.toNat)) ++
      calls.map fun entry => (entry.1.startTs.toNat, entry.2.toNat)

/-- The ends among some boundaries are of slices that were begun, at the times told. -/
def EndsTold (spans : List (Nat × Nat)) (marks : List Mark) (trail : Trail) : Prop :=
  ∀ mark ∈ marks, mark.event.type = .sliceEnd →
    ∃ start, trail.BegunAt ⟨start, mark.event.opening⟩ ∧ ToldBy spans start mark.ts

theorem EndsTold.later {spans more : List (Nat × Nat)} {marks : List Mark} {before after : Trail}
    (h : EndsTold spans marks before) (hspans : spans ⊆ more) {written : List Mark}
    (hmoves : TrailMoves before written after) : EndsTold more marks after := by
  intro mark hmark htype
  obtain ⟨start, hbegun, htold⟩ := h mark hmark htype
  exact ⟨start, hmoves.begun hbegun, hspans htold⟩

/-- The records of ends are of slices that were begun. -/
theorem tracked_endsTold {session : Session} {state : State} {trail : Trail}
    (h : Tracked session state trail) (hsound : state.books.Sound)
    {flows : List (FlowState × UInt64)} {calls : List (PendingIo × UInt64)}
    (hflows : ∀ entry ∈ flows, entry.1 ∈ state.flows)
    (hcalls : ∀ entry ∈ calls, entry.1 ∈ state.ios ∧ entry.1.active = true) {records : List Record}
    (hends : ∀ record ∈ records, record.EndOf flows calls) :
    EndsTold (endSpans session flows calls) (mirroredMarks session records) trail := by
  intro mark hmark htype
  unfold mirroredMarks at hmark
  split at hmark
  case isTrue => cases hmark
  case isFalse htags =>
    have hshown : session.traceTags = false := by simpa using htags
    obtain ⟨record, hrecord, hmirrored⟩ := List.mem_filterMap.mp hmark
    have hend := hends record hrecord
    unfold ToldBy endSpans
    rw [if_neg htags]
    cases record <;> cases hmirrored
    case flowStart | ioStart => cases htype
    case flowEnd record =>
      obtain ⟨entry, hentry, hid, hts⟩ := hend
      refine ⟨entry.1.firstTs, ?_, List.mem_append_left _ (List.mem_map.mpr ⟨entry, hentry, ?_⟩)⟩
      · have hbegun := h.flows hshown entry.1.opening (List.mem_map_of_mem (hflows entry hentry))
        rw [show (flowSliceEnd session.salt record.flowId).opening =
          flowSlice session.salt entry.1.id from hid ▸ rfl]
        exact hbegun
      · rw [hts]
    case ioComplete record =>
      obtain ⟨entry, hentry, hid, htid, htgid, htx, hts⟩ := hend
      obtain ⟨hmem, hactive⟩ := hcalls entry hentry
      refine ⟨entry.1.startTs, ?_, List.mem_append_right _ (List.mem_map.mpr ⟨entry, hentry, ?_⟩)⟩
      · have hbegun := h.calls hshown entry.1 hmem hactive (hsound.visible entry.1 hmem hactive)
        unfold ioSlice at hbegun
        rw [← hid, ← htid, ← htgid, ← htx] at hbegun
        exact hbegun
      · rw [hts]

theorem mem_flowsEnded_flows {state : State} {test : FlowState → Bool} {endTs : FlowState → UInt64}
    {entry : FlowState × UInt64} (h : entry ∈ flowsEnded state test endTs) :
    entry.1 ∈ state.flows := by
  obtain ⟨flow, hflow, rfl⟩ := List.mem_map.mp h
  exact (List.mem_filter.mp hflow).1

theorem mem_endedFlows {session : Session} {state : State} {input : Input}
    {entry : FlowState × UInt64} (h : entry ∈ endedFlows session state input) :
    entry.1 ∈ state.flows := by
  unfold endedFlows at h
  split at h
  · split at h
    · split at h
      · exact mem_flowsEnded_flows h
      · cases h
    · cases h
  · split at h
    · cases h
    · exact mem_flowsEnded_flows h
  · cases h

theorem mem_endedCalls {session : Session} {state : State} {input : Input}
    {entry : PendingIo × UInt64} (h : entry ∈ endedCalls session state input) :
    entry.1 ∈ state.ios ∧ entry.1.active = true := by
  have hcall {func : UInt16} {tid : UInt32} {ts : UInt64}
      (h : entry ∈ callEnded state func tid ts) : entry.1 ∈ state.ios ∧ entry.1.active = true := by
    obtain ⟨call, hfound, rfl⟩ := List.mem_map.mp h
    obtain ⟨place, hplace, hcall⟩ := Option.bind_eq_some_iff.mp (Option.mem_toList.mp hfound)
    obtain ⟨found, hget, hactive, -⟩ := pendingIoFind_some hplace
    obtain rfl := Option.some.inj (hcall.symm.trans hget)
    exact ⟨List.mem_of_getElem? hcall, hactive⟩
  unfold endedCalls at h
  split at h
  · split at h
    · cases h
    · exact hcall h
  · dsimp only at h
    split at h
    · exact hcall h
    · split at h
      · cases h
      · exact hcall h
    · cases h
  · cases h

/-- The times of the flows and protocol calls that an input ends. -/
def tableSpans (session : Session) (state : State) (input : CaptureInput) : List (Nat × Nat) :=
  match input.toInput with
  | none => []
  | some input => endSpans session (endedFlows session state input) (endedCalls session state input)

/-- The times of the flows and protocol calls that the close ends. -/
def closeTableSpans (session : Session) (state : State) (endTs : UInt64) : List (Nat × Nat) :=
  endSpans session (closedFlows state endTs) (closedIos state endTs)

section Run

variable {session : CaptureSession} {exporter : Exporter}

theorem Coupled.tableEnds (h : Coupled session exporter) (input : CaptureInput) :
    ∃ records, (captureStep session exporter input).state.out = exporter.state.out ++ records ∧
      EndsTold (tableSpans session.toSession exporter.state input)
        (mirroredMarks session.toSession records) exporter.native.toTrail := by
  show ∃ records, (tablesStep session.toSession exporter.state input).out = _ ∧ _
  unfold tablesStep tableSpans
  cases input.toInput with
  | none =>
      refine ⟨[], (List.append_nil _).symm, fun mark hmark => ?_⟩
      rw [mirroredMarks_nil] at hmark
      cases hmark
  | some input =>
      obtain ⟨records, hout, hends⟩ := step_ends session.toSession exporter.state input
      exact ⟨records, hout, tracked_endsTold h.tracked h.sound (fun _ => mem_endedFlows)
        (fun _ => mem_endedCalls) hends⟩

/-- Along a run, the ends of flows and calls are told. -/
theorem captured_endsTold (session : CaptureSession) (inputs : List CaptureInput) :
    EndsTold
      (observations (captureStep session)
        (fun exporter => tableSpans session.toSession exporter.state) Exporter.init inputs)
      (mirroredMarks session.toSession (captured session inputs).state.out)
      (captured session inputs).native.toTrail := by
  induction inputs using List.reverseRecOn with
  | nil =>
      intro mark hmark
      rw [show (captured session []).state.out = [] from rfl, mirroredMarks_nil] at hmark
      cases hmark
  | append_singleton history input ih =>
      have hcoupled := captured_coupled session history
      obtain ⟨lifetimes, hadvances, -, -⟩ := hcoupled.step input
      obtain ⟨marks, hmoves, -⟩ := hadvances.moves
      obtain ⟨records, hout, htold⟩ := hcoupled.tableEnds input
      rw [captured_concat, observations_concat, hout, mirroredMarks_append]
      intro mark hmark htype
      rcases List.mem_append.mp hmark with hold | hnew
      · exact ih.later (List.subset_append_left _ _) hmoves mark hold htype
      · exact htold.later (List.subset_append_right _ _) hmoves mark hnew htype

/-- In a finished trace the ends of flows and calls are told. -/
theorem finished_endsTold (session : CaptureSession) (inputs : List CaptureInput)
    (clock : CloseClock) :
    let exporter := captured session inputs
    EndsTold
      (observations (captureStep session)
        (fun exporter => tableSpans session.toSession exporter.state) Exporter.init inputs ++
        closeTableSpans session.toSession exporter.state (closeTime exporter.state clock.now))
      ((marksOf (captureClose session exporter clock).out).filter isMirrored)
      (captureClose session exporter clock) := by
  intro exporter
  have hcoupled := captured_coupled session inputs
  obtain ⟨_, middle, -, hmiddle, -, -⟩ := (hcoupled.found clock).written
  have hmoves := hmiddle.trans (captured_ends session inputs clock).written
  obtain ⟨records, hout, hends⟩ := closeTables_ends session.toSession exporter.state clock.now
  have hlast := @tracked_endsTold session.toSession _ _ hcoupled.tracked hcoupled.sound
    (closedFlows exporter.state (closeTime exporter.state clock.now))
    (closedIos exporter.state (closeTime exporter.state clock.now))
    (fun _ => mem_flowsEnded_flows)
    (fun entry hentry => by
      obtain ⟨call, hcall, rfl⟩ := List.mem_map.mp hentry
      exact List.mem_filter.mp hcall) records hends
  rw [finished_mirrored, hout, mirroredMarks_append]
  intro mark hmark htype
  rcases List.mem_append.mp hmark with hold | hnew
  · exact (captured_endsTold session inputs).later (List.subset_append_left _ _) hmoves mark hold
      htype
  · exact hlast.later (List.subset_append_right _ _) hmoves mark hnew htype

end Run

/-! ## Lifetimes -/

/-- When the slice of a lifetime was begun that is open on a track. -/
abbrev Since := UInt64 → Option UInt64

/-- A boundary opens its track or closes it. -/
def turnSince (since : Since) (mark : Mark) : Since :=
  Function.update since mark.event.track
    (if mark.event.type = .sliceBegin then some mark.ts else none)

/-- The boundaries of lifetimes in a trace. -/
def lifetimesOf (out : List Packet) : List Mark :=
  (marksOf out).filter isLifetime

/-- When the lifetimes were begun that are open in a trace. -/
def sinceOf (out : List Packet) : Since :=
  run turnSince (fun _ => none) (lifetimesOf out)

theorem level_since (marks : List Mark) (uuid : UInt64) :
    level (turnsOf (marks.map lifetimeTurn) uuid) =
      (run turnSince (fun _ => none) marks uuid).isSome := by
  induction marks using List.reverseRecOn with
  | nil => rfl
  | append_singleton marks mark ih =>
      have hturn : lifetimeTurn mark =
          (mark.event.track, decide (mark.event.type = .sliceBegin)) := rfl
      rw [run_concat, List.map_append, turnsOf_append, List.map_singleton, hturn]
      generalize run turnSince (fun _ => none) marks = since at *
      unfold turnSince
      by_cases hsame : mark.event.track = uuid
      · subst hsame
        rw [turnsOf_same, level_concat, Function.update_self]
        by_cases hbegins : mark.event.type = .sliceBegin <;> simp [hbegins]
      · rw [turnsOf_other hsame, List.append_nil, Function.update_of_ne (Ne.symm hsame), ih]

/-- A track is on if a lifetime is open on it. -/
theorem on_iff_since {trail : Trail} {marks : List Mark} (h : TrailMoves Trail.init marks trail)
    (hfree : CollisionFree trail) (uuid : UInt64) :
    Trail.On trail uuid ↔ (sinceOf trail.out uuid).isSome = true := by
  refine (moves_level h hfree uuid).symm.trans ?_
  unfold sinceOf
  rw [← level_since]
  rfl

theorem lifetimesOf_moves {before after : Trail} {marks : List Mark}
    (h : TrailMoves before marks after) :
    lifetimesOf after.out = lifetimesOf before.out ++ marks.filter isLifetime := by
  unfold lifetimesOf
  rw [h.marks, List.filter_append]

/-- The end of a lifetime closes one that is open. -/
def EndsOpen (since : Since) (mark : Mark) : Prop :=
  mark.event.type = .sliceEnd → (since mark.event.track).isSome = true

theorem along_boundary {Meets : Since → Mark → Prop} {since : Since} {mark : Mark}
    (h : isLifetime mark = true → Meets since mark) :
    Along turnSince Meets since ([mark].filter isLifetime) := by
  rw [List.filter_singleton]
  cases hlifetime : isLifetime mark with
  | true => exact ⟨h hlifetime, trivial⟩
  | false => trivial

theorem moves_endsOpen {trail : Trail} {marks : List Mark} (h : TrailMoves Trail.init marks trail)
    (hfree : CollisionFree trail) :
    Along turnSince EndsOpen (fun _ => none) (lifetimesOf trail.out) := by
  induction h with
  | refl => trivial
  | @tail before marks _ _ hinit hlast ih =>
      have hbefore := hfree.before (Moves.single hlast)
      rw [lifetimesOf_moves (Moves.single hlast), along_append]
      refine ⟨ih hbefore, ?_⟩
      cases hlast with
      | add | snapshot | packet | instant | rest => trivial
      | slice ts htrack htype hcategory =>
          exact along_boundary fun _ hends => absurd (htype.symm.trans hends) EventType.noConfusion
      | sliceEnd ts hbegun htype hcategory =>
          refine along_boundary fun hlifetime => ?_
          unfold isLifetime at hlifetime
          split at hlifetime
          · exact absurd ‹_› hcategory.1
          · exact absurd ‹_› hcategory.2
          · cases hlifetime
      | begin ts htrack hlifetime => exact along_boundary fun _ hends => by cases hends
      | finish ts htrack hactive hcategory =>
          -- the flag that is reset was set
          exact along_boundary fun _ _ => (on_iff_since hinit hbefore _).mp
            ⟨_, List.mem_of_getElem? htrack, rfl, hactive⟩

/-- What an input says about the lifetime on a track: something happened while it lasts, it begins,
it is over, or it is over and the next begins. -/
inductive Turn where
  | note (ts : UInt64)
  | start (ts : UInt64)
  | stop (ts : UInt64)
  | renew (endTs ts : UInt64)
  deriving DecidableEq, Repr

/-- What a record of a socket says about its lifetime. -/
def SocketTurn.turn : SocketTurn → Turn
  | .create startTs ts => .renew startTs ts
  | .note ts terminal => if terminal then .stop ts else .note ts

/-- The track that an input is about, and what it says about the lifetime on it. Tags mode does not
show those of sockets. -/
def lifetimeTurns (session : Session) : CaptureInput → Option (UInt64 × Turn)
  | .connect connect =>
      let uuid := connectUuid session.salt (connect.attemptId session.salt)
      if connect.kind = .start then some (uuid, .start connect.ts)
      else if connect.terminal then some (uuid, .stop connect.ts)
      else none
  | input =>
      if session.traceTags then none
      else (socketTurn session input).map fun entry =>
        (socketUuid session.salt entry.1, entry.2.turn)

/-- When the lifetime was begun that is open after it. -/
def Turn.after (since : Option UInt64) : Turn → Option UInt64
  | .note ts => some (since.getD ts)
  | .start ts => some ts
  | .stop _ => none
  | .renew _ ts => some ts

/-- The times of the lifetime that it ends, if one is open. -/
def Turn.spans (since : Option UInt64) : Turn → List (Nat × Nat)
  | .stop endTs | .renew endTs _ => since.toList.map fun start => (start.toNat, endTs.toNat)
  | .note _ | .start _ => []

/-- The lifetimes that are open after an input. -/
def sinceAfter (session : Session) (since : Since) (input : CaptureInput) : Since :=
  match lifetimeTurns session input with
  | none => since
  | some (uuid, turn) => Function.update since uuid (turn.after (since uuid))

/-- The times of the lifetime that an input ends. -/
def lifetimeSpans (session : Session) (since : Since) (input : CaptureInput) : List (Nat × Nat) :=
  match lifetimeTurns session input with
  | none => []
  | some (uuid, turn) => turn.spans (since uuid)

/-- The end of a lifetime has the times told. -/
def EndTold (spans : List (Nat × Nat)) (since : Since) (mark : Mark) : Prop :=
  mark.event.type = .sliceEnd →
    ∃ start, since mark.event.track = some start ∧ ToldBy spans start mark.ts

/-- The boundaries that a turn writes by the flag of its track. -/
structure Turned (since : Since) (uuid : UInt64) (turn : Turn) (marks : List Mark) : Prop where
  after : run turnSince since marks = Function.update since uuid (turn.after (since uuid))
  told : Along turnSince (EndTold (turn.spans (since uuid))) since marks

section Turned

variable {since : Since} {track : NativeTrack}
  (hactive : track.active = (since track.uuid).isSome)
include hactive

/-- The end of a lifetime is written if one is open. -/
theorem stop_turned {mark : Mark} (htrack : mark.event.track = track.uuid)
    (htype : mark.event.type = .sliceEnd) :
    Turned since track.uuid (.stop mark.ts) (if track.active then [mark] else []) := by
  cases hopen : since track.uuid with
  | none =>
      rw [hopen] at hactive
      rw [if_neg (by simp [hactive])]
      exact ⟨(Function.update_eq_self_iff.mpr hopen.symm).symm, trivial⟩
  | some start =>
      rw [hopen] at hactive
      rw [if_pos (by simp [hactive])]
      refine ⟨?_, fun _ => ⟨start, by rw [htrack, hopen], ?_⟩, trivial⟩
      · show Function.update since mark.event.track _ = _
        rw [htrack, htype]
        rfl
      · rw [hopen]
        exact List.mem_singleton_self _

theorem closeMarks_turned (ts : UInt64) :
    Turned since track.uuid (.stop ts) (closeMarks ts track) :=
  @stop_turned _ _ hactive (track.lifetime ts .sliceEnd) rfl rfl

theorem openMarks_turned (ts : UInt64) :
    Turned since track.uuid (.note ts) (openMarks ts track) := by
  unfold openMarks
  cases hopen : since track.uuid with
  | none =>
      rw [hopen] at hactive
      rw [if_neg (by simp [hactive])]
      refine ⟨?_, fun hends => (by cases hends), trivial⟩
      rw [hopen]
      rfl
  | some start =>
      rw [hopen] at hactive
      rw [if_pos (by simp [hactive])]
      refine ⟨?_, trivial⟩
      rw [hopen]
      exact (Function.update_eq_self_iff.mpr hopen.symm).symm

theorem SocketTurn.marks_turned (turn : SocketTurn) :
    Turned since track.uuid turn.turn (turn.marks track) := by
  cases turn with
  | create startTs ts =>
      obtain ⟨hafter, htold⟩ := closeMarks_turned hactive startTs
      have hbegins : Along turnSince (EndTold (Turn.spans (since track.uuid) (.stop startTs)))
          (run turnSince since (closeMarks startTs track)) [track.lifetime ts .sliceBegin] :=
        ⟨fun hends => (by cases hends), trivial⟩
      refine ⟨?_, along_append.mpr ⟨htold, hbegins⟩⟩
      show run turnSince since (closeMarks startTs track ++ [track.lifetime ts .sliceBegin]) = _
      rw [run_concat, hafter]
      exact Function.update_idem _ _ _
  | note ts terminal =>
      cases terminal with
      | true => exact closeMarks_turned hactive ts
      | false => exact openMarks_turned hactive ts

theorem connectMarks_turned (session : Session) {connect : ConnectEvent}
    (huuid : track.uuid = connectUuid session.salt (connect.attemptId session.salt)) :
    run turnSince since (connectMarks session.salt connect track) =
        sinceAfter session since (.connect connect) ∧
      Along turnSince (EndTold (lifetimeSpans session since (.connect connect))) since
        (connectMarks session.salt connect track) := by
  have hturns : lifetimeTurns session (.connect connect) =
      if connect.kind = .start then some (track.uuid, .start connect.ts)
      else if connect.terminal then some (track.uuid, .stop connect.ts)
      else none := by
    rw [huuid]
    rfl
  unfold connectMarks sinceAfter lifetimeSpans
  rw [hturns]
  by_cases hstart : connect.kind = .start
  · rw [if_pos hstart, if_pos hstart]
    exact ⟨rfl, fun hends => (by cases hends), trivial⟩
  rw [if_neg hstart, if_neg hstart]
  cases connect.terminal with
  | false =>
      rw [if_neg Bool.false_ne_true, if_neg (by simp)]
      exact ⟨rfl, trivial⟩
  | true =>
      obtain ⟨hafter, htold⟩ := @stop_turned _ _ hactive
        ⟨connect.ts, ⟨.sliceEnd, track.uuid, .connect, connect.attemptId session.salt⟩⟩ rfl rfl
      simp only [true_and, if_true]
      exact ⟨hafter, htold⟩

end Turned

theorem touched_none {session : Session} {input : CaptureInput} (h : touched session input = none) :
    lifetimeTurns session input = none := by
  cases input with
  | event sample extension cpu realloc =>
      rw [touched_event] at h
      unfold lifetimeTurns
      dsimp only
      split at h
      case isTrue htags => rw [if_pos htags]
      case isFalse htags =>
        rw [if_neg htags, Option.map_eq_none_iff.mp h]
        rfl
  | connect => cases h
  | clock | ret | syscall | handoff | lost | queueLost | markCaptureEnd | tick =>
      exact ite_self none

theorem touched_turned {session : Session} {input : CaptureInput} {since : Since}
    {marks : NativeTrack → List Mark} {track : NativeTrack}
    (h : touched session input = some (track.uuid, marks))
    (hactive : track.active = (since track.uuid).isSome) :
    run turnSince since (marks track) = sinceAfter session since input ∧
      Along turnSince (EndTold (lifetimeSpans session since input)) since (marks track) := by
  cases input with
  | event sample extension cpu realloc =>
      rw [touched_event] at h
      unfold sinceAfter lifetimeSpans lifetimeTurns
      dsimp only
      split at h
      case isTrue => cases h
      case isFalse htags =>
        rw [if_neg htags]
        obtain ⟨entry, hentry, heq⟩ := Option.map_eq_some_iff.mp h
        obtain ⟨huuid, rfl⟩ := Prod.mk.inj heq
        obtain ⟨hafter, htold⟩ := SocketTurn.marks_turned hactive entry.2
        rw [hentry]
        show run turnSince since _ = Function.update since (socketUuid session.salt entry.1) _ ∧
          Along turnSince (EndTold (Turn.spans (since (socketUuid session.salt entry.1)) _)) since _
        rw [huuid]
        exact ⟨hafter, htold⟩
  | connect connect =>
      obtain ⟨huuid, rfl⟩ := Prod.mk.inj (Option.some.inj h)
      exact connectMarks_turned hactive session huuid.symm
  | clock | ret | syscall | handoff | lost | queueLost | markCaptureEnd | tick => cases h

/-- The lifetimes that a step begins and ends. -/
theorem turns_since {session : Session} {input : CaptureInput} {trail next : Trail}
    {lifetimes marks : List Mark} (h : Turns (touched session input) trail next lifetimes)
    (hinit : TrailMoves Trail.init marks trail) (hfree : CollisionFree next) :
    run turnSince (sinceOf trail.out) lifetimes = sinceAfter session (sinceOf trail.out) input ∧
      Along turnSince (EndTold (lifetimeSpans session (sinceOf trail.out) input))
        (sinceOf trail.out) lifetimes := by
  cases htouched : touched session input with
  | none =>
      rw [htouched] at h
      obtain rfl : lifetimes = [] := h
      unfold sinceAfter lifetimeSpans
      rw [touched_none htouched]
      exact ⟨rfl, trivial⟩
  | some entry =>
      obtain ⟨uuid, turns⟩ := entry
      rw [htouched] at h
      obtain ⟨found, track, early, late, hearly, hquiet, htrack, rfl, hlate, -, rfl⟩ := h
      have hfound : TrailMoves Trail.init _ found := hinit.trans hearly
      have hfoundFree := hfree.before hlate
      have hsame : sinceOf found.out = sinceOf trail.out := by
        unfold sinceOf
        rw [lifetimesOf_moves hearly, hquiet, List.append_nil]
      -- the flag of the track tells whether a lifetime is open
      have hactive : track.active = (sinceOf trail.out track.uuid).isSome := by
        rw [← hsame, Bool.eq_iff_iff, ← on_iff_since hfound hfoundFree]
        exact (on_iff (Described.uuids_nodup hfound.described hfoundFree) htrack).symm
      exact touched_turned htouched hactive

/-! ## Runs -/

/-- The exporter, and when the lifetimes were begun that are open. -/
structure Watch where
  exporter : Exporter
  since : Since

/-- Before the first input. -/
def Watch.init : Watch :=
  ⟨Exporter.init, fun _ => none⟩

/-- One input. -/
def watchStep (session : CaptureSession) (watch : Watch) (input : CaptureInput) : Watch where
  exporter := captureStep session watch.exporter input
  since := sinceAfter session.toSession watch.since input

/-- A capture, watched. -/
def watched (session : CaptureSession) (inputs : List CaptureInput) : Watch :=
  run (watchStep session) Watch.init inputs

/-- The times of the slices that an input ends, as the tables and the open lifetimes before it
tell. -/
def inputSpans (session : CaptureSession) (watch : Watch) (input : CaptureInput) :
    List (Nat × Nat) :=
  tableSpans session.toSession watch.exporter.state input ++
    briefSpans session watch.exporter input ++
      lifetimeSpans session.toSession watch.since input

/-- The times of the lifetimes that are open at the close. -/
def openSpans (since : Since) (tracks : List NativeTrack) (endTs : UInt64) : List (Nat × Nat) :=
  tracks.filterMap fun track => (since track.uuid).map fun start => (start.toNat, endTs.toNat)

/-- The times of the slices that the close ends. -/
def closeSpans (session : CaptureSession) (watch : Watch) (clock : CloseClock) : List (Nat × Nat) :=
  let endTs := closeTime watch.exporter.state clock.now
  closeTableSpans session.toSession watch.exporter.state endTs ++
    closingCalls session watch.exporter endTs ++
      openSpans watch.since watch.exporter.native.tracks endTs

/-- The times of the slices of a capture. -/
def captureSpans (session : CaptureSession) (inputs : List CaptureInput) (clock : CloseClock) :
    List (Nat × Nat) :=
  observations (watchStep session) (inputSpans session) Watch.init inputs ++
    closeSpans session (watched session inputs) clock

theorem watched_concat (session : CaptureSession) (inputs : List CaptureInput)
    (input : CaptureInput) :
    watched session (inputs ++ [input]) = watchStep session (watched session inputs) input :=
  run_concat _ _ _ _

theorem watched_exporter (session : CaptureSession) (inputs : List CaptureInput) :
    (watched session inputs).exporter = captured session inputs := by
  induction inputs using List.reverseRecOn with
  | nil => rfl
  | append_singleton history input ih =>
      rw [watched_concat, captured_concat, ← ih]
      rfl

theorem observed_spans {session : CaptureSession}
    {tell : Exporter → CaptureInput → List (Nat × Nat)}
    (h : ∀ watch input, tell watch.exporter input ⊆ inputSpans session watch input)
    (inputs : List CaptureInput) :
    observations (captureStep session) tell Exporter.init inputs ⊆
      observations (watchStep session) (inputSpans session) Watch.init inputs := by
  intro span hspan
  obtain ⟨before, input, after, heq, hmem⟩ := mem_observations.mp hspan
  refine mem_observations.mpr ⟨before, input, after, heq, h _ _ ?_⟩
  rw [show run (watchStep session) Watch.init before = watched session before from rfl,
    watched_exporter]
  exact hmem

theorem EndTold.imp {spans more : List (Nat × Nat)} (hspans : spans ⊆ more) {since : Since}
    {mark : Mark} (h : EndTold spans since mark) : EndTold more since mark := by
  intro hends
  obtain ⟨start, hopen, htold⟩ := h hends
  exact ⟨start, hopen, hspans htold⟩

/-- Along a run, the lifetimes that are open are those of the watch, and the ends of lifetimes are
told. -/
theorem watched_since {session : CaptureSession} {inputs : List CaptureInput}
    (hfree : CollisionFree (captured session inputs).native.toTrail) :
    (watched session inputs).since = sinceOf (captured session inputs).native.out ∧
      Along turnSince
        (EndTold (observations (watchStep session) (inputSpans session) Watch.init inputs))
        (fun _ => none) (lifetimesOf (captured session inputs).native.out) := by
  induction inputs using List.reverseRecOn with
  | nil => exact ⟨rfl, trivial⟩
  | append_singleton history input ih =>
      obtain ⟨_, hadvances⟩ := captured_moves session history
      obtain ⟨early, hinit, -⟩ := hadvances.moves
      obtain ⟨lifetimes, hstep, hturns, -⟩ := (captured_coupled session history).step input
      obtain ⟨marks, hmoves, hlifetimes⟩ := hstep.moves
      rw [captured_concat] at hfree ⊢
      obtain ⟨hsince, htold⟩ := ih (hfree.before hmoves)
      obtain ⟨hafter, hends⟩ := turns_since hturns hinit hfree
      have hlog : lifetimesOf (captureStep session (captured session history) input).native.out =
          lifetimesOf (captured session history).native.out ++ lifetimes := by
        rw [← hlifetimes]
        exact lifetimesOf_moves hmoves
      have hwatch : inputSpans session (run (watchStep session) Watch.init history) input =
          inputSpans session (watched session history) input := rfl
      rw [watched_concat, observations_concat, hlog, along_append, hwatch]
      refine ⟨?_, htold.imp fun _ _ => EndTold.imp (List.subset_append_left _ _), ?_⟩
      · unfold sinceOf
        rw [hlog, run_append]
        show sinceAfter session.toSession (watched session history).since input = _
        rw [hsince]
        exact hafter.symm
      · refine hends.imp fun _ _ => EndTold.imp fun span hspan => ?_
        rw [← hsince] at hspan
        exact List.mem_append_right _ (List.mem_append_right _ hspan)

/-! ## The finished trace -/

theorem lastMarks_ends (session : Session) (endTs : UInt64) (tracks : List NativeTrack) :
    ∀ mark ∈ lastMarks session endTs tracks,
      mark.event.type = .sliceEnd ∧ mark.ts = endTs := by
  intro mark hmark
  rcases List.mem_append.mp hmark with hsocket | hattempt
  · obtain ⟨track, -, hmark⟩ := List.mem_flatMap.mp hsocket
    unfold closeSocketMarks closeMarks at hmark
    split at hmark
    · split at hmark
      · rw [List.mem_singleton.mp hmark]
        exact ⟨rfl, rfl⟩
      · cases hmark
    · cases hmark
  · obtain ⟨track, -, hmark⟩ := List.mem_flatMap.mp hattempt
    unfold closeAttemptMarks at hmark
    split at hmark
    · rw [List.mem_singleton.mp hmark]
      exact ⟨rfl, rfl⟩
    · cases hmark

/-- Ends at one time, of lifetimes that were open before them. -/
theorem along_ends {spans : List (Nat × Nat)} {endTs : UInt64} {since : Since}
    (hopen : ∀ uuid start, since uuid = some start → ToldBy spans start endTs) {marks : List Mark}
    (hmarks : ∀ mark ∈ marks, mark.event.type = .sliceEnd ∧ mark.ts = endTs)
    (h : Along turnSince EndsOpen since marks) : Along turnSince (EndTold spans) since marks := by
  induction marks generalizing since with
  | nil => trivial
  | cons mark rest ih =>
      obtain ⟨hends, hts⟩ := hmarks mark List.mem_cons_self
      refine ⟨fun hend => ?_, ih (fun uuid start hstart => ?_)
        (fun mark hmark => hmarks mark (List.mem_cons_of_mem _ hmark)) h.2⟩
      · obtain ⟨start, hstart⟩ := Option.isSome_iff_exists.mp (h.1 hend)
        exact ⟨start, hstart, hts ▸ hopen _ start hstart⟩
      · -- an end leaves nothing open on its track
        unfold turnSince at hstart
        rw [hends, if_neg EventType.noConfusion] at hstart
        by_cases hsame : uuid = mark.event.track
        · rw [hsame, Function.update_self] at hstart
          cases hstart
        · rw [Function.update_of_ne hsame] at hstart
          exact hopen uuid start hstart

/-- Lifetimes on one track begin alike. -/
theorem begins_alike {trail : Trail} (hdescribed : Described trail) (hfree : CollisionFree trail)
    {first second : Mark} (hfirst : first ∈ lifetimesOf trail.out)
    (hsecond : second ∈ lifetimesOf trail.out) (htrack : first.event.track = second.event.track) :
    first.event.opening = second.event.opening := by
  obtain ⟨hfirstMem, hfirstLifetime⟩ := List.mem_filter.mp hfirst
  obtain ⟨hsecondMem, hsecondLifetime⟩ := List.mem_filter.mp hsecond
  obtain ⟨track, hmem, huuid⟩ := hdescribed.hasTrack hfirstMem
  -- both are of what the track was made for
  have hmade (mark : Mark) (hmark : mark ∈ marksOf trail.out) (hlifetime : isLifetime mark = true)
      (hsame : mark.event.track = track.uuid) :
      mark.event.category = (if track.kind = .socket then .socket else .connect) ∧
        mark.event.object = track.object := by
    unfold isLifetime at hlifetime
    split at hlifetime
    case h_1 hcategory =>
      obtain ⟨hkind, hobject⟩ := hfree.sockets mark hmark track hmem hsame hcategory
      exact ⟨by rw [hcategory, if_pos hkind], hobject.symm⟩
    case h_2 hcategory =>
      obtain ⟨hkind, hobject⟩ := hfree.attempts mark hmark track hmem hsame hcategory
      exact ⟨by rw [hcategory, if_neg (by simp [hkind])], hobject.symm⟩
    case h_3 => cases hlifetime
  obtain ⟨hcategory, hobject⟩ := hmade first hfirstMem hfirstLifetime huuid.symm
  obtain ⟨hother, hotherObject⟩ :=
    hmade second hsecondMem hsecondLifetime (htrack.symm.trans huuid.symm)
  unfold TrackEvent.opening
  rw [htrack, hcategory, hobject, hother, hotherObject]

/-- What is open on a track was open before boundaries that do not begin it. -/
theorem since_between {uuid : UInt64} {between : List Mark} {since : Since}
    (h : ∀ mark ∈ between, mark.event.track = uuid → mark.event.type ≠ .sliceBegin) {start : UInt64}
    (hstart : run turnSince since between uuid = some start) : since uuid = some start := by
  induction between generalizing since with
  | nil => exact hstart
  | cons mark rest ih =>
      have hbefore := ih (fun mark hmark => h mark (List.mem_cons_of_mem _ hmark)) hstart
      unfold turnSince at hbefore
      by_cases hsame : uuid = mark.event.track
      · rw [hsame, Function.update_self,
          if_neg (h mark List.mem_cons_self hsame.symm)] at hbefore
        cases hbefore
      · rwa [Function.update_of_ne hsame] at hbefore

/-- The ids of flows and protocol calls do not collide: those that begin alike begin at one time. -/
def IdsApart (out : List Packet) : Prop :=
  ∀ first ∈ marksOf out, ∀ second ∈ marksOf out, isMirrored first = true →
    first.event.type = .sliceBegin → first.event = second.event → first.ts = second.ts

section Finished

variable {session : CaptureSession} {inputs : List CaptureInput} {clock : CloseClock}
  (hfree : CollisionFree (captureClose session (captured session inputs) clock))
include hfree

theorem finished_lifetimesTold :
    Along turnSince (EndTold (captureSpans session inputs clock)) (fun _ => none)
      (lifetimesOf (captureClose session (captured session inputs) clock).out) := by
  have hmoves := finished_moves session inputs clock
  obtain ⟨_, hadvances⟩ := captured_moves session inputs
  obtain ⟨early, hinit, -⟩ := hadvances.moves
  obtain ⟨_, middle, -, hmiddle, -, -⟩ := ((captured_coupled session inputs).found clock).written
  have hrunFree := hfree.before (hmiddle.trans (captured_ends session inputs clock).written)
  obtain ⟨hsince, htold⟩ := watched_since hrunFree
  have hlog : lifetimesOf (captureClose session (captured session inputs) clock).out =
      lifetimesOf (captured session inputs).native.out ++ _ := finished_lifetimes _ _ _
  have hopen := moves_endsOpen hmoves hfree
  rw [hlog, along_append] at hopen ⊢
  refine ⟨htold.imp fun _ _ => EndTold.imp (List.subset_append_left _ _), ?_⟩
  refine along_ends (fun uuid start hstart => ?_) (lastMarks_ends _ _ _) hopen.2
  -- a lifetime that is open is of a track of the exporter
  have hon : Trail.On (captured session inputs).native.toTrail uuid :=
    (on_iff_since hinit hrunFree uuid).mpr (Option.isSome_iff_exists.mpr ⟨start, hstart⟩)
  obtain ⟨track, htrack, rfl, -⟩ := hon
  refine List.mem_append_right _ (List.mem_append_right _ (List.mem_filterMap.mpr ⟨track, ?_, ?_⟩))
  · rw [watched_exporter]
    exact htrack
  · rw [hsince, show sinceOf _ track.uuid = some start from hstart, watched_exporter]
    rfl

theorem finished_lifetime_told {opening ending : Mark}
    (h : SliceIn (lifetimesOf (captureClose session (captured session inputs) clock).out) opening
      ending) :
    ToldBy (captureSpans session inputs clock) opening.ts ending.ts := by
  have hdescribed := (finished_moves session inputs clock).described
  have halong := finished_lifetimesTold hfree
  obtain ⟨before, between, after, heq, htype, hsame, hlast⟩ := h
  obtain ⟨start, hstart, htold⟩ := along_iff.mp halong _ ending after heq htype
  have hmem {mark : Mark} (hmark : mark ∈ before ++ opening :: between ++ ending :: after) :
      mark ∈ lifetimesOf (captureClose session (captured session inputs) clock).out :=
    heq ▸ hmark
  have hending := @hmem ending (List.mem_append_right _ List.mem_cons_self)
  have htrack : opening.event.track = ending.event.track := by rw [hsame]; rfl
  have hbegins : opening.event.type = .sliceBegin := by rw [hsame]; rfl
  rw [run_append, run_cons] at hstart
  -- between its boundaries the slice is not begun again
  have hopen := since_between (fun mark hmark hon hbegin => ?_) hstart
  · unfold turnSince at hopen
    rw [htrack, Function.update_self, if_pos hbegins] at hopen
    rw [Option.some.inj hopen]
    exact htold
  · refine hlast mark hmark ?_
    have halike := begins_alike hdescribed hfree (hmem (List.mem_append_left _
      (List.mem_append_right _ (List.mem_cons_of_mem _ hmark)))) hending hon
    rw [← halike, TrackEvent.opening, ← hbegin]

/-- Every slice has the times that the inputs tell. -/
theorem finished_told (hapart : IdsApart (captureClose session (captured session inputs) clock).out)
    {opening ending : Mark}
    (h : SliceIn (marksOf (captureClose session (captured session inputs) clock).out) opening
      ending) :
    ToldBy (captureSpans session inputs clock) opening.ts ending.ts := by
  have hcoupled := captured_coupled session inputs
  obtain ⟨before, between, after, heq, htype, hsame, -⟩ := id h
  have hopening : opening ∈ marksOf (captureClose session (captured session inputs) clock).out := by
    rw [heq]
    exact List.mem_append_left _ (List.mem_append_right _ List.mem_cons_self)
  have hending : ending ∈ marksOf (captureClose session (captured session inputs) clock).out := by
    rw [heq]
    exact List.mem_append_right _ List.mem_cons_self
  have hcategory : opening.event.category = ending.event.category := by rw [hsame]; rfl
  have hinputs {spans : List (Nat × Nat)}
      (hspans : spans ⊆ observations (watchStep session) (inputSpans session) Watch.init inputs) :
      spans ⊆ captureSpans session inputs clock :=
    List.Subset.trans hspans (List.subset_append_left _ _)
  rcases finished_kinds session inputs clock hending with hmirrored | hlifetime | hbrief
  · have hopens : isMirrored opening = true := by
      unfold isMirrored at hmirrored ⊢
      rwa [hcategory]
    obtain ⟨start, hbegun, htold⟩ := finished_endsTold session inputs clock ending
      (List.mem_filter.mpr ⟨hending, hmirrored⟩) htype
    have hstart : opening.ts = start :=
      hapart opening hopening ⟨start, ending.event.opening⟩ hbegun.written hopens
        (by rw [hsame]; rfl) hsame
    rw [hstart]
    rcases List.mem_append.mp htold with hrun | hclose
    · exact hinputs (observed_spans (fun _ _ => List.subset_append_of_subset_left _
        (List.subset_append_left _ _)) inputs) hrun
    · refine List.mem_append_right _ (List.mem_append_left _ (List.mem_append_left _ ?_))
      rw [watched_exporter]
      exact hclose
  · have hopens : isLifetime opening = true := by
      unfold isLifetime at hlifetime ⊢
      rwa [hcategory]
    exact finished_lifetime_told hfree (h.filter hopens hlifetime)
  · have hopens : opening.isBrief = true := by
      unfold Mark.isBrief Mark.isLasting at hbrief ⊢
      rwa [hcategory]
    rcases List.mem_append.mp (paired_told (finished_brief session inputs clock)
      (h.filter hopens hbrief)) with hrun | hclose
    · exact hinputs (observed_spans (fun _ _ => List.subset_append_of_subset_left _
        (List.subset_append_right _ _)) inputs) hrun
    · refine List.mem_append_right _ (List.mem_append_left _ (List.mem_append_right _ ?_))
      rw [watched_exporter]
      rwa [hcoupled.closeBrief clock] at hclose

end Finished

end Anettrace.Capture
