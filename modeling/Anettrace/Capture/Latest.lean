import Anettrace.Capture.Close
import Anettrace.Capture.File
import Anettrace.Export.Endings
import Anettrace.Export.SyscallPairing

/-!
# The latest timestamp

What `native_ring_latest_ns` is when a ring trace is pruned for the last time: it is told by the
exporter before the close, the packets that wait, and the time of the close.
-/

namespace Anettrace.Capture

open Anettrace.Export Anettrace.Native Library.Labelled Library.LinkedQueue

/-- `native_ring_latest_ns`, as a number. -/
def latestNs (trail : Trail) : Nat :=
  (ringLatest trail.out).toNat

@[simp] theorem latestNs_write (trail : Trail) (ts : UInt64) (fields : TrackEvent) :
    latestNs (nativeEventWrite trail ts fields) = max (latestNs trail) ts.toNat :=
  ringLatest_concat _ _

@[simp] theorem latestNs_packet (trail : Trail) (ts uuid : UInt64) (event : ProtoBuffer) :
    latestNs (nativePacketWrite trail ts uuid event) = max (latestNs trail) ts.toNat :=
  ringLatest_concat _ _

@[simp] theorem latestNs_snapshot (trail : Trail) (monotonicNs boottimeNs realtimeNs : UInt64) :
    latestNs (nativeClockSnapshot trail monotonicNs boottimeNs realtimeNs) = latestNs trail :=
  (ringLatest_concat _ _).trans (Nat.max_zero _)

@[simp] theorem latestNs_setActive (trail : Trail) (place : Nat) (active : Bool) :
    latestNs (trail.setActive place active) = latestNs trail := rfl

theorem created_latestNs {trail : Trail} {result : Trail × Nat} {uuid : UInt64}
    {kinds : List TrackKind} (h : Created trail result uuid kinds) :
    latestNs result.1 = latestNs trail :=
  h.creates.latest

@[simp] theorem latestNs_meta (session : Session) (trail : Trail) (ts : UInt64) :
    latestNs (nativeExportMeta session trail ts) = max (latestNs trail) ts.toNat := by
  have hcreated := created_latestNs (nativeGlobalTrack_created session.salt trail)
  unfold nativeExportMeta
  rw [latestNs_write, hcreated]

theorem latest_arrivals (session : CaptureSession) (out : List Packet) :
    latest (arrivals session out) = (ringLatest out).toNat := by
  induction out using List.reverseRecOn with
  | nil => rfl
  | append_singleton out packet ih =>
      have hlast : arrivals session (out ++ [packet]) =
          arrivals session out ++ [arrival session (packet, out.length)] := by
        unfold arrivals
        rw [List.zipIdx_append, List.map_append]
        simp
      rw [hlast, latest_concat, ih, ringLatest_concat]
      rfl

/-! ## Writes up to a time -/

/-- The latest timestamp grows, to a given time at most. -/
structure Reaches (limit : Nat) (before after : Trail) : Prop where
  grows : latestNs before ≤ latestNs after
  bounded : latestNs after ≤ max (latestNs before) limit

section Reaches

variable {limit : Nat} {before middle after : Trail}

theorem Reaches.refl (limit : Nat) (trail : Trail) : Reaches limit trail trail :=
  ⟨Nat.le_refl _, Nat.le_max_left _ _⟩

theorem Reaches.trans (h : Reaches limit before middle) (hnext : Reaches limit middle after) :
    Reaches limit before after := by
  obtain ⟨hgrows, hbounded⟩ := h
  obtain ⟨hnextGrows, hnextBounded⟩ := hnext
  exact ⟨by omega, by omega⟩

theorem Reaches.of_eq (h : latestNs after = max (latestNs before) limit) :
    Reaches limit before after :=
  ⟨by omega, by omega⟩

theorem Reaches.of_same (h : latestNs after = latestNs before) : Reaches limit before after :=
  ⟨by omega, by omega⟩

theorem Reaches.loop {ι : Type} {body : Trail → ι → Trail}
    (h : ∀ trail item, Reaches limit trail (body trail item)) (items : List ι) (trail : Trail) :
    Reaches limit trail (items.foldl body trail) := by
  induction items generalizing trail with
  | nil => exact Reaches.refl limit trail
  | cons item rest ih => exact (h trail item).trans (ih (body trail item))

end Reaches

/-! ## The parts of the close -/

theorem nativeCloseStart_reaches (session : CaptureSession) (trail : Trail) (endTs : UInt64)
    (clock : CloseClock) :
    Reaches endTs.toNat trail (nativeCloseStart session trail endTs clock) := by
  have hmeta (trail : Trail) := Reaches.of_eq (latestNs_meta session.toSession trail endTs)
  have hprobes (start : Trail) := Reaches.loop (fun trail (_ : Nat) => hmeta trail)
    (List.range session.ambiguousProbes) start
  unfold nativeCloseStart
  dsimp only
  cases clock.snapshot with
  | none =>
      split
      · exact (hprobes trail).trans (hmeta _)
      · exact hprobes trail
  | some times =>
      have hsnapshot : Reaches endTs.toNat trail
          (nativeClockSnapshot trail times.1 times.2.1 times.2.2) :=
        Reaches.of_same (latestNs_snapshot _ _ _ _)
      split
      · exact (hsnapshot.trans (hprobes _)).trans (hmeta _)
      · exact hsnapshot.trans (hprobes _)

/-- The end of a call that is shown is written at its time. -/
theorem nativePendingIoFinish_reaches (session : Session) {state : State}
    (hsound : state.books.Sound) (trail : Trail) (io : Option Nat) (ts : UInt64) :
    Reaches ts.toNat trail (nativePendingIoFinish session state trail io ts) := by
  unfold nativePendingIoFinish
  split
  case h_1 => exact Reaches.refl _ _
  case h_2 pending hpending =>
    obtain ⟨place, -, hplace⟩ := Option.bind_eq_some_iff.mp hpending
    split
    case isTrue => exact Reaches.refl _ _
    case isFalse hactive =>
      have hvisible := hsound.visible pending (List.mem_of_getElem? hplace) (by simpa using hactive)
      have hshown : nativePendingIoEmitStart session trail pending = trail :=
        if_pos (Or.inl hvisible)
      dsimp only
      rw [hshown]
      split
      · exact Reaches.refl _ _
      · exact (Reaches.of_eq (latestNs_write _ _ _)).trans (Reaches.of_eq (latestNs_write _ _ _))

theorem nativeCloseIos_reaches (session : Session) {state : State} (hsound : state.books.Sound)
    (trail : Trail) (endTs : UInt64) :
    Reaches endTs.toNat trail (nativeCloseIos session state trail endTs) := by
  unfold nativeCloseIos
  generalize List.range state.ios.length = places
  induction places generalizing state trail with
  | nil => exact Reaches.refl _ _
  | cons place rest ih =>
      have hafter := moves_sound hsound
        (pendingIoFinish_books session hsound (some place) endTs 0 true)
      rw [List.foldl_cons]
      exact (nativePendingIoFinish_reaches session hsound trail (some place) endTs).trans
        (ih hafter _)

/-- The latest of some times. -/
def latestOf (times : List Nat) : Nat :=
  times.foldr max 0

/-- The latest timestamp of the packets that wait. -/
def waitingLatest (waiting : List PendingPacket) : Nat :=
  latestOf (waiting.map fun pending => pending.timestampNs.toNat)

theorem latestNs_emitPending (session : Session) (state : State) (overview : Overview)
    (pending : PendingPacket) :
    latestNs (emitPending session state overview pending).toTrail =
      max (latestNs overview.toTrail) pending.timestampNs.toNat := by
  unfold emitPending
  dsimp only
  generalize pending.resolve (overview.owners (pending.slot session.salt))
    (flowFindAny state pending.flowId) = found
  split
  case isTrue =>
    have hcreated := created_latestNs (nativeSocketPacketTrack_created session.salt
      overview.toTrail found.socketId found.ownerTgid pending.direction)
    refine (latestNs_packet _ _ _ _).trans ?_
    rw [latestNs_packet]
    refine (max_eq_left (Nat.le_max_right _ _)).trans ?_
    exact congrArg (max · _) hcreated
  case isFalse =>
    split
    · exact latestNs_packet _ _ _ _
    · split <;> exact latestNs_packet _ _ _ _

/-- A flush of all packets that wait writes each at its time. -/
theorem latestNs_flush (session : Session) (state : State) {overview : Overview}
    (hready : overview.Ready) (ts : UInt64) :
    latestNs (overviewFlush session state overview ts true).toTrail =
      max (latestNs overview.toTrail) (waitingLatest overview.queue.values) := by
  obtain ⟨waiting, hholds, -⟩ := hready
  rw [hholds.values]
  -- what is written and what waits reach the same time together
  let Inv (after : Overview) (left : List PendingPacket) : Prop := Holds after.queue left ∧
    max (latestNs after.toTrail) (waitingLatest left) =
      max (latestNs overview.toTrail) (waitingLatest waiting)
  have hflush {after : Overview} {pending : PendingPacket} {rest : List PendingPacket}
      (h : Inv after (pending :: rest)) : Inv (flushOne session state after) rest := by
    obtain ⟨hqueue, hlatest⟩ := h
    obtain ⟨place, node, hfirst, rfl⟩ := hqueue.first_cons
    have hframe := (emitPending_spec session state
      { after with bytes := after.bytes - node.value.event.capacity } node.value).1
    have hwritten := latestNs_emitPending session state
      { after with bytes := after.bytes - node.value.event.capacity } node.value
    unfold flushOne
    rw [hfirst]
    dsimp only
    generalize emitPending session state
      { after with bytes := after.bytes - node.value.event.capacity } node.value = emitted at *
    refine ⟨?_, ?_⟩
    · show Holds emitted.queue.pop rest
      rw [show emitted.queue = after.queue from congrArg Prod.fst hframe]
      exact hqueue.pop
    · show max (latestNs emitted.toTrail) (waitingLatest rest) = _
      rw [hwritten, ← hlatest, max_assoc]
      rfl
  obtain ⟨remaining, ⟨-, hlatest⟩, hempty⟩ := @overviewFlush_rule Inv session state ts true
    (fun h => h.1) (fun h => h) hflush overview waiting ⟨hholds, rfl⟩
  obtain rfl := hempty rfl
  rw [← hlatest]
  exact (Nat.max_zero _).symm

/-! ## System calls and flows -/

/-- The latest time of some slices. -/
def spansLatest (spans : List (Nat × Nat)) : Nat :=
  latestOf (spans.map fun span => max span.1 span.2)

theorem latestNs_calls (session : CaptureSession) (trail : Trail) (calls : List SyscallEvent) :
    latestNs (calls.foldl (nativeExportNetworkSyscall session) trail) =
      max (latestNs trail) (spansLatest (callSpans session (latestNs trail) calls)) := by
  induction calls generalizing trail with
  | nil => exact (Nat.max_zero _).symm
  | cons call rest ih =>
      have hcall := nativeExportNetworkSyscall_moves session trail call
      rw [List.foldl_cons, ih, callSpans_cons]
      unfold latestNs
      generalize callSpan session (ringLatest trail.out).toNat call = span at *
      cases span with
      | none => rw [hcall]
      | some span =>
          rw [hcall.2]
          show _ = max _ (max (max span.1 span.2) (spansLatest _))
          rw [max_assoc _ span.1, max_assoc]

/-- What is told of the latest timestamp does not matter before the time of the calls. -/
theorem callSpans_congr (session : CaptureSession) {endTs first second : Nat}
    (hsame : max first endTs = max second endTs) {calls : List SyscallEvent}
    (hcalls : ∀ call ∈ calls, call.ts.toNat = endTs) :
    callSpans session first calls = callSpans session second calls := by
  induction calls generalizing first second with
  | nil => rfl
  | cons call rest ih =>
      have hspan : callSpan session first call = callSpan session second call := by
        unfold callSpan
        rw [hcalls call List.mem_cons_self, hsame]
      have hrest (start finish : Nat) : callSpans session (max (max first start) finish) rest =
          callSpans session (max (max second start) finish) rest :=
        ih (by omega) fun call hcall => hcalls call (List.mem_cons_of_mem _ hcall)
      rw [callSpans_cons, callSpans_cons, hspan,
        ih hsame fun call hcall => hcalls call (List.mem_cons_of_mem _ hcall)]
      split
      · rfl
      · rw [hrest]

/-- The times at which the close ends flows, as the native trace shows them. -/
def flowTimes (session : Session) (state : State) (endTs : UInt64) : List Nat :=
  if session.traceTags then [] else (closedFlows state endTs).map fun entry => entry.2.toNat

theorem latestNs_finishFlows (session : Session) (state : State) (trail : Trail) (endTs : UInt64) :
    latestNs (nativeFinishFlows session state trail (fun _ => true) fun _ => endTs) =
      max (latestNs trail) (latestOf (flowTimes session state endTs)) := by
  unfold nativeFinishFlows flowTimes closedFlows flowsEnded
  generalize state.flows = flows
  induction flows generalizing trail with
  | nil => cases session.traceTags <;> exact (Nat.max_zero _).symm
  | cons flow rest ih =>
      rw [List.foldl_cons, ih, if_pos rfl]
      unfold nativeFlowFinish
      cases htags : session.traceTags with
      | true =>
          rw [if_pos (Or.inr rfl)]
          rfl
      | false =>
          cases hactive : flow.active with
          | false =>
              rw [if_pos (by simp), List.filter_cons_of_neg (by simp [hactive])]
          | true =>
              rw [if_neg (by simp), List.filter_cons_of_pos (by simp [hactive]), latestNs_write,
                max_assoc]
              rfl

theorem flowTimes_congr (session : Session) {before after : State} {endTs : UInt64}
    (h : after.flows.map (FlowState.ending endTs) = before.flows.map (FlowState.ending endTs)) :
    flowTimes session after endTs = flowTimes session before endTs := by
  have hread (state : State) : (closedFlows state endTs).map (fun entry => entry.2.toNat) =
      ((state.flows.map (FlowState.ending endTs)).filter fun entry => entry.2.1).map
        fun entry => entry.2.2.toNat := by
    unfold closedFlows flowsEnded
    rw [List.filter_map, List.map_map, List.map_map]
    refine congrArg (List.map _) (List.filter_congr fun flow _ => ?_)
    exact Bool.and_true _
  unfold flowTimes
  rw [hread, hread, h]

/-! ## The close -/

theorem nativeCloseTracks_latest (session : CaptureSession) (trail : Trail) (endTs : UInt64) :
    latestNs (nativeCloseTracks session trail endTs) = max (latestNs trail) endTs.toNat := by
  have hslice (trail : Trail) (fields : TrackEvent) (place : Nat) : Reaches endTs.toNat trail
      ((nativeSlice session.toSession trail endTs fields).setActive place false) := by
    unfold nativeSlice
    split
    · exact Reaches.of_same (latestNs_setActive _ _ _)
    · exact Reaches.of_eq ((latestNs_setActive _ _ _).trans (latestNs_write _ _ _))
  have hsockets (trail : Trail) : Reaches endTs.toNat trail
      (nativeCloseSockets session.toSession trail endTs) := by
    refine Reaches.loop (fun trail place => ?_) _ trail
    unfold nativeCloseSocketTrack nativeCloseSocket
    split
    · split
      · exact Reaches.refl _ _
      · split
        · exact Reaches.refl _ _
        · exact hslice _ _ _
    · exact Reaches.refl _ _
  have hattempts (trail : Trail) : Reaches endTs.toNat trail
      (nativeCloseAttempts session.toSession trail endTs) := by
    refine Reaches.loop (fun trail place => ?_) _ trail
    unfold nativeCloseAttempt
    split
    · exact Reaches.refl _ _
    · split
      · exact Reaches.refl _ _
      · exact hslice _ _ _
  have hmeta (trail : Trail) := latestNs_meta session.toSession trail endTs
  unfold nativeCloseTracks
  dsimp only
  generalize hstarted : nativeExportMeta session.toSession
    (nativeExportMeta session.toSession trail endTs) endTs = started
  have hfirst : latestNs started = max (latestNs trail) endTs.toNat := by
    rw [← hstarted, hmeta, hmeta]
    omega
  obtain ⟨hgrows, hbounded⟩ := (hsockets started).trans (hattempts _)
  generalize nativeCloseAttempts session.toSession
    (nativeCloseSockets session.toSession started endTs) endTs = closed at *
  rw [hmeta, hmeta]
  split
  · rw [hmeta]
    omega
  · omega

/-- The latest timestamp when the close comes to the system calls: that of the exporter, of the
packets that wait, or the time of the close. -/
def closeReached (exporter : Exporter) (endTs : UInt64) : Nat :=
  max (max (latestNs exporter.native.toTrail) (waitingLatest exporter.native.queue.values))
    endTs.toNat

/-- The times of the system calls in progress at the close. -/
def closingCalls (session : CaptureSession) (exporter : Exporter) (endTs : UInt64) :
    List (Nat × Nat) :=
  callSpans session (closeReached exporter endTs) (closedCalls exporter.state endTs)

/-- The latest timestamp of a ring trace when it is pruned for the last time. -/
def closeLatest (session : CaptureSession) (exporter : Exporter) (clock : CloseClock) : Nat :=
  let endTs := closeTime exporter.state clock.now
  max (max (closeReached exporter endTs) (spansLatest (closingCalls session exporter endTs)))
    (latestOf (flowTimes session.toSession exporter.state endTs))

theorem closedCalls_closeIos (session : Session) (state : State) (endTs : UInt64) :
    closedCalls (closeIos session state endTs) endTs = closedCalls state endTs := by
  have hslots := @closeIos_slots session state endTs _
    (fun slot => (slot.event, slot.active)) fun pending flowId slot => by
      unfold bindSyscallFlow
      split <;> rfl
  have hread (state : State) : closedCalls state endTs =
      ((state.syscalls.map fun slot => (slot.event, slot.active)).filter Prod.snd).map
        fun entry => { entry.1 with ts := endTs } := by
    unfold closedCalls
    rw [List.filter_map, List.map_map]
    rfl
  rw [hread, hread, hslots]

section Close

variable {session : CaptureSession} {exporter : Exporter}

section

variable (h : Coupled session exporter) (clock : CloseClock)
include h

/-- The close up to the system calls. -/
theorem Coupled.shown :
    let endTs := closeTime exporter.state clock.now
    max (latestNs (closeShown session exporter clock)) endTs.toNat =
      closeReached exporter endTs := by
  intro endTs
  have hstart := nativeCloseStart_moves session exporter.native.toTrail endTs clock
  have hstarted := nativeCloseStart_reaches session exporter.native.toTrail endTs clock
  have hready := @Overview.Ready.moves _ (withTrail exporter.native
    (nativeCloseStart session exporter.native.toTrail endTs clock)) h.ready [] hstart rfl
  have hflush := latestNs_flush session.toSession exporter.state hready endTs
  have hios := nativeCloseIos_reaches session.toSession h.sound
    (overviewFlush session.toSession exporter.state (withTrail exporter.native
      (nativeCloseStart session exporter.native.toTrail endTs clock)) endTs true).toTrail endTs
  obtain ⟨hgrows, hbounded⟩ := hstarted
  obtain ⟨hiosGrows, hiosBounded⟩ := hios
  have hbefore : latestNs (withTrail exporter.native
      (nativeCloseStart session exporter.native.toTrail endTs clock)).toTrail =
      latestNs (nativeCloseStart session exporter.native.toTrail endTs clock) := rfl
  have hqueue : (withTrail exporter.native (nativeCloseStart session exporter.native.toTrail endTs
      clock)).queue = exporter.native.queue := rfl
  rw [hbefore, hqueue] at hflush
  show max (latestNs (nativeCloseIos session.toSession exporter.state
      (overviewFlush session.toSession exporter.state (withTrail exporter.native
        (nativeCloseStart session exporter.native.toTrail endTs clock)) endTs true).toTrail endTs))
      endTs.toNat =
    max (max (latestNs exporter.native.toTrail) (waitingLatest exporter.native.queue.values))
      endTs.toNat
  omega

theorem Coupled.closeBrief :
    Capture.closeBrief session exporter clock =
      closingCalls session exporter (closeTime exporter.state clock.now) := by
  unfold Capture.closeBrief closeCallSpans closingCalls
  rw [closedCalls_closeIos]
  have hreached : max (latestNs (closeShown session exporter clock))
      (closeTime exporter.state clock.now).toNat =
      max (closeReached exporter (closeTime exporter.state clock.now))
        (closeTime exporter.state clock.now).toNat := by
    rw [h.shown clock]
    unfold closeReached
    omega
  refine callSpans_congr session hreached fun call hcall => ?_
  obtain ⟨slot, -, rfl⟩ := List.mem_map.mp hcall
  rfl

/-- What the exporter tells before the close is the latest timestamp after it. -/
theorem Coupled.latestNs :
    Capture.latestNs (captureClose session exporter clock) =
      closeLatest session exporter clock := by
  have hshown := h.shown clock
  have hbrief : callSpans session (Capture.latestNs (closeShown session exporter clock))
      (closedCalls (closeIos session.toSession exporter.state (closeTime exporter.state clock.now))
        (closeTime exporter.state clock.now)) = _ := h.closeBrief clock
  have hflows := flowTimes_congr session.toSession
    (@closeIos_ends [] session.toSession exporter.state (closeTime exporter.state clock.now)).2
  unfold captureClose closeLatest nativeCloseTables
  dsimp only at hshown ⊢
  rw [nativeCloseTracks_latest, latestNs_finishFlows, latestNs_calls]
  show max (max (max (Capture.latestNs (closeShown session exporter clock)) (spansLatest
    (callSpans session (Capture.latestNs (closeShown session exporter clock)) _))) (latestOf
      (flowTimes session.toSession (closeIos session.toSession exporter.state _) _))) _ = _
  rw [hbrief, hflows]
  omega

end

end Close

end Anettrace.Capture
