import Anettrace.Library.Run
import Anettrace.Native.Creators
import Anettrace.Native.Overview
import Mathlib.Algebra.BigOperators.Group.List.Basic

/-!
# Conservation of the packet overview

Every queued network packet reaches the native trace once, in arrival order, with its mirror right
behind it, however it leaves the queue: by time, by pressure, behind an event that is too large to
wait, or when the trace is closed. `Conserved` ties the queue, its two counters and the trace to the
list of arrivals; one flushed event keeps it, hence every loop and every call does.
-/

namespace Anettrace.Native

open Anettrace.Export Library.LinkedQueue Library.Run ProtoBuffer

/-! ## What is written -/

def Packet.ofNetwork (packet : Packet) : Bool :=
  match packet.body with
  | .packet _ _ => true
  | _ => false

/-- What is written for a queued event: the event with more fields at its end, and at once its
mirror, which repeats the annotations between the fields of its own. -/
inductive Written (session : Session) (pending : PendingPacket) : List Packet → Prop where
  | alone (cleared : Bool) (fields : List UInt8) :
      Written session pending
        [⟨cleared, pending.timestampNs,
          .packet pending.sourceTrackUuid (pending.event.data ++ fields)⟩]
  | mirrored (cleared : Bool) (fields : List UInt8) (socketId navigationId lane : UInt64)
      (hlane : lane = socketPacketsUuid session.salt socketId pending.direction) :
      Written session pending
        [⟨cleared, pending.timestampNs,
          .packet pending.sourceTrackUuid (pending.event.data ++ fields)⟩,
        ⟨false, pending.timestampNs,
          .packet lane
            ((mirrorStart session.traceTags lane navigationId pending).data ++
              slice pending.event pending.annotationOffset pending.annotationSize ++
              (mirrorFields socketId navigationId pending ProtoBuffer.empty).data)⟩]

/-- A stretch of the trace: packets that carry no network packet, or what is written for one. -/
inductive Block where
  | other (packets : List Packet)
  | written (pending : PendingPacket) (packets : List Packet)

def Block.packets : Block → List Packet
  | .other packets => packets
  | .written _ packets => packets

/-- The queued event that a stretch is about. -/
def Block.pending : Block → Option PendingPacket
  | .other _ => none
  | .written pending _ => some pending

/-- The stretch is what it says. -/
def Block.Valid (session : Session) : Block → Prop
  | .other packets => ∀ packet ∈ packets, packet.ofNetwork = false
  | .written pending packets => Written session pending packets

/-- The allocated bytes of some queued events. -/
def capacities (waiting : List PendingPacket) : Nat :=
  (waiting.map fun pending => pending.event.capacity).sum

/-- The trace consists of stretches about the given events, in order. -/
structure Trace (session : Session) (out : List Packet) (written : List PendingPacket)
    (blocks : List Block) : Prop where
  out : out = blocks.flatMap Block.packets
  valid : ∀ block ∈ blocks, block.Valid session
  written : blocks.filterMap Block.pending = written

/-- The queue holds the arrivals that are not in the trace yet, the counters are exact and within
their bounds, and outside tags mode the three outcomes account for every event in the trace. -/
structure Conserved (session : Session) (overview : Overview)
    (arrivals waiting : List PendingPacket) : Prop where
  queue : Holds overview.queue waiting
  count : overview.count = waiting.length
  count_le : waiting.length ≤ overviewMaxEvents
  bytes : overview.bytes = capacities waiting
  bytes_le : capacities waiting ≤ overviewMaxBytes
  trace : ∃ written blocks, Trace session overview.out written blocks ∧
    written ++ waiting = arrivals ∧
    (session.traceTags = false →
      overview.emitted + overview.ambiguous + overview.unresolved = UInt64.ofNat written.length)

theorem Trace.append {session : Session} {out packets : List Packet}
    {written : List PendingPacket} {blocks : List Block} (h : Trace session out written blocks)
    {block : Block} (hpackets : block.packets = packets) (hvalid : block.Valid session) :
    Trace session (out ++ packets) (written ++ block.pending.toList) (blocks ++ [block]) := by
  refine ⟨?_, ?_, ?_⟩
  · rw [h.out, List.flatMap_append, List.flatMap_singleton, hpackets]
  · intro other hother
    rcases List.mem_append.mp hother with hold | hlast
    · exact h.valid other hold
    · rw [List.mem_singleton.mp hlast]
      exact hvalid
  · rw [List.filterMap_append, h.written]
    cases block <;> rfl

/-! ## One event -/

/-- Annotations inside an event are not disturbed by fields behind it. -/
theorem slice_of_appended {event after : ProtoBuffer} {more : List UInt8} {offset size : Nat}
    (hafter : after.data = event.data ++ more) (hwithin : offset + size ≤ event.data.length) :
    slice after offset size = slice event offset size := by
  unfold slice
  rw [hafter, List.drop_append_of_le_length (by omega), List.take_append_of_le_length]
  rw [List.length_drop]
  omega

theorem navigated_appends (traceTags : Bool) (navigationId : UInt64) :
    Appends fun event => navigated traceTags event navigationId :=
  (nativeAnnotationId_appends _ _).comp (nativeEventFlow_appends _ _ _)

theorem mirrorFields_appends (socketId navigationId : UInt64) (pending : PendingPacket) :
    Appends (mirrorFields socketId navigationId pending) :=
  (nativeAnnotationId_appends _ _).comp ((nativeAnnotationUint_appends _ _).comp
    ((nativeAnnotationUint_appends _ _).comp ((nativeAnnotationUint_appends _ _).comp
      ((nativeAnnotationId_appends _ _).comp (nativeAnnotationId_appends _ _)))))

theorem mirror_data (start : ProtoBuffer) (annotations : List UInt8)
    (socketId navigationId : UInt64) (pending : PendingPacket) :
    (mirrorFields socketId navigationId pending (start.protoBytes annotations)).data =
      start.data ++ annotations ++
        (mirrorFields socketId navigationId pending ProtoBuffer.empty).data :=
  mirrorFields_appends socketId navigationId pending (start.protoBytes annotations)

theorem Creates.quiet {trail after : Trail} (h : Creates trail after) :
    ∃ packets, after.out = trail.out ++ packets ∧ ∀ packet ∈ packets, packet.ofNetwork = false := by
  obtain ⟨packets, hout, hpackets⟩ := h.out
  refine ⟨packets, hout, fun packet hpacket => ?_⟩
  obtain ⟨descriptor, -, hbody⟩ := hpackets packet hpacket
  rw [Packet.ofNetwork, hbody]

/-- The part of the overview that writing an event leaves alone. -/
def Overview.frame (overview : Overview) :
    Linked PendingPacket × Nat × Nat × (Nat → PacketOwner) × UInt64 × UInt64 :=
  (overview.queue, overview.count, overview.bytes, overview.owners, overview.latestNs,
    overview.capacityFlushes)

/-- The events that were accounted for. -/
def Overview.outcomes (overview : Overview) : UInt64 :=
  overview.emitted + overview.ambiguous + overview.unresolved

/-- Writing an event adds a stretch about it, and outside tags mode counts it once. -/
theorem emitPending_spec (session : Session) (state : State) (overview : Overview)
    (pending : PendingPacket) :
    (emitPending session state overview pending).frame = overview.frame ∧
      (∃ quiet packets, (emitPending session state overview pending).out =
          overview.out ++ quiet ++ packets ∧
        (∀ packet ∈ quiet, packet.ofNetwork = false) ∧ Written session pending packets) ∧
      (session.traceTags = false →
        (emitPending session state overview pending).outcomes = overview.outcomes + 1) := by
  unfold emitPending
  dsimp only
  generalize pending.resolve (overview.owners (pending.slot session.salt))
    (flowFindAny state pending.flowId) = found
  obtain ⟨noted, hnoted⟩ : ∃ noted, noted =
    overview.note (.flushed pending (found.outcome session)) := ⟨_, rfl⟩
  have hframe : noted.frame = overview.frame := hnoted ▸ rfl
  have hout : noted.out = overview.out := hnoted ▸ rfl
  have houtcomes : noted.outcomes = overview.outcomes := hnoted ▸ rfl
  rw [← hnoted, ← houtcomes, ← hout]
  split
  case isTrue hlane =>
    have hevent : (if session.traceTags = true ∧ pending.socketId = 0 then
        pending.event.nativeAnnotationId "socket_id" found.socketId else pending.event) =
        pending.event := by
      refine if_neg fun htags => ?_
      simp [htags.1] at hlane
    rw [hevent]
    obtain ⟨quiet, hquiet, hdescriptors⟩ := (nativeSocketPacketTrack_created session.salt
      noted.toTrail found.socketId found.ownerTgid pending.direction).creates.quiet
    generalize nativeSocketPacketTrack session.salt noted.toTrail found.socketId
      found.ownerTgid pending.direction = created at hquiet ⊢
    generalize nativeUuid session.salt "packet-navigation" (noted.navigationSerial + 1) 0 =
      navigationId
    have hnavigated : (navigated session.traceTags pending.event navigationId).data =
        pending.event.data ++ (navigated session.traceTags ProtoBuffer.empty navigationId).data :=
      navigated_appends _ _ _
    have hslice := slice_of_appended hnavigated pending.within
    refine ⟨hframe, ⟨quiet, _, ?_, hdescriptors,
      .mirrored (!created.1.sequenceStarted)
        (navigated session.traceTags ProtoBuffer.empty navigationId).data found.socketId
        navigationId _ rfl⟩, fun _ => ?_⟩
    · simp only [nativePacketWrite, Trail.writeSequence]
      rw [mirror_data, hslice, hnavigated, hquiet, List.append_assoc (noted.out ++ quiet)]
      rfl
    · show noted.emitted + 1 + noted.ambiguous + noted.unresolved = noted.outcomes + 1
      unfold Overview.outcomes
      ac_rfl
  case isFalse hlane =>
    obtain ⟨fields, hfields⟩ : ∃ fields, (if session.traceTags = true ∧ pending.socketId = 0 then
        pending.event.nativeAnnotationId "socket_id" found.socketId else pending.event).data =
        pending.event.data ++ fields := by
      split
      · exact ⟨_, nativeAnnotationId_appends _ _ _⟩
      · exact ⟨[], (List.append_nil _).symm⟩
    have hwritten : Written session pending
        [⟨!noted.sequenceStarted, pending.timestampNs, .packet pending.sourceTrackUuid
          (if session.traceTags = true ∧ pending.socketId = 0 then
            pending.event.nativeAnnotationId "socket_id" found.socketId
              else pending.event).data⟩] := by
      rw [hfields]
      exact .alone _ fields
    have hnothing (packets : List Packet) : noted.out ++ packets = noted.out ++ [] ++ packets := by
      rw [List.append_nil]
    split
    case isTrue =>
      refine ⟨hframe, ⟨[], _, hnothing _, by simp, hwritten⟩, fun _ => ?_⟩
      show noted.emitted + (noted.ambiguous + 1) + noted.unresolved = noted.outcomes + 1
      unfold Overview.outcomes
      ac_rfl
    case isFalse =>
      split
      case isTrue =>
        refine ⟨hframe, ⟨[], _, hnothing _, by simp, hwritten⟩, fun _ => ?_⟩
        show noted.emitted + noted.ambiguous + (noted.unresolved + 1) = noted.outcomes + 1
        exact (UInt64.add_assoc _ _ _).symm
      case isFalse htags =>
        refine ⟨hframe, ⟨[], _, hnothing _, by simp, hwritten⟩, fun hfalse => ?_⟩
        simp [hfalse] at htags

/-- Flushing moves the first waiting event into the trace. -/
theorem Conserved.flushOne {session : Session} {overview : Overview} {pending : PendingPacket}
    {arrivals waiting : List PendingPacket}
    (h : Conserved session overview arrivals (pending :: waiting)) (state : State) :
    Conserved session (flushOne session state overview) arrivals waiting := by
  obtain ⟨place, node, hfirst, rfl⟩ := h.queue.first_cons
  obtain ⟨hframe, ⟨quiet, packets, hout, hquiet, hwritten⟩, hcounted⟩ := emitPending_spec session
    state { overview with bytes := overview.bytes - node.value.event.capacity } node.value
  unfold Native.flushOne
  rw [hfirst]
  dsimp only
  generalize emitPending session state
    { overview with bytes := overview.bytes - node.value.event.capacity } node.value = after at *
  obtain ⟨hqueue, hcount, hbytes, -⟩ := Prod.ext_iff.mp hframe |>.imp_right fun h =>
    ((Prod.ext_iff.mp h).imp_right fun h => Prod.ext_iff.mp h)
  have hcapacities : capacities (node.value :: waiting) =
      node.value.event.capacity + capacities waiting := rfl
  obtain ⟨written, blocks, htrace, horder, houtcomes⟩ := h.trace
  refine ⟨?_, ?_, ?_, ?_, ?_, ?_⟩
  · show Holds after.queue.pop waiting
    rw [show after.queue = overview.queue from hqueue]
    exact h.queue.pop
  · show after.count - 1 = waiting.length
    rw [show after.count = overview.count from hcount, h.count, List.length_cons]
    rfl
  · exact (Nat.le_succ _).trans h.count_le
  · show after.bytes = capacities waiting
    rw [show after.bytes = overview.bytes - node.value.event.capacity from hbytes, h.bytes,
      hcapacities]
    omega
  · exact (Nat.le_add_left _ _).trans (hcapacities ▸ h.bytes_le)
  · refine ⟨written ++ [node.value], blocks ++ [.other quiet] ++ [.written node.value packets],
      ?_, ?_, fun hfalse => ?_⟩
    · rw [hout]
      have hother := @Trace.append _ _ quiet _ _ htrace (.other quiet) rfl hquiet
      have hblock := @Trace.append _ _ packets _ _ hother (.written node.value packets) rfl hwritten
      rwa [show (Block.other quiet).pending.toList = [] from rfl, List.append_nil] at hblock
    · rw [List.append_assoc]
      exact horder
    · rw [List.length_append, UInt64.ofNat_add, ← houtcomes hfalse]
      exact hcounted hfalse

/-! ## Flushing -/

theorem Conserved.congr {session : Session} {overview other : Overview}
    {arrivals waiting : List PendingPacket} (h : Conserved session overview arrivals waiting)
    (hqueue : other.queue = overview.queue) (hcount : other.count = overview.count)
    (hbytes : other.bytes = overview.bytes) (hout : other.out = overview.out)
    (houtcomes : other.outcomes = overview.outcomes) :
    Conserved session other arrivals waiting := by
  obtain ⟨written, blocks, htrace, horder, hcounted⟩ := h.trace
  refine ⟨hqueue ▸ h.queue, hcount.trans h.count, h.count_le, hbytes.trans h.bytes, h.bytes_le,
    written, blocks, hout ▸ htrace, horder, fun hfalse => ?_⟩
  exact houtcomes.trans (hcounted hfalse)

theorem Conserved.flush {session : Session} {overview : Overview}
    {arrivals waiting : List PendingPacket} (h : Conserved session overview arrivals waiting)
    (state : State) (ts : UInt64) (all : Bool) :
    ∃ remaining, Conserved session (overviewFlush session state overview ts all)
      arrivals remaining ∧
      (all = true → remaining = []) :=
  @overviewFlush_rule (Conserved session · arrivals ·) session state ts all Conserved.queue
    (fun h => Conserved.congr h rfl rfl rfl rfl rfl) (fun h => Conserved.flushOne h state) _ _ h

theorem Conserved.makeRoom {session : Session} (state : State) (capacity : Nat)
    {overview : Overview} {arrivals waiting : List PendingPacket}
    (h : Conserved session overview arrivals waiting) :
    let roomy := Native.makeRoom session state capacity overview.queue.fresh overview
    ∃ remaining, Conserved session roomy arrivals remaining ∧
      (remaining = [] ∨ crowded roomy capacity = false) :=
  @makeRoom_rule (Conserved session · arrivals ·) session state capacity Conserved.queue
    (fun h => Conserved.congr h rfl rfl rfl rfl rfl) (fun h => Conserved.flushOne h state) _ _ _ h
    h.queue.length_le

/-! ## The calls -/

theorem capacities_concat (waiting : List PendingPacket) (pending : PendingPacket) :
    capacities (waiting ++ [pending]) = capacities waiting + pending.event.capacity := by
  simp [capacities]

section

variable {session : Session} {overview : Overview} {arrivals waiting : List PendingPacket}
  (h : Conserved session overview arrivals waiting) (state : State)
include h

/-- `native_packet_overview_queue` adds one arrival. -/
theorem Conserved.queueRequest (request : QueueRequest) :
    ∃ remaining, Conserved session (overviewQueue session state overview request)
      (arrivals ++ [request.pending session.salt]) remaining := by
  obtain ⟨remaining, hroom, hfree⟩ := h.makeRoom state request.event.capacity
  unfold overviewQueue
  dsimp only
  generalize Native.makeRoom session state request.event.capacity overview.queue.fresh overview =
    roomy at *
  have hcapacity : (request.pending session.salt).event.capacity = request.event.capacity := rfl
  split
  case isTrue hfits =>
    -- The event waits: there is room for it, since the queue is empty or not crowded.
    have hbounds : remaining.length + 1 ≤ overviewMaxEvents ∧
        capacities remaining + request.event.capacity ≤ overviewMaxBytes := by
      rcases hfree with rfl | hfree
      · exact ⟨by decide, by simpa [capacities] using hfits⟩
      · unfold crowded at hfree
        rw [hroom.count, hroom.bytes] at hfree
        simp only [Bool.or_eq_false_iff, decide_eq_false_iff_not] at hfree
        omega
    obtain ⟨written, blocks, htrace, horder, hcounted⟩ := hroom.trace
    have hqueued : Conserved session
        { roomy.note (.queued (request.pending session.salt)) with
          queue := roomy.queue.append (request.pending session.salt)
          count := roomy.count + 1
          bytes := roomy.bytes + request.event.capacity }
        (arrivals ++ [request.pending session.salt])
        (remaining ++ [request.pending session.salt]) := by
      refine ⟨hroom.queue.append _, ?_, ?_, ?_, ?_, written, blocks, htrace, ?_, hcounted⟩
      · rw [hroom.count, List.length_append]
        rfl
      · rw [List.length_append]
        exact hbounds.1
      · rw [hroom.bytes, capacities_concat, hcapacity]
      · rw [capacities_concat, hcapacity]
        exact hbounds.2
      · rw [← horder, List.append_assoc]
    obtain ⟨after, hafter, -⟩ := hqueued.flush state roomy.latestNs false
    exact ⟨after, hafter⟩
  case isFalse =>
    -- The event cannot wait: everything before it leaves first.
    have hnoted : Conserved session (roomy.note (.queued (request.pending session.salt))) arrivals
        remaining :=
      hroom.congr rfl rfl rfl rfl rfl
    obtain ⟨after, hflushed, hempty⟩ := hnoted.flush state 0 true
    obtain rfl := hempty rfl
    generalize overviewFlush session state (roomy.note (.queued (request.pending session.salt))) 0
      true = flushed at *
    obtain ⟨written, blocks, htrace, horder, hcounted⟩ := hflushed.trace
    rw [List.append_nil] at horder
    obtain ⟨fields, hfields⟩ : ∃ fields,
        (if session.traceTags = true ∧ request.detail.ownerSocketKey = 0 then
          request.event.nativeAnnotationId "socket_id" 0 else request.event).data =
          request.event.data ++ fields := by
      split
      · exact ⟨_, nativeAnnotationId_appends _ _ _⟩
      · exact ⟨[], (List.append_nil _).symm⟩
    refine ⟨[], hflushed.queue, hflushed.count, hflushed.count_le, hflushed.bytes,
      hflushed.bytes_le, written ++ [request.pending session.salt],
      blocks ++ [.written (request.pending session.salt)
        [⟨!flushed.sequenceStarted, request.detail.ts,
          .packet request.threadUuid (request.event.data ++ fields)⟩]], ?_, ?_, fun hfalse => ?_⟩
    · show Trace session (flushed.out ++ [_]) _ _
      rw [hfields]
      exact @Trace.append _ _ _ _ _ htrace (.written (request.pending session.salt) _) rfl
        (Written.alone (!flushed.sequenceStarted) fields)
    · rw [horder, List.append_nil]
    · rw [List.length_append, UInt64.ofNat_add, ← hcounted hfalse]
      show flushed.emitted + flushed.ambiguous + (flushed.unresolved + 1) =
        flushed.emitted + flushed.ambiguous + flushed.unresolved + 1
      exact (UInt64.add_assoc _ _ _).symm

/-- `native_packet_overview_observe` keeps the conservation. -/
theorem Conserved.observe (detail : DetailEvent) :
    ∃ remaining, Conserved session (overviewObserve session state overview detail) arrivals
      remaining := by
  have hexpire (slot : Nat) {overview : Overview}
      (h : Conserved session overview arrivals waiting) : ∃ remaining,
      Conserved session (expireSlot session state overview slot detail.ts) arrivals remaining := by
    unfold expireSlot
    dsimp only
    split
    · obtain ⟨remaining, hflushed, -⟩ := h.flush state detail.ts false
      split
      · exact ⟨remaining, hflushed.congr rfl rfl rfl rfl rfl⟩
      · exact ⟨remaining, hflushed⟩
    · exact ⟨waiting, h⟩
  have hnote {overview : Overview} {waiting : List PendingPacket}
      (h : Conserved session overview arrivals waiting) :
      Conserved session (overview.noteSocket detail) arrivals waiting := by
    unfold Overview.noteSocket
    split
    · exact h.congr rfl rfl rfl rfl rfl
    · exact h
  have harrived : Conserved session (overview.note (.arrived detail)) arrivals waiting :=
    h.congr rfl rfl rfl rfl rfl
  have hslot : ∃ remaining, Conserved session
      (observeSlot session state (overview.note (.arrived detail)) detail) arrivals remaining := by
    unfold observeSlot
    dsimp only
    split
    case isTrue => exact ⟨waiting, hnote harrived⟩
    case isFalse =>
      obtain ⟨remaining, hexpired⟩ := hexpire (ownerSlot session.salt
        (packetId session.salt detail.ts detail.key detail.keyGeneration) detail.direction) harrived
      split
      case isTrue => exact ⟨remaining, hnote hexpired⟩
      case isFalse => exact ⟨remaining, (hnote hexpired).congr rfl rfl rfl rfl rfl⟩
  -- Whatever became of the slot, the queue is then flushed by time.
  obtain ⟨remaining, hobserved⟩ := hslot
  obtain ⟨after, hflushed, -⟩ := hobserved.flush state detail.ts false
  exact ⟨after, hflushed⟩

end

/-! ## Runs -/

/-- A call of the overview, or anything else the exporter does to its tracks and its trace: no other
part of it writes the event of a network packet. -/
inductive OverviewCall where
  | observe (detail : DetailEvent)
  | queue (request : QueueRequest)
  | flush (ts : UInt64) (all : Bool)
  | other (tracks : List NativeTrack) (sequenceStarted : Bool) (packets : List Packet)
      (hquiet : ∀ packet ∈ packets, packet.ofNetwork = false)

/-- One call, with the flows as they are at that time. -/
def overviewStep (session : Session) (overview : Overview) (call : State × OverviewCall) :
    Overview :=
  match call.2 with
  | .observe detail => overviewObserve session call.1 overview detail
  | .queue request => overviewQueue session call.1 overview request
  | .flush ts all => overviewFlush session call.1 overview ts all
  | .other tracks sequenceStarted packets _ =>
      { overview with toTrail := ⟨tracks, sequenceStarted, overview.out ++ packets⟩ }

def queuedBy (salt : UInt64) (call : State × OverviewCall) : Option PendingPacket :=
  match call.2 with
  | .queue request => some (request.pending salt)
  | _ => none

theorem Conserved.step {session : Session} {overview : Overview}
    {arrivals waiting : List PendingPacket} (h : Conserved session overview arrivals waiting)
    (call : State × OverviewCall) :
    ∃ remaining, Conserved session (overviewStep session overview call)
      (arrivals ++ (queuedBy session.salt call).toList) remaining := by
  obtain ⟨state, call⟩ := call
  cases call with
  | observe detail =>
      obtain ⟨remaining, hafter⟩ := h.observe state detail
      exact ⟨remaining, (List.append_nil arrivals).symm ▸ hafter⟩
  | queue request => exact h.queueRequest state request
  | flush ts all =>
      obtain ⟨remaining, hafter, -⟩ := h.flush state ts all
      exact ⟨remaining, (List.append_nil arrivals).symm ▸ hafter⟩
  | other tracks sequenceStarted packets hquiet =>
      obtain ⟨written, blocks, htrace, horder, hcounted⟩ := h.trace
      refine ⟨waiting, h.queue, h.count, h.count_le, h.bytes, h.bytes_le, written,
        blocks ++ [.other packets], ?_, ?_, hcounted⟩
      · have hother := @Trace.append _ _ packets _ _ htrace (.other packets) rfl hquiet
        rwa [show (Block.other packets).pending.toList = [] from rfl, List.append_nil] at hother
      · exact horder.trans (List.append_nil arrivals).symm

def overviewRun (session : Session) (calls : List (State × OverviewCall)) : Overview :=
  run (overviewStep session) Overview.init calls

/-- After any calls, in any order and with any flows, the overview is conserved; and after a full
flush every queued event is in the trace. -/
theorem overview_conservation (session : Session) (calls : List (State × OverviewCall)) :
    let arrivals := calls.filterMap (queuedBy session.salt)
    (∃ waiting, Conserved session (overviewRun session calls) arrivals waiting) ∧
      ∀ state ts, Conserved session
        (overviewFlush session state (overviewRun session calls) ts true) arrivals [] := by
  intro arrivals
  have hrun : ∃ waiting, Conserved session (overviewRun session calls) arrivals waiting := by
    refine @run_history _ _ (overviewStep session) Overview.init
      (fun calls overview => ∃ waiting,
        Conserved session overview (calls.filterMap (queuedBy session.salt)) waiting) ?_ ?_ calls
    · refine ⟨[], holds_empty, rfl, Nat.zero_le _, rfl, Nat.zero_le _, [], [], ?_,
        rfl, fun _ => rfl⟩
      exact ⟨rfl, by simp, rfl⟩
    · rintro history call ⟨waiting, h⟩
      obtain ⟨remaining, hafter⟩ := h.step call
      refine ⟨remaining, ?_⟩
      rw [List.filterMap_append, List.filterMap_cons, List.filterMap_nil]
      cases hqueued : queuedBy session.salt call with
      | none =>
          rw [hqueued] at hafter
          exact hafter
      | some pending =>
          rw [hqueued] at hafter
          exact hafter
  obtain ⟨waiting, h⟩ := hrun
  refine ⟨⟨waiting, h⟩, fun state ts => ?_⟩
  obtain ⟨remaining, hflushed, hempty⟩ := h.flush state ts true
  exact hempty rfl ▸ hflushed

end Anettrace.Native
