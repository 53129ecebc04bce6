import Anettrace.Native.Moves
import Anettrace.Native.OverviewConservation

/-!
# The packet overview moves

What the packet overview does to the native trace, as moves: the events of packets, on the thread
that each was recorded in and on the lane of its socket. The thread of a waiting event has had its
track since before the event was queued.
-/

namespace Anettrace.Native

open Anettrace.Export Library.Labelled Library.LinkedQueue

/-- The overview got where it is from `start` without the boundary of a slice, and the tracks of the
waiting events are there. -/
structure Drains (start : Trail) (overview : Overview) (waiting : List PendingPacket) : Prop where
  holds : Holds overview.queue waiting
  tracks : ∀ pending ∈ waiting, overview.toTrail.HasTrack pending.sourceTrackUuid
  moves : TrailMoves start [] overview.toTrail

/-- The tracks of the waiting events are there. -/
def Overview.Ready (overview : Overview) : Prop :=
  ∃ waiting, Holds overview.queue waiting ∧
    ∀ pending ∈ waiting, overview.toTrail.HasTrack pending.sourceTrackUuid

theorem Overview.Ready.init : Overview.init.Ready :=
  ⟨[], holds_empty, by simp⟩

theorem Overview.Ready.drains {overview : Overview} (h : overview.Ready) :
    ∃ waiting, Drains overview.toTrail overview waiting := by
  obtain ⟨waiting, hholds, htracks⟩ := h
  exact ⟨waiting, hholds, htracks, Moves.refl _⟩

theorem Drains.ready {start : Trail} {overview : Overview} {waiting : List PendingPacket}
    (h : Drains start overview waiting) : overview.Ready :=
  ⟨waiting, h.holds, h.tracks⟩

/-- Moves of the native trace keep the tracks of the waiting events. -/
theorem Overview.Ready.moves {before after : Overview} (h : before.Ready) {marks : List Mark}
    (hmoves : TrailMoves before.toTrail marks after.toTrail) (hqueue : after.queue = before.queue) :
    after.Ready := by
  obtain ⟨waiting, hholds, htracks⟩ := h
  exact ⟨waiting, hqueue ▸ hholds, fun pending hpending =>
    hmoves.hasTrack (htracks pending hpending)⟩

theorem Drains.congr {start : Trail} {before after : Overview} {waiting : List PendingPacket}
    (h : Drains start before waiting) (htrail : after.toTrail = before.toTrail)
    (hqueue : after.queue = before.queue) : Drains start after waiting :=
  ⟨hqueue ▸ h.holds, htrail ▸ h.tracks, htrail ▸ h.moves⟩

/-- One event is written, on its track and on the lane of its socket. -/
theorem emitPending_moves (session : Session) (state : State) {overview : Overview}
    {pending : PendingPacket} (htrack : overview.toTrail.HasTrack pending.sourceTrackUuid) :
    TrailMoves overview.toTrail [] (emitPending session state overview pending).toTrail := by
  unfold emitPending
  dsimp only
  generalize pending.resolve (overview.owners (pending.slot session.salt))
    (flowFindAny state pending.flowId) = found
  have halone (event : ProtoBuffer) : TrailMoves overview.toTrail []
      (nativePacketWrite overview.toTrail pending.timestampNs pending.sourceTrackUuid event) :=
    Moves.single (.packet pending.timestampNs pending.sourceTrackUuid event htrack)
  split
  case isTrue =>
    have hcreated := nativeSocketPacketTrack_created session.salt overview.toTrail found.socketId
      found.ownerTgid pending.direction
    have hmoves := hcreated.creates.moves
    have hlane := hcreated.hasTrack
    show TrailMoves overview.toTrail [] (nativePacketWrite (nativePacketWrite
      (nativeSocketPacketTrack session.salt overview.toTrail found.socketId found.ownerTgid
        pending.direction).1 _ _ _) _ _ _)
    generalize (nativeSocketPacketTrack session.salt overview.toTrail found.socketId
      found.ownerTgid pending.direction).1 = created at *
    -- the mirror follows its original
    have hwritten (event : ProtoBuffer) : TrailMoves created []
        (nativePacketWrite created pending.timestampNs pending.sourceTrackUuid event) :=
      Moves.single (.packet pending.timestampNs _ event (hmoves.hasTrack htrack))
    have hmirror (event mirror : ProtoBuffer) := Moves.single
      (@TrailMove.packet _ pending.timestampNs
        (socketPacketsUuid session.salt found.socketId pending.direction) mirror
        ((hwritten event).hasTrack hlane))
    exact hmoves.then_silent ((hwritten _).then_silent (hmirror _ _))
  case isFalse =>
    split
    · exact halone _
    · split <;> exact halone _

/-- Flushing one event. -/
theorem Drains.flushOne {session : Session} {start : Trail} {overview : Overview}
    {pending : PendingPacket} {waiting : List PendingPacket}
    (h : Drains start overview (pending :: waiting)) (state : State) :
    Drains start (flushOne session state overview) waiting := by
  obtain ⟨place, node, hfirst, rfl⟩ := h.holds.first_cons
  have hmoves := @emitPending_moves session state
    { overview with bytes := overview.bytes - node.value.event.capacity } node.value
    (h.tracks node.value List.mem_cons_self)
  have hframe := (emitPending_spec session state
    { overview with bytes := overview.bytes - node.value.event.capacity } node.value).1
  unfold Native.flushOne
  rw [hfirst]
  dsimp only
  generalize emitPending session state
    { overview with bytes := overview.bytes - node.value.event.capacity } node.value = after at *
  refine ⟨?_, fun waiter hwaiter => ?_, h.moves.then_silent hmoves⟩
  · show Holds after.queue.pop waiting
    rw [show after.queue = overview.queue from congrArg Prod.fst hframe]
    exact h.holds.pop
  · exact hmoves.hasTrack (h.tracks waiter (List.mem_cons_of_mem _ hwaiter))

theorem Drains.flush {session : Session} {start : Trail} {overview : Overview}
    {waiting : List PendingPacket} (h : Drains start overview waiting) (state : State) (ts : UInt64)
    (all : Bool) :
    ∃ remaining, Drains start (overviewFlush session state overview ts all) remaining := by
  obtain ⟨remaining, hremaining, -⟩ := @overviewFlush_rule (Drains start) session state ts all
    Drains.holds (fun h => h.congr rfl rfl) (fun h => h.flushOne state) _ _ h
  exact ⟨remaining, hremaining⟩

theorem Drains.restart {start : Trail} {overview : Overview} {waiting : List PendingPacket}
    (h : Drains start overview waiting) : Drains overview.toTrail overview waiting :=
  ⟨h.holds, h.tracks, Moves.refl _⟩

section

variable {session : Session} {start : Trail} {overview : Overview} {waiting : List PendingPacket}
  (h : Drains start overview waiting) (state : State)
include h

theorem Drains.queue {request : QueueRequest}
    (htrack : overview.toTrail.HasTrack request.threadUuid) :
    ∃ remaining, Drains start (overviewQueue session state overview request) remaining := by
  -- making room keeps the track of the new event
  obtain ⟨remaining, ⟨hroom, hroomTrack⟩, -⟩ := @makeRoom_rule
    (fun overview waiting => Drains start overview waiting ∧
      overview.toTrail.HasTrack request.threadUuid) session state request.event.capacity
    (fun h => h.1.holds) (fun h => ⟨h.1.congr rfl rfl, h.2⟩)
    (fun h => ⟨h.1.flushOne state, (h.1.restart.flushOne state).moves.hasTrack h.2⟩) _ _ _
    ⟨h, htrack⟩ h.holds.length_le
  unfold overviewQueue
  dsimp only
  generalize makeRoom session state request.event.capacity overview.queue.fresh overview = roomy
    at *
  split
  case isTrue =>
    have hqueued : Drains start
        { roomy.note (.queued (request.pending session.salt)) with
          queue := roomy.queue.append (request.pending session.salt)
          count := roomy.count + 1
          bytes := roomy.bytes + request.event.capacity }
        (remaining ++ [request.pending session.salt]) := by
      refine ⟨hroom.holds.append _, fun pending hpending => ?_, hroom.moves⟩
      rcases List.mem_append.mp hpending with hold | hnew
      · exact hroom.tracks pending hold
      · obtain rfl := List.mem_singleton.mp hnew
        exact hroomTrack
    exact hqueued.flush state roomy.latestNs false
  case isFalse =>
    have hnoted : Drains start (roomy.note (.queued (request.pending session.salt))) remaining :=
      hroom.congr rfl rfl
    obtain ⟨after, hflushed⟩ := @Drains.flush session _ _ _ hnoted state 0 true
    obtain ⟨_, hrestarted⟩ := @Drains.flush session _ _ _ hnoted.restart state 0 true
    have hlast := hrestarted.moves.hasTrack hroomTrack
    generalize overviewFlush session state (roomy.note (.queued (request.pending session.salt))) 0
      true = flushed at *
    -- the event that does not fit is written at once
    have hwritten (event : ProtoBuffer) : TrailMoves flushed.toTrail []
        (nativePacketWrite flushed.toTrail request.detail.ts request.threadUuid event) :=
      Moves.single (.packet request.detail.ts request.threadUuid event hlast)
    exact ⟨after, hflushed.holds, fun pending hpending =>
      (hwritten _).hasTrack (hflushed.tracks pending hpending),
      hflushed.moves.then_silent (hwritten _)⟩

/-- `native_packet_overview_observe`. -/
theorem Drains.observe (detail : DetailEvent) :
    ∃ remaining, Drains start (overviewObserve session state overview detail) remaining := by
  have hnote {overview : Overview} {waiting : List PendingPacket}
      (h : Drains start overview waiting) : Drains start (overview.noteSocket detail) waiting := by
    unfold Overview.noteSocket
    split
    · exact h.congr rfl rfl
    · exact h
  have hexpire (slot : Nat) {overview : Overview} {waiting : List PendingPacket}
      (h : Drains start overview waiting) :
      ∃ remaining, Drains start (expireSlot session state overview slot detail.ts) remaining := by
    unfold expireSlot
    dsimp only
    split
    case isFalse => exact ⟨waiting, h⟩
    case isTrue =>
      obtain ⟨remaining, hflushed⟩ := @Drains.flush session _ _ _ h state detail.ts false
      split
      · exact ⟨remaining, hflushed.congr rfl rfl⟩
      · exact ⟨remaining, hflushed⟩
  have harrived : Drains start (overview.note (.arrived detail)) waiting := h.congr rfl rfl
  have hslot : ∃ remaining, Drains start
      (observeSlot session state (overview.note (.arrived detail)) detail) remaining := by
    unfold observeSlot
    dsimp only
    split
    case isTrue => exact ⟨waiting, hnote harrived⟩
    case isFalse =>
      obtain ⟨remaining, hexpired⟩ := hexpire (ownerSlot session.salt
        (packetId session.salt detail.ts detail.key detail.keyGeneration) detail.direction) harrived
      split
      case isTrue => exact ⟨remaining, hnote hexpired⟩
      case isFalse => exact ⟨remaining, (hnote hexpired).congr rfl rfl⟩
  obtain ⟨remaining, hobserved⟩ := hslot
  exact hobserved.flush state detail.ts false

end

end Anettrace.Native
