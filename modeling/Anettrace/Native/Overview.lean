import Anettrace.Export.Flow
import Anettrace.Library.LinkedQueue
import Anettrace.Native.Track

/-!
# The packet overview

Model of the packet overview of `src/perfetto_export.c`. The native events of network packets wait
in arrival order, so that later stages can tell which socket a packet belongs to, and leave by time
or under pressure. An event whose socket is known is mirrored on a track of that socket. What was
observed about a packet lies in a directly mapped table of owners.
-/

namespace Anettrace.Native

open Anettrace.Export Library.LinkedQueue ProtoBuffer

def overviewWindowNs : UInt64 := 1000000000

def overviewMaxEvents : Nat := 4096

def overviewMaxBytes : Nat := 8 * 1024 * 1024

def overviewPacketSlots : Nat := 8192

/-- `struct native_packet_overview`, less its link. The annotations lie inside the event. -/
structure PendingPacket where
  event : ProtoBuffer
  annotationOffset : Nat
  annotationSize : Nat
  timestampNs : UInt64
  packetId : UInt64
  flowId : UInt64
  socketId : UInt64
  sourceTrackUuid : UInt64
  sourceTid : UInt32
  sourceTgid : UInt32
  ownerTgid : UInt32
  direction : Direction
  localPort : UInt16
  localAddr : Address
  name : List UInt8
  within : annotationOffset + annotationSize ≤ event.data.length
  deriving DecidableEq

/-- `struct native_packet_owner`. -/
structure PacketOwner where
  packetId : UInt64
  socketId : UInt64
  timestampNs : UInt64
  ownerTgid : UInt32
  direction : Direction
  ambiguous : Bool
  collided : Bool
  deriving DecidableEq, Repr, Inhabited

def PacketOwner.zero : PacketOwner :=
  ⟨0, 0, 0, 0, .unknown, false, false⟩

/-- What became of a queued event when it was written: mirrored on a track of a socket, counted as
ambiguous or unresolved, or, in tags mode, neither. -/
inductive Outcome where
  | mirrored (socketId : UInt64)
  | ambiguous
  | unresolved
  | uncounted
  deriving DecidableEq, Repr

/-- An entry of the history of the overview. -/
inductive Note where
  /-- A record reached `native_packet_overview_observe`. -/
  | arrived (detail : DetailEvent)
  /-- The record names a socket, which was observed. -/
  | observed (detail : DetailEvent)
  | queued (pending : PendingPacket)
  | flushed (pending : PendingPacket) (outcome : Outcome)
  deriving DecidableEq

/-- The static variables of the overview, with those of the native trace. `log` is no variable of
the source: it keeps the history that statements about runs refer to. -/
structure Overview extends Trail where
  queue : Linked PendingPacket
  count : Nat
  bytes : Nat
  owners : Nat → PacketOwner
  latestNs : UInt64
  navigationSerial : UInt64
  emitted : UInt64
  unresolved : UInt64
  ambiguous : UInt64
  capacityFlushes : UInt64
  log : List Note

/-- The overview after the export is opened. -/
def Overview.init : Overview where
  toTrail := Trail.init
  queue := Linked.empty
  count := 0
  bytes := 0
  owners := fun _ => PacketOwner.zero
  latestNs := 0
  navigationSerial := 0
  emitted := 0
  unresolved := 0
  ambiguous := 0
  capacityFlushes := 0
  log := []

/-- Add to the history. -/
def Overview.note (overview : Overview) (note : Note) : Overview :=
  { overview with log := overview.log ++ [note] }

def ownerSlot (salt packetId : UInt64) (direction : Direction) : Nat :=
  (nativeUuid salt "packet-owner" packetId (directionCode direction)).toNat % overviewPacketSlots

/-- The slot of a queued event. -/
def PendingPacket.slot (salt : UInt64) (pending : PendingPacket) : Nat :=
  ownerSlot salt pending.packetId pending.direction

/-! ## Flushing -/

/-- The slot is about the given packet. -/
def PacketOwner.isOf (owner : PacketOwner) (packetId : UInt64) (direction : Direction) : Bool :=
  owner.packetId = packetId && owner.direction = direction

/-- `evidence_unavailable` in `native_packet_overview_flush_one`. -/
def PendingPacket.evidenceUnavailable (pending : PendingPacket) (owner : PacketOwner) : Bool :=
  owner.packetId ≠ 0 && (owner.collided || !owner.isOf pending.packetId pending.direction)

/-- The socket that `native_packet_overview_flush_one` settles on, its process, and whether it found
several. -/
structure Resolution where
  socketId : UInt64
  ownerTgid : UInt32
  ambiguous : Bool
  deriving DecidableEq, Repr

/-- The first test of `native_packet_overview_flush_one`: the slot is about the packet, and was
observed within the window. -/
def PendingPacket.observedBy (pending : PendingPacket) (owner : PacketOwner) : Bool :=
  pending.socketId = 0 && owner.isOf pending.packetId pending.direction &&
    owner.timestampNs ≤ pending.timestampNs + overviewWindowNs &&
    pending.timestampNs ≤ owner.timestampNs + overviewWindowNs

def PendingPacket.resolveOwner (pending : PendingPacket) (owner : PacketOwner) : Resolution :=
  if pending.observedBy owner then
    if owner.ambiguous then ⟨pending.socketId, pending.ownerTgid, true⟩
    else if !pending.evidenceUnavailable owner then ⟨owner.socketId, owner.ownerTgid, false⟩
    else ⟨pending.socketId, pending.ownerTgid, false⟩
  else ⟨pending.socketId, pending.ownerTgid, false⟩

/-- A flow whose local endpoint agrees with the observed direction of the packet. -/
def PendingPacket.localTo (pending : PendingPacket) (flow : FlowState) : Bool :=
  pending.direction ≠ .unknown && pending.localPort = flow.localPort &&
    pending.localAddr = flow.localAddr

/-- The resolution of `native_packet_overview_flush_one`: by the slot, and otherwise by the flow. A
bidirectional tuple may also connect two local sockets. -/
def PendingPacket.resolve (pending : PendingPacket) (owner : PacketOwner)
    (flow : Option FlowState) : Resolution :=
  let resolution := pending.resolveOwner owner
  match flow with
  | none => resolution
  | some flow =>
      if resolution.socketId = 0 ∧ !resolution.ambiguous ∧ !pending.evidenceUnavailable owner ∧
          pending.localTo flow then
        if flow.socketAmbiguous then { resolution with ambiguous := true }
        else ⟨flow.socketId, if flow.ownerValid then flow.ownerTgid else 0, false⟩
      else resolution

/-- The event that `native_packet_overview_flush_one` writes when it mirrors a packet. -/
def navigated (traceTags : Bool) (event : ProtoBuffer) (navigationId : UInt64) : ProtoBuffer :=
  (nativeEventFlow traceTags event navigationId false).nativeAnnotationId "navigation_id"
    navigationId

/-- The fields of a mirror before the copied annotations. -/
def mirrorStart (traceTags : Bool) (lane navigationId : UInt64) (pending : PendingPacket) :
    ProtoBuffer :=
  nativeEventFlow traceTags
    (nativeEventStart ProtoBuffer.empty EventType.instant.code lane pending.name
      (text "anettrace.socket.packet"))
    navigationId true

/-- The fields of a mirror after the copied annotations. -/
def mirrorFields (socketId navigationId : UInt64) (pending : PendingPacket) (mirror : ProtoBuffer) :
    ProtoBuffer :=
  let mirror := mirror.nativeAnnotationId "socket_id" socketId
  let mirror := mirror.nativeAnnotationId "navigation_id" navigationId
  let mirror := mirror.nativeAnnotationUint "source_tid" pending.sourceTid.toUInt64
  let mirror := mirror.nativeAnnotationUint "source_tgid" pending.sourceTgid.toUInt64
  let mirror := mirror.nativeAnnotationUint "source_ts_ns" pending.timestampNs
  mirror.nativeAnnotationId "source_track_uuid" pending.sourceTrackUuid

def slice (event : ProtoBuffer) (offset size : Nat) : List UInt8 :=
  (event.data.drop offset).take size

def Resolution.outcome (session : Session) (found : Resolution) : Outcome :=
  if session.traceTags then .uncounted
  else if found.socketId ≠ 0 then .mirrored found.socketId
  else if found.ambiguous then .ambiguous
  else .unresolved

/-- `native_packet_overview_flush_one` on the event at the head: what it writes and counts. -/
def emitPending (session : Session) (state : State) (overview : Overview)
    (pending : PendingPacket) : Overview :=
  let owner := overview.owners (pending.slot session.salt)
  let found := pending.resolve owner (flowFindAny state pending.flowId)
  let event :=
    if session.traceTags ∧ pending.socketId = 0 then
      pending.event.nativeAnnotationId "socket_id" found.socketId
    else pending.event
  let overview := overview.note (.flushed pending (found.outcome session))
  if found.socketId ≠ 0 ∧ !session.traceTags then
    let (trail, _) := nativeSocketPacketTrack session.salt overview.toTrail found.socketId
      found.ownerTgid pending.direction
    let lane := socketPacketsUuid session.salt found.socketId pending.direction
    let serial := overview.navigationSerial + 1
    let navigationId := nativeUuid session.salt "packet-navigation" serial 0
    let event := navigated session.traceTags event navigationId
    let mirror := (mirrorStart session.traceTags lane navigationId pending).protoBytes
      (slice event pending.annotationOffset pending.annotationSize)
    let mirror := mirrorFields found.socketId navigationId pending mirror
    -- Each mirror follows its original at the same timestamp.
    let trail := nativePacketWrite trail pending.timestampNs pending.sourceTrackUuid event
    { overview with
      toTrail := nativePacketWrite trail pending.timestampNs lane mirror
      navigationSerial := serial
      emitted := overview.emitted + 1 }
  else
    let trail :=
      nativePacketWrite overview.toTrail pending.timestampNs pending.sourceTrackUuid event
    if !session.traceTags ∧ found.ambiguous then
      { overview with toTrail := trail, ambiguous := overview.ambiguous + 1 }
    else if !session.traceTags then
      { overview with toTrail := trail, unresolved := overview.unresolved + 1 }
    else { overview with toTrail := trail }

def flushOne (session : Session) (state : State) (overview : Overview) : Overview :=
  match overview.queue.first with
  | none => overview
  | some (_, node) =>
      let overview := { overview with bytes := overview.bytes - node.value.event.capacity }
      let overview := emitPending session state overview node.value
      { overview with queue := overview.queue.pop, count := overview.count - 1 }

/-- The test of the loop of `native_packet_overview_flush` on the event at the head. -/
def due (latestNs : UInt64) (all : Bool) (pending : PendingPacket) : Bool :=
  all || (overviewWindowNs ≤ latestNs && pending.timestampNs ≤ latestNs - overviewWindowNs)

/-- The loop of `native_packet_overview_flush`; every turn takes an event off the queue. -/
def flushWhile (session : Session) (state : State) (all : Bool) : Nat → Overview → Overview
  | 0, overview => overview
  | fuel + 1, overview =>
      match overview.queue.first with
      | none => overview
      | some (_, node) =>
          if due overview.latestNs all node.value then
            flushWhile session state all fuel (flushOne session state overview)
          else overview

def overviewFlush (session : Session) (state : State) (overview : Overview) (timestampNs : UInt64)
    (all : Bool) : Overview :=
  let overview :=
    if timestampNs > overview.latestNs then { overview with latestNs := timestampNs } else overview
  flushWhile session state all overview.queue.fresh overview

/-! ## Observing -/

def slotPending (salt : UInt64) (overview : Overview) (slot : Nat) : Bool :=
  overview.queue.values.any fun pending => pending.slot salt = slot

def Overview.setOwner (overview : Overview) (slot : Nat) (owner : PacketOwner) : Overview :=
  { overview with owners := Function.update overview.owners slot owner }

/-- `if (detail->pkt.ts > owner->timestamp_ns) owner->timestamp_ns = detail->pkt.ts`. -/
def PacketOwner.reach (owner : PacketOwner) (ts : UInt64) : PacketOwner :=
  if ts > owner.timestampNs then { owner with timestampNs := ts } else owner

/-- What `native_packet_overview_observe` makes of a slot when the record names a socket. -/
def PacketOwner.observe (owner : PacketOwner) (id socketId : UInt64) (detail : DetailEvent) :
    PacketOwner :=
  -- Do not evict live conflict evidence. A collision may omit an optional overview, but must never
  -- turn ambiguity into a guess.
  if !owner.isOf id detail.direction ∧ owner.packetId ≠ 0 then
    { owner with collided := true }.reach detail.ts
  else
    let owner :=
      if !owner.isOf id detail.direction then
        { PacketOwner.zero with
          packetId := id, socketId := socketId, direction := detail.direction }
      else if owner.socketId ≠ socketId then { owner with ambiguous := true }
      else owner
    let owner := owner.reach detail.ts
    if detail.ownerValid ≠ 0 then { owner with ownerTgid := detail.ownerTgid } else owner

/-- The part of `native_packet_overview_observe` that forgets an old slot. A newer head can hold an
older event behind it, so any slot still referenced is kept. -/
def expireSlot (session : Session) (state : State) (overview : Overview) (slot : Nat)
    (ts : UInt64) : Overview :=
  let owner := overview.owners slot
  if owner.packetId ≠ 0 ∧ ts > owner.timestampNs + overviewWindowNs then
    let overview := overviewFlush session state overview ts false
    if !slotPending session.salt overview slot then overview.setOwner slot PacketOwner.zero
    else overview
  else overview

/-- The history of a record that names a socket. -/
def Overview.noteSocket (overview : Overview) (detail : DetailEvent) : Overview :=
  if detail.ownerSocketKey ≠ 0 then overview.note (.observed detail) else overview

/-- `native_packet_overview_observe` up to its label `flush`. -/
def observeSlot (session : Session) (state : State) (overview : Overview)
    (detail : DetailEvent) : Overview :=
  if detail.keyGeneration = 0 then overview.noteSocket detail
  else
    let id := packetId session.salt detail.ts detail.key detail.keyGeneration
    let slot := ownerSlot session.salt id detail.direction
    let overview := (expireSlot session state overview slot detail.ts).noteSocket detail
    if detail.ownerSocketKey = 0 then overview
    else
      overview.setOwner slot
        ((overview.owners slot).observe id (ownerSocketId session.salt detail) detail)

def overviewObserve (session : Session) (state : State) (overview : Overview)
    (detail : DetailEvent) : Overview :=
  overviewFlush session state
    (observeSlot session state (overview.note (.arrived detail)) detail) detail.ts false

/-! ## Queueing -/

/-- The arguments of `native_packet_overview_queue`. -/
structure QueueRequest where
  detail : DetailEvent
  flowId : UInt64
  threadUuid : UInt64
  name : List UInt8
  event : ProtoBuffer
  annotationOffset : Nat
  annotationSize : Nat
  within : annotationOffset + annotationSize ≤ event.data.length

/-- The entry that `native_packet_overview_queue` fills. -/
def QueueRequest.pending (salt : UInt64) (request : QueueRequest) : PendingPacket :=
  let detail := request.detail
  let (source, dest) := packetAddresses detail.pkt
  { event := request.event
    annotationOffset := request.annotationOffset
    annotationSize := request.annotationSize
    timestampNs := detail.ts
    packetId := packetId salt detail.ts detail.key detail.keyGeneration
    flowId := request.flowId
    socketId := ownerSocketId salt detail
    ownerTgid := if detail.ownerValid ≠ 0 then detail.ownerTgid else 0
    sourceTrackUuid := request.threadUuid
    sourceTid := detail.tid
    sourceTgid := detail.tgid
    direction := detail.direction
    localAddr := if detail.direction = .rx then dest else source
    localPort := ntohs (if detail.direction = .rx then detail.pkt.dport else detail.pkt.sport)
    name := request.name.take 127
    within := request.within }

/-- The test of the loop of `native_packet_overview_queue`. -/
def crowded (overview : Overview) (capacity : Nat) : Bool :=
  overviewMaxEvents ≤ overview.count || overview.bytes + capacity > overviewMaxBytes

/-- The loop of `native_packet_overview_queue`; every turn takes an event off the queue. -/
def makeRoom (session : Session) (state : State) (capacity : Nat) : Nat → Overview → Overview
  | 0, overview => overview
  | fuel + 1, overview =>
      if overview.queue.first.isSome ∧ crowded overview capacity then
        makeRoom session state capacity fuel
          (flushOne session state { overview with capacityFlushes := overview.capacityFlushes + 1 })
      else overview

def overviewQueue (session : Session) (state : State) (overview : Overview)
    (request : QueueRequest) : Overview :=
  let capacity := request.event.capacity
  let pending := request.pending session.salt
  let overview := makeRoom session state capacity overview.queue.fresh overview
  if capacity ≤ overviewMaxBytes then
    let overview :=
      { overview.note (.queued pending) with
        queue := overview.queue.append pending
        count := overview.count + 1
        bytes := overview.bytes + capacity }
    overviewFlush session state overview overview.latestNs false
  else
    -- Preserve original packet evidence if the optional view cannot fit.
    let overview := overviewFlush session state (overview.note (.queued pending)) 0 true
    let event :=
      if session.traceTags ∧ request.detail.ownerSocketKey = 0 then
        request.event.nativeAnnotationId "socket_id" 0
      else request.event
    { overview.note (.flushed pending .unresolved) with
      toTrail := nativePacketWrite overview.toTrail request.detail.ts request.threadUuid event
      unresolved := overview.unresolved + 1 }

/-! ## The loops -/

variable {Inv : Overview → List PendingPacket → Prop}

/-- What one flushed event preserves, the loop of a flush preserves; a full flush empties the
queue. -/
theorem flushWhile_rule (session : Session) (state : State) (all : Bool)
    (hqueue : ∀ {overview waiting}, Inv overview waiting → Holds overview.queue waiting)
    (hflush : ∀ {overview pending waiting}, Inv overview (pending :: waiting) →
      Inv (flushOne session state overview) waiting) {fuel : Nat} {overview : Overview}
    {waiting : List PendingPacket} (h : Inv overview waiting) (hfuel : waiting.length ≤ fuel) :
    ∃ remaining, Inv (flushWhile session state all fuel overview) remaining ∧
      (all = true → remaining = []) := by
  induction fuel generalizing overview waiting with
  | zero =>
      obtain rfl := List.length_eq_zero_iff.mp (Nat.le_zero.mp hfuel)
      exact ⟨[], h, fun _ => rfl⟩
  | succ fuel ih =>
      unfold flushWhile
      cases waiting with
      | nil =>
          rw [(hqueue h).first_nil]
          exact ⟨[], h, fun _ => rfl⟩
      | cons pending rest =>
          obtain ⟨place, node, hfirst, -⟩ := (hqueue h).first_cons
          rw [hfirst]
          dsimp only
          split
          case isTrue => exact ih (hflush h) (Nat.le_of_succ_le_succ hfuel)
          case isFalse hlater =>
            refine ⟨pending :: rest, h, fun hall => ?_⟩
            simp [due, hall] at hlater

/-- What one flushed event and the time of the last event preserve, a flush preserves. -/
theorem overviewFlush_rule (session : Session) (state : State) (ts : UInt64) (all : Bool)
    (hqueue : ∀ {overview waiting}, Inv overview waiting → Holds overview.queue waiting)
    (hlatest : ∀ {overview waiting}, Inv overview waiting →
      Inv { overview with latestNs := ts } waiting)
    (hflush : ∀ {overview pending waiting}, Inv overview (pending :: waiting) →
      Inv (flushOne session state overview) waiting)
    {overview : Overview} {waiting : List PendingPacket} (h : Inv overview waiting) :
    ∃ remaining, Inv (overviewFlush session state overview ts all) remaining ∧
      (all = true → remaining = []) := by
  unfold overviewFlush
  dsimp only
  split
  · exact flushWhile_rule session state all hqueue hflush (hlatest h)
      (hqueue (hlatest h)).length_le
  · exact flushWhile_rule session state all hqueue hflush h (hqueue h).length_le

/-- What one flushed event and the count of capacity flushes preserve, making room preserves. It
ends with an empty queue or with enough room. -/
theorem makeRoom_rule (session : Session) (state : State) (capacity : Nat)
    (hqueue : ∀ {overview waiting}, Inv overview waiting → Holds overview.queue waiting)
    (hcount : ∀ {overview waiting}, Inv overview waiting →
      Inv { overview with capacityFlushes := overview.capacityFlushes + 1 } waiting)
    (hflush : ∀ {overview pending waiting}, Inv overview (pending :: waiting) →
      Inv (flushOne session state overview) waiting) {fuel : Nat} {overview : Overview}
    {waiting : List PendingPacket} (h : Inv overview waiting) (hfuel : waiting.length ≤ fuel) :
    ∃ remaining, Inv (makeRoom session state capacity fuel overview) remaining ∧
      (remaining = [] ∨
        crowded (makeRoom session state capacity fuel overview) capacity = false) := by
  induction fuel generalizing overview waiting with
  | zero =>
      obtain rfl := List.length_eq_zero_iff.mp (Nat.le_zero.mp hfuel)
      exact ⟨[], h, Or.inl rfl⟩
  | succ fuel ih =>
      unfold makeRoom
      split
      case isFalse hdone =>
        refine ⟨waiting, h, ?_⟩
        cases waiting with
        | nil => exact Or.inl rfl
        | cons pending rest =>
            obtain ⟨place, node, hfirst, -⟩ := (hqueue h).first_cons
            rw [hfirst] at hdone
            exact Or.inr (by simpa using hdone)
      case isTrue hcrowded =>
        cases waiting with
        | nil =>
            rw [(hqueue h).first_nil] at hcrowded
            cases hcrowded.1
        | cons pending rest => exact ih (hflush (hcount h)) (Nat.le_of_succ_le_succ hfuel)

end Anettrace.Native
