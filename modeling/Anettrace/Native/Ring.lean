import Anettrace.Library.LinkedQueue
import Mathlib.Algebra.Order.BigOperators.Group.List
import Mathlib.Algebra.Order.Ring.Nat
import Mathlib.Tactic.Common

/-!
# Ring retention

Model of how `src/perfetto_export.c` keeps the packets of a native trace. Without a window a packet
goes to the file at once. With one, packets without a timestamp are kept for the front of the file
and the others in a ring that loses its oldest packets, by time and by bytes. `ring_retention` says
what the file holds in the end, in whatever order the packets arrive.

A packet is any value `trace` with the `size` of the `Trace.packet` field it is framed in. Memory
and writes do not fail.
-/

namespace Anettrace.Native

open Library.LinkedQueue

variable {α : Type*}

def nativeRingMaxBytes : Nat := 64 * 1024 * 1024

/-- `struct native_packet`, less its link. -/
structure NativePacket (α : Type*) where
  timestampNs : Nat
  size : Nat
  data : α
  deriving DecidableEq, Repr

/-- `struct native_packet_queue`. -/
structure PacketQueue (α : Type*) where
  list : Linked (NativePacket α)
  bytes : Nat

def PacketQueue.append (queue : PacketQueue α) (packet : NativePacket α) : PacketQueue α where
  list := queue.list.append packet
  bytes := queue.bytes + packet.size

def PacketQueue.write (queue : PacketQueue α) : List α :=
  queue.list.values.map NativePacket.data

/-- The packets of a native trace: those in the file, and those a window holds back. -/
structure NativeFile (α : Type*) where
  written : List α
  persistentPackets : PacketQueue α
  ringPackets : PacketQueue α
  ringLatestNs : Nat
  ringCapacityTruncated : Bool

/-- The state after `perfetto_export_open`. -/
def NativeFile.empty : NativeFile α :=
  ⟨[], ⟨Linked.empty, 0⟩, ⟨Linked.empty, 0⟩, 0, false⟩

/-- The `cutoff` of `native_ring_evict` and `native_ring_prune_all`. -/
def ringCutoff (windowNs latestNs : Nat) : Nat :=
  if latestNs > windowNs then latestNs - windowNs else 0

/-- Whether `native_ring_evict` drops the packet at the head, for the bytes held and the mark of
truncation. -/
def evicts (cutoff : Nat) (held : Nat × Bool) (packet : NativePacket α) : Bool :=
  packet.timestampNs < cutoff || held.1 > nativeRingMaxBytes

/-- What `native_ring_evict` records when it drops a packet. -/
def evicted (held : Nat × Bool) (packet : NativePacket α) : Nat × Bool :=
  (held.1 - packet.size, if held.1 > nativeRingMaxBytes then true else held.2)

def NativeFile.ringEvict (windowNs : Nat) (file : NativeFile α) : NativeFile α :=
  let cutoff := ringCutoff windowNs file.ringLatestNs
  let (held, list) := Linked.popWhile (evicts cutoff) evicted file.ringPackets.list.fresh
    (file.ringPackets.bytes, file.ringCapacityTruncated) file.ringPackets.list
  { file with
    ringPackets := ⟨list, held.1⟩
    ringCapacityTruncated := held.2 }

def NativeFile.ringPruneAll (windowNs : Nat) (file : NativeFile α) : NativeFile α :=
  let cutoff := ringCutoff windowNs file.ringLatestNs
  let (bytes, list) := file.ringPackets.list.sweep (fun packet => !(packet.timestampNs < cutoff))
    (fun bytes packet => bytes - packet.size) file.ringPackets.bytes
  { file with ringPackets := ⟨list, bytes⟩ }

def NativeFile.writePacketAt (windowNs : Nat) (file : NativeFile α) (packet : NativePacket α) :
    NativeFile α :=
  if windowNs = 0 then { file with written := file.written ++ [packet.data] }
  else if packet.timestampNs ≠ 0 ∧ file.ringLatestNs > windowNs ∧
      packet.timestampNs < file.ringLatestNs - windowNs then file
  else if packet.timestampNs ≠ 0 then
    { file with
      ringPackets := file.ringPackets.append packet
      ringLatestNs :=
        if packet.timestampNs > file.ringLatestNs then packet.timestampNs
        else file.ringLatestNs }.ringEvict windowNs
  else { file with persistentPackets := file.persistentPackets.append packet }

/-- What `perfetto_export_close` does with the packets. -/
def NativeFile.close (windowNs : Nat) (file : NativeFile α) : NativeFile α :=
  if windowNs = 0 then file
  else
    let file := file.ringPruneAll windowNs
    { file with written := file.written ++ file.persistentPackets.write ++ file.ringPackets.write }

/-- The state after packets arrived one after the other. -/
def NativeFile.writeAll (windowNs : Nat) (arrivals : List (NativePacket α)) : NativeFile α :=
  arrivals.foldl (NativeFile.writePacketAt windowNs) NativeFile.empty

/-! ## What the file should hold -/

/-- The packets without a timestamp. -/
def untimestamped (arrivals : List (NativePacket α)) : List (NativePacket α) :=
  arrivals.filter fun packet => packet.timestampNs = 0

def timestamped (arrivals : List (NativePacket α)) : List (NativePacket α) :=
  arrivals.filter fun packet => packet.timestampNs ≠ 0

/-- The latest timestamp seen. -/
def latest (arrivals : List (NativePacket α)) : Nat :=
  (arrivals.map NativePacket.timestampNs).foldr max 0

def since (cutoff : Nat) (packets : List (NativePacket α)) : List (NativePacket α) :=
  packets.filter fun packet => cutoff ≤ packet.timestampNs

def sizes (packets : List (NativePacket α)) : Nat :=
  (packets.map NativePacket.size).sum

/-- A queue holds the given packets, and its counter their bytes. -/
structure PacketQueue.Retains (queue : PacketQueue α) (packets : List (NativePacket α)) : Prop where
  values : Holds queue.list packets
  bytes : queue.bytes = sizes packets

theorem PacketQueue.Retains.append {queue : PacketQueue α} {packets : List (NativePacket α)}
    (h : queue.Retains packets) (packet : NativePacket α) :
    (queue.append packet).Retains (packets ++ [packet]) := by
  refine ⟨h.values.append packet, ?_⟩
  show queue.bytes + packet.size = sizes (packets ++ [packet])
  rw [h.bytes]
  simp [sizes]

theorem PacketQueue.Retains.write {queue : PacketQueue α} {packets : List (NativePacket α)}
    (h : queue.Retains packets) : queue.write = packets.map NativePacket.data := by
  rw [PacketQueue.write, h.values.values]

theorem timestamped_concat (arrivals : List (NativePacket α)) {packet : NativePacket α}
    (h : packet.timestampNs ≠ 0) :
    timestamped (arrivals ++ [packet]) = timestamped arrivals ++ [packet] := by
  simp [timestamped, h]

theorem latest_concat (arrivals : List (NativePacket α)) (packet : NativePacket α) :
    latest (arrivals ++ [packet]) = max (latest arrivals) packet.timestampNs := by
  induction arrivals with
  | nil => simp [latest]
  | cons first rest ih =>
      have hcons : latest (first :: (rest ++ [packet])) =
          max first.timestampNs (latest (rest ++ [packet])) := rfl
      rw [List.cons_append, hcons, ih, ← max_assoc]
      rfl

theorem since_append (cutoff : Nat) (front back : List (NativePacket α)) :
    since cutoff (front ++ back) = since cutoff front ++ since cutoff back :=
  List.filter_append front back

theorem since_since {early late : Nat} (h : early ≤ late) (packets : List (NativePacket α)) :
    since late (since early packets) = since late packets := by
  rw [since, since, List.filter_filter]
  refine List.filter_congr fun packet _ => ?_
  by_cases hlate : late ≤ packet.timestampNs
  · simp [hlate, h.trans hlate]
  · simp [hlate]

theorem ringCutoff_mono (windowNs : Nat) {early late : Nat} (h : early ≤ late) :
    ringCutoff windowNs early ≤ ringCutoff windowNs late := by
  unfold ringCutoff
  split <;> split <;> omega

/-! ## The rules of one packet -/

/-- Eviction keeps the counter exact and within bounds, and without truncation it loses no packet of
the window. -/
theorem dropWhile_evicts (cutoff : Nat) (packets : List (NativePacket α)) (truncated : Bool) :
    let after := dropWhile (evicts cutoff) evicted (sizes packets, truncated) packets
    after.1.1 = sizes after.2 ∧ sizes after.2 ≤ nativeRingMaxBytes ∧
      (after.1.2 = false → truncated = false ∧ since cutoff after.2 = since cutoff packets) := by
  induction packets generalizing truncated with
  | nil => exact ⟨rfl, Nat.zero_le _, fun h => ⟨h, rfl⟩⟩
  | cons packet rest ih =>
      have hsizes : sizes (packet :: rest) - packet.size = sizes rest := by
        show packet.size + sizes rest - packet.size = sizes rest
        omega
      rw [dropWhile]
      split
      case isTrue htest =>
        have hstate : evicted (sizes (packet :: rest), truncated) packet =
            (sizes rest,
              if sizes (packet :: rest) > nativeRingMaxBytes then true else truncated) := by
          rw [evicted, hsizes]
        rw [hstate]
        obtain ⟨hbytes, hbound, hkept⟩ :=
          ih (if sizes (packet :: rest) > nativeRingMaxBytes then true else truncated)
        refine ⟨hbytes, hbound, fun hfalse => ?_⟩
        obtain ⟨hbefore, hsince⟩ := hkept hfalse
        -- Without truncation the packet was dropped for its age alone.
        split at hbefore
        case isTrue => cases hbefore
        case isFalse hfits =>
          have hold : packet.timestampNs < cutoff := by
            simpa [evicts, hfits] using htest
          refine ⟨hbefore, hsince.trans ?_⟩
          rw [since, since, List.filter_cons_of_neg]
          simpa using hold
      case isFalse htest =>
        have hfits : ¬ sizes (packet :: rest) > nativeRingMaxBytes := by
          intro hlarge
          simp [evicts, hlarge] at htest
        exact ⟨rfl, Nat.le_of_not_lt hfits, fun h => ⟨h, rfl⟩⟩

/-- A sweep keeps the counter exact. -/
theorem sweepList_sizes (keep : NativePacket α → Bool) (packets : List (NativePacket α)) :
    sweepList keep (fun bytes packet => bytes - packet.size) (sizes packets) packets =
      sizes (packets.filter keep) := by
  have hrelease (released : List (NativePacket α)) (total : Nat) :
      released.foldl (fun bytes packet => bytes - packet.size) (sizes released + total) =
        total := by
    induction released generalizing total with
    | nil => exact Nat.zero_add total
    | cons packet rest ih =>
        have hstep : sizes (packet :: rest) + total - packet.size = sizes rest + total := by
          show packet.size + sizes rest + total - packet.size = sizes rest + total
          omega
        rw [List.foldl_cons, hstep]
        exact ih total
  have hsplit : sizes packets =
      sizes (packets.filter fun packet => !keep packet) + sizes (packets.filter keep) := by
    induction packets with
    | nil => rfl
    | cons packet rest ih =>
        have hcons (front : NativePacket α) (back : List (NativePacket α)) :
            sizes (front :: back) = front.size + sizes back := rfl
        cases hkeep : keep packet with
        | true =>
            rw [List.filter_cons_of_pos hkeep, List.filter_cons_of_neg (by simp [hkeep]), hcons,
              hcons, ih]
            omega
        | false =>
            rw [List.filter_cons_of_pos (by simp [hkeep]),
              List.filter_cons_of_neg (by simp [hkeep]),
              hcons, hcons, ih]
            omega
  rw [sweepList, hsplit, hrelease]

/-- The packets in memory after some packets arrived. -/
structure Retention (windowNs : Nat) (arrivals : List (NativePacket α)) (file : NativeFile α)
    (kept : List (NativePacket α)) : Prop where
  written : file.written = []
  persistent : file.persistentPackets.Retains (untimestamped arrivals)
  ring : file.ringPackets.Retains kept
  bounded : sizes kept ≤ nativeRingMaxBytes
  arrived : kept.Sublist (timestamped arrivals)
  latest : file.ringLatestNs = latest arrivals
  complete : file.ringCapacityTruncated = false →
    since (ringCutoff windowNs (Native.latest arrivals)) kept =
      since (ringCutoff windowNs (Native.latest arrivals)) (timestamped arrivals)

section

variable {windowNs : Nat} {arrivals kept : List (NativePacket α)} {file : NativeFile α}
  (h : Retention windowNs arrivals file kept) {packet : NativePacket α}
include h

theorem Retention.persistent_packet (hpacket : packet.timestampNs = 0) :
    Retention windowNs (arrivals ++ [packet])
      { file with persistentPackets := file.persistentPackets.append packet } kept := by
  have hlatest : Native.latest (arrivals ++ [packet]) = Native.latest arrivals := by
    rw [latest_concat, hpacket, Nat.max_zero]
  have htimestamped : timestamped (arrivals ++ [packet]) = timestamped arrivals := by
    simp [timestamped, hpacket]
  have huntimestamped : untimestamped (arrivals ++ [packet]) =
      untimestamped arrivals ++ [packet] := by
    simp [untimestamped, hpacket]
  refine ⟨h.written, ?_, h.ring, h.bounded, ?_, h.latest.trans hlatest.symm, ?_⟩
  · rw [huntimestamped]
    exact h.persistent.append packet
  · rw [htimestamped]
    exact h.arrived
  · rw [htimestamped, hlatest]
    exact h.complete

theorem Retention.rejected (hpacket : packet.timestampNs ≠ 0)
    (hold : packet.timestampNs < ringCutoff windowNs (Native.latest arrivals)) :
    Retention windowNs (arrivals ++ [packet]) file kept := by
  have hlatest : Native.latest (arrivals ++ [packet]) = Native.latest arrivals := by
    rw [latest_concat, max_eq_left]
    unfold ringCutoff at hold
    split at hold <;> omega
  have huntimestamped : untimestamped (arrivals ++ [packet]) = untimestamped arrivals := by
    simp [untimestamped, hpacket]
  refine ⟨h.written, ?_, h.ring, h.bounded, ?_, h.latest.trans hlatest.symm, fun hfalse => ?_⟩
  · rw [huntimestamped]
    exact h.persistent
  · rw [timestamped_concat _ hpacket]
    exact h.arrived.trans (List.sublist_append_left _ _)
  · rw [timestamped_concat _ hpacket, hlatest, since_append, h.complete hfalse]
    simp [since, hold]

theorem Retention.accepted (hpacket : packet.timestampNs ≠ 0) :
    ∃ kept', Retention windowNs (arrivals ++ [packet])
      ({ file with
        ringPackets := file.ringPackets.append packet
        ringLatestNs :=
          if packet.timestampNs > file.ringLatestNs then packet.timestampNs
          else file.ringLatestNs }.ringEvict windowNs) kept' := by
  have hlatest : (if packet.timestampNs > file.ringLatestNs then packet.timestampNs
      else file.ringLatestNs) = Native.latest (arrivals ++ [packet]) := by
    rw [latest_concat, h.latest]
    split <;> omega
  have hring := h.ring.append packet
  have hmono : ringCutoff windowNs (Native.latest arrivals) ≤
      ringCutoff windowNs (Native.latest (arrivals ++ [packet])) := by
    refine ringCutoff_mono windowNs ?_
    rw [latest_concat]
    exact le_max_left _ _
  have huntimestamped : untimestamped (arrivals ++ [packet]) = untimestamped arrivals := by
    simp [untimestamped, hpacket]
  rw [hlatest]
  generalize hcutoff : ringCutoff windowNs (Native.latest (arrivals ++ [packet])) = cutoff at *
  obtain ⟨hstate, hvalues⟩ := @Holds.popWhile _ _ (evicts cutoff) evicted _
    ((file.ringPackets.append packet).bytes, file.ringCapacityTruncated) _ _ hring.values
    hring.values.length_le
  rw [hring.bytes] at hstate hvalues
  obtain ⟨hbytes, hbound, hkept⟩ :=
    dropWhile_evicts cutoff (kept ++ [packet]) file.ringCapacityTruncated
  have hfile : { file with
        ringPackets := file.ringPackets.append packet
        ringLatestNs := Native.latest (arrivals ++ [packet]) }.ringEvict windowNs =
      { file with
        ringPackets :=
          ⟨(Linked.popWhile (evicts cutoff) evicted (file.ringPackets.append packet).list.fresh
              (sizes (kept ++ [packet]), file.ringCapacityTruncated)
              (file.ringPackets.append packet).list).2,
            (dropWhile (evicts cutoff) evicted
              (sizes (kept ++ [packet]), file.ringCapacityTruncated) (kept ++ [packet])).1.1⟩
        ringLatestNs := Native.latest (arrivals ++ [packet])
        ringCapacityTruncated :=
          (dropWhile (evicts cutoff) evicted
            (sizes (kept ++ [packet]), file.ringCapacityTruncated) (kept ++ [packet])).1.2 } := by
    rw [← hstate, ← hring.bytes, ← hcutoff]
    rfl
  rw [hfile]
  refine ⟨_, h.written, ?_, ⟨hvalues, hbytes⟩, hbound, ?_, rfl, fun hfalse => ?_⟩
  · rw [huntimestamped]
    exact h.persistent
  · rw [timestamped_concat _ hpacket]
    exact (dropWhile_suffix _ _ _ _).sublist.trans (h.arrived.append_right [packet])
  · obtain ⟨hbefore, hsince⟩ := hkept hfalse
    have hcomplete := congrArg (since cutoff) (h.complete hbefore)
    rw [since_since hmono, since_since hmono] at hcomplete
    rw [hcutoff, hsince, timestamped_concat _ hpacket, since_append, since_append, hcomplete]

end

theorem Retention.step {windowNs : Nat} (hwindow : windowNs ≠ 0)
    {arrivals kept : List (NativePacket α)} {file : NativeFile α}
    (h : Retention windowNs arrivals file kept) (packet : NativePacket α) :
    ∃ kept', Retention windowNs (arrivals ++ [packet])
      (file.writePacketAt windowNs packet) kept' := by
  unfold NativeFile.writePacketAt
  rw [if_neg hwindow]
  split
  case isTrue hreject =>
    obtain ⟨hpacket, hlate, hold⟩ := hreject
    rw [h.latest] at hlate hold
    refine ⟨kept, h.rejected hpacket ?_⟩
    rw [ringCutoff, if_pos hlate]
    exact hold
  case isFalse =>
    split
    case isTrue hpacket => exact h.accepted hpacket
    case isFalse hpacket => exact ⟨kept, h.persistent_packet (not_not.mp hpacket)⟩

theorem retention_writeAll {windowNs : Nat} (hwindow : windowNs ≠ 0)
    (arrivals : List (NativePacket α)) :
    ∃ kept, Retention windowNs arrivals (NativeFile.writeAll windowNs arrivals) kept := by
  induction arrivals using List.reverseRecOn with
  | nil =>
      refine ⟨[], rfl, ⟨holds_empty, rfl⟩, ⟨holds_empty, rfl⟩, Nat.zero_le _, ?_, rfl, fun _ => rfl⟩
      exact List.Sublist.slnil
  | append_singleton arrivals packet ih =>
      obtain ⟨kept, hkept⟩ := ih
      rw [NativeFile.writeAll, List.foldl_append]
      exact hkept.step hwindow packet

/-! ## Closing the trace -/

/-- The tail of a queue is the node of the last of some packets, and no node follows it. -/
def PacketQueue.EndsWith (queue : PacketQueue α) (packets : List (NativePacket α)) : Prop :=
  (queue.list.tail.bind queue.list.cells).map Node.value = packets.getLast? ∧
    ∀ node ∈ queue.list.tail.bind queue.list.cells, node.next = none

theorem PacketQueue.Retains.endsWith {queue : PacketQueue α} {packets : List (NativePacket α)}
    (h : queue.Retains packets) : queue.EndsWith packets :=
  h.values.tail

theorem sizes_since_le (cutoff : Nat) (packets : List (NativePacket α)) :
    sizes (since cutoff packets) ≤ sizes packets :=
  (List.filter_sublist.map NativePacket.size).sum_le_sum fun _ _ => Nat.zero_le _

/-- Closing prunes the ring and writes both queues, the untimestamped packets first. -/
theorem Retention.close {windowNs : Nat} (hwindow : windowNs ≠ 0)
    {arrivals kept : List (NativePacket α)} {file : NativeFile α}
    (h : Retention windowNs arrivals file kept) :
    let remaining := since (ringCutoff windowNs (Native.latest arrivals)) kept
    (file.close windowNs).ringPackets.Retains remaining ∧
      (file.close windowNs).ringCapacityTruncated = file.ringCapacityTruncated ∧
      (file.close windowNs).written = (untimestamped arrivals ++ remaining).map
        NativePacket.data := by
  intro remaining
  have hkeep : (kept.filter fun packet =>
      !(packet.timestampNs < ringCutoff windowNs file.ringLatestNs)) = remaining := by
    refine List.filter_congr fun packet _ => ?_
    rw [h.latest, Bool.eq_iff_iff]
    simp
  have hpruned : (file.ringPruneAll windowNs).ringPackets.Retains remaining := by
    obtain ⟨hbytes, hvalues⟩ := @Holds.sweep _ _
      (fun packet => !(packet.timestampNs < ringCutoff windowNs file.ringLatestNs))
      (fun bytes packet => bytes - packet.size) file.ringPackets.bytes _ _ h.ring.values
    rw [hkeep] at hvalues
    refine ⟨hvalues, hbytes.trans ?_⟩
    rw [h.ring.bytes, sweepList_sizes, hkeep]
  rw [NativeFile.close, if_neg hwindow]
  refine ⟨hpruned, rfl, ?_⟩
  show file.written ++ file.persistentPackets.write ++
    (file.ringPruneAll windowNs).ringPackets.write = _
  rw [h.written, h.persistent.write, hpruned.write, List.nil_append, List.map_append]

/-- A ring trace holds the untimestamped packets and then the retained ones, both in the order they
arrived. Without truncation the retained ones are exactly those of the window, and a packet of the
window is lost only with the mark of truncation. The ring never holds too many bytes, and its
counter and its tail are exact, before and after the last pruning. -/
theorem ring_retention {windowNs : Nat} (hwindow : windowNs ≠ 0)
    (arrivals : List (NativePacket α)) :
    let opened := NativeFile.writeAll windowNs arrivals
    let closed := opened.close windowNs
    let window := since (ringCutoff windowNs (latest arrivals)) (timestamped arrivals)
    ∃ held retained : List (NativePacket α),
      opened.ringPackets.Retains held ∧ opened.ringPackets.EndsWith held ∧
      opened.ringPackets.bytes ≤ nativeRingMaxBytes ∧
      closed.ringPackets.Retains retained ∧ closed.ringPackets.EndsWith retained ∧
      closed.ringPackets.bytes ≤ nativeRingMaxBytes ∧
      closed.written = (untimestamped arrivals ++ retained).map NativePacket.data ∧
      retained.Sublist window ∧
      (closed.ringCapacityTruncated = false → retained = window) ∧
      (retained.length < window.length → closed.ringCapacityTruncated = true) := by
  intro opened closed window
  obtain ⟨held, hheld⟩ := retention_writeAll hwindow arrivals
  obtain ⟨hring, htruncated, hwritten⟩ := hheld.close hwindow
  have hcomplete (hfalse : closed.ringCapacityTruncated = false) :
      since (ringCutoff windowNs (latest arrivals)) held = window :=
    hheld.complete (htruncated.symm.trans hfalse)
  refine ⟨held, _, hheld.ring, hheld.ring.endsWith, ?_, hring, hring.endsWith, ?_, hwritten,
    hheld.arrived.filter _, hcomplete, fun hloss => ?_⟩
  · rw [hheld.ring.bytes]
    exact hheld.bounded
  · rw [hring.bytes]
    exact (sizes_since_le _ held).trans hheld.bounded
  · cases hcase : closed.ringCapacityTruncated with
    | true => rfl
    | false =>
        rw [hcomplete hcase] at hloss
        exact absurd hloss (Nat.lt_irrefl _)

/-- An old packet behind a newer head: it leaves only when the trace is closed. -/
theorem ring_retention_small :
    ((NativeFile.writeAll 5 [⟨0, 9, "descriptor"⟩, ⟨10, 9, "new"⟩, ⟨6, 9, "old"⟩, ⟨3, 9, "stale"⟩,
      ⟨12, 9, "last"⟩]).close 5).written = ["descriptor", "new", "last"] := by
  obtain ⟨_, retained, -, -, -, -, -, -, hwritten, -, hretained, -⟩ := ring_retention
    (show 5 ≠ 0 by decide) [⟨0, 9, "descriptor"⟩, ⟨10, 9, "new"⟩, ⟨6, 9, "old"⟩, ⟨3, 9, "stale"⟩,
      ⟨12, 9, "last"⟩]
  rw [hwritten, hretained (by decide +kernel)]
  rfl

end Anettrace.Native
