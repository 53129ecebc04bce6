import Anettrace.Capture.Model

/-!
# The native file of a capture

What `native_write_packet_at` and the close make of the packets of a capture: a plain trace holds
them all, and a ring trace those without a timestamp and then those that were retained. Each packet
keeps its place in the order of arrival, which tells equal packets apart.
-/

namespace Anettrace.Capture

open Anettrace.Native

theorem captureFile_plain {session : CaptureSession} (hplain : session.windowNs = 0)
    (out : List Packet) : (captureFile session out).written = out.zipIdx := by
  have hwritten (arrived : List (NativePacket (Packet × Nat))) (file : NativeFile (Packet × Nat)) :
      (arrived.foldl (NativeFile.writePacketAt 0) file).written =
        file.written ++ arrived.map NativePacket.data := by
    induction arrived generalizing file with
    | nil => simp
    | cons packet rest ih =>
        rw [List.foldl_cons, ih]
        simp [NativeFile.writePacketAt]
  unfold captureFile arrivals NativeFile.close NativeFile.writeAll
  rw [hplain, show (0 : UInt64).toNat = 0 from rfl, if_pos rfl, hwritten, List.map_map]
  exact List.map_id _

theorem captureFile_plain_packets {session : CaptureSession} (hplain : session.windowNs = 0)
    (out : List Packet) : (captureFile session out).written.map Prod.fst = out := by
  rw [captureFile_plain hplain]
  exact List.zipIdx_map_fst 0 out

/-- A packet without a timestamp. -/
def isUntimed (packet : Packet) : Bool :=
  packet.timestampNs = 0

/-- The cutoff that a ring trace is pruned with when it is closed. -/
def finalCutoff (session : CaptureSession) (out : List Packet) : Nat :=
  ringCutoff session.windowNs.toNat (latest (arrivals session out))

def inWindow (cutoff : Nat) (packet : Packet) : Bool :=
  packet.timestampNs ≠ 0 ∧ cutoff ≤ packet.timestampNs.toNat

/-- A timestamp is read as a number. -/
theorem toNat_eq_zero (ts : UInt64) : ts.toNat = 0 ↔ ts = 0 :=
  @UInt64.toNat_inj ts 0

theorem arrivals_filter (session : CaptureSession) (out : List Packet)
    {keep : NativePacket (Packet × Nat) → Bool} {test : Packet → Bool}
    (h : ∀ packet, keep (arrival session packet) = test packet.1) :
    ((arrivals session out).filter keep).map NativePacket.data =
      out.zipIdx.filter fun packet => test packet.1 := by
  unfold arrivals
  rw [List.filter_map, List.map_map]
  refine (List.map_id _).trans (List.filter_congr fun packet _ => ?_)
  exact h packet

/-- A ring trace: the packets without a timestamp, and then those retained. -/
theorem captureFile_ring {session : CaptureSession} (hring : session.windowNs ≠ 0)
    (out : List Packet) :
    ∃ retained, (captureFile session out).written =
        (out.zipIdx.filter fun packet => isUntimed packet.1) ++ retained ∧
      retained.Sublist
        (out.zipIdx.filter fun packet => inWindow (finalCutoff session out) packet.1) ∧
      ((captureFile session out).ringCapacityTruncated = false →
        retained = out.zipIdx.filter fun packet =>
          inWindow (finalCutoff session out) packet.1) := by
  have hwindow : session.windowNs.toNat ≠ 0 := fun h => hring (UInt64.toNat_inj.mp h)
  obtain ⟨kept, hkept⟩ := retention_writeAll hwindow (arrivals session out)
  obtain ⟨-, htruncated, hwritten⟩ := hkept.close hwindow
  have huntimed : (untimestamped (arrivals session out)).map NativePacket.data =
      out.zipIdx.filter fun packet => isUntimed packet.1 := by
    refine @arrivals_filter session out (fun packet => decide (packet.timestampNs = 0)) isUntimed ?_
    intro packet
    exact decide_eq_decide.mpr (toNat_eq_zero packet.1.timestampNs)
  have hsince : (since (finalCutoff session out) (timestamped (arrivals session out))).map
      NativePacket.data =
      out.zipIdx.filter fun packet => inWindow (finalCutoff session out) packet.1 := by
    unfold since timestamped
    rw [List.filter_filter]
    refine @arrivals_filter session out (fun packet =>
      decide (finalCutoff session out ≤ packet.timestampNs) && decide (packet.timestampNs ≠ 0))
      (inWindow (finalCutoff session out)) ?_
    intro packet
    rw [inWindow, Bool.and_comm, ← Bool.decide_and]
    exact decide_eq_decide.mpr
      (and_congr (not_congr (toNat_eq_zero packet.1.timestampNs)) Iff.rfl)
  refine ⟨(since (finalCutoff session out) kept).map NativePacket.data, ?_, ?_, fun hcomplete => ?_⟩
  · rw [← huntimed, ← List.map_append]
    exact hwritten
  · rw [← hsince]
    exact (hkept.arrived.filter _).map _
  · rw [← hsince]
    exact congrArg _ (hkept.complete (htruncated.symm.trans hcomplete))

/-- What a trace keeps of its packets in either mode: all of those without a timestamp, at the front
when the trace is a ring. -/
theorem captureFile_packets (session : CaptureSession) (out : List Packet) :
    let file := (captureFile session out).written.map Prod.fst
    (session.windowNs = 0 ∧ file = out) ∨
      ∃ retained, file = out.filter isUntimed ++ retained ∧ retained.Sublist out ∧
        ∀ packet ∈ retained, isUntimed packet = false := by
  intro file
  by_cases hplain : session.windowNs = 0
  · exact Or.inl ⟨hplain, captureFile_plain_packets hplain out⟩
  · obtain ⟨retained, hwritten, hsublist, -⟩ := captureFile_ring hplain out
    have hfront : (out.zipIdx.filter fun packet => isUntimed packet.1).map Prod.fst =
        out.filter isUntimed := by
      have hmap : (out.zipIdx.map Prod.fst).filter isUntimed = _ := List.filter_map
      rw [List.zipIdx_map_fst] at hmap
      exact hmap.symm
    refine Or.inr ⟨retained.map Prod.fst, ?_, ?_, fun packet hpacket => ?_⟩
    · show ((captureFile session out).written).map _ = _
      rw [hwritten, List.map_append, hfront]
    · have hall := (hsublist.trans List.filter_sublist).map Prod.fst
      rwa [List.zipIdx_map_fst] at hall
    · obtain ⟨found, hfound, rfl⟩ := List.mem_map.mp hpacket
      have htimed := (List.mem_filter.mp (hsublist.subset hfound)).2
      simp [inWindow] at htimed
      simp [isUntimed, htimed.1]

end Anettrace.Capture
