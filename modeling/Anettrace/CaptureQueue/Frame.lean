import Anettrace.CaptureQueue.Model

/-!
# Frames in the ring

A push occupies one frame: its record and its data. `push_accepted` says that an accepted push
appends its frame to the ring, and `dequeue_frame` that the worker takes the first frame off and
reads the push back, wherever the ring ends.
-/

namespace Anettrace.CaptureQueue

open Library

/-! ## Records in memory -/

@[simp] theorem QueueRecord.bytes_length (record : QueueRecord) :
    record.bytes.length = recordSize := by
  simp [QueueRecord.bytes, recordSize]

theorem QueueRecord.ofBytes_bytes (record : QueueRecord) :
    QueueRecord.ofBytes record.bytes = record := by
  have hsize : record.bytes.take 4 = littleEndian 4 record.size.toNat := by
    rw [QueueRecord.bytes, List.append_assoc]
    exact List.take_left' (littleEndian_length 4 _)
  have hcpu : (record.bytes.drop 4).take 4 = littleEndian 4 record.cpu.toUInt32.toNat := by
    rw [QueueRecord.bytes, List.append_assoc, List.drop_left' (littleEndian_length 4 _)]
    exact List.take_left' (littleEndian_length 4 _)
  have hlost : record.bytes.drop 8 = littleEndian 8 record.lost.toNat := by
    rw [QueueRecord.bytes]
    exact List.drop_left' (by simp)
  have hsizeLt := record.size.toNat_lt
  have hcpuLt := record.cpu.toUInt32.toNat_lt
  have hlostLt := record.lost.toNat_lt
  unfold QueueRecord.ofBytes
  rw [hsize, hcpu, hlost, ofLittleEndian_littleEndian, ofLittleEndian_littleEndian,
    ofLittleEndian_littleEndian, Nat.mod_eq_of_lt (by omega), Nat.mod_eq_of_lt (by omega),
    Nat.mod_eq_of_lt (by omega)]
  simp

/-! ## Pushes -/

theorem Push.size_eq (push : Push) : push.record.size.toNat = push.data.length := by
  cases push with
  | event cpu sample =>
      show (UInt32.ofNat sample.bytes.length).toNat = sample.bytes.length
      rw [UInt32.toNat_ofNat']
      exact Nat.mod_eq_of_lt sample.fits
  | lost cpu count => rfl

/-- The call of the exporter that delivers a push. -/
def Push.exported : Push → Export
  | .event cpu sample => .event cpu sample.bytes
  | .lost cpu count => .lost cpu count

/-- A push the producer can make: `capture_queue_lost` ignores a zero count. -/
def Push.Proper : Push → Prop
  | .event .. => True
  | .lost _ count => count ≠ 0

theorem Push.exportRecord_eq {push : Push} (h : push.Proper) :
    exportRecord push.record push.data = push.exported := by
  cases push with
  | event cpu sample => rfl
  | lost cpu count => exact if_pos h

theorem Action.push_proper {action : Action} {push : Push} (h : action.push = some push) :
    push.Proper := by
  cases action with
  | event cpu sample =>
      cases h
      trivial
  | lost cpu count =>
      simp only [Action.push] at h
      split at h
      · cases h
        assumption
      · cases h
  | tick => cases h
  | stop => cases h
  | join => cases h
  | work => cases h

/-- The bytes a push occupies in the ring. -/
def Push.frame (push : Push) : List UInt8 :=
  push.record.bytes ++ push.data

theorem Push.frame_length (push : Push) : push.frame.length = recordSize + push.data.length := by
  rw [Push.frame, List.length_append, QueueRecord.bytes_length]

/-! ## The ring under a push -/

variable {ring : Library.Ring UInt8}

theorem write_frame {push : Push} (h : ring.Valid)
    (hfits : ring.used + push.frame.length ≤ ring.capacity) :
    ∃ next, (if push.record.size ≠ 0 then (ring.write push.record.bytes).write push.data
        else ring.write push.record.bytes) = next ∧
      next.Valid ∧ next.capacity = ring.capacity ∧ next.contents = ring.contents ++ push.frame := by
  rw [Push.frame_length] at hfits
  have hlength := push.record.bytes_length
  have hfirst : ring.used + push.record.bytes.length ≤ ring.capacity := by omega
  have hvalid := Library.Ring.write_valid h hfirst
  have hcapacity := Library.Ring.write_capacity (Library.Ring.head_lt h)
    (show push.record.bytes.length ≤ ring.capacity by omega)
  have hcontents := Library.Ring.write_contents h hfirst
  refine ⟨_, rfl, ?_⟩
  split
  case isTrue =>
    have hused : (ring.write push.record.bytes).used = ring.used + push.record.bytes.length := rfl
    have hsecond : (ring.write push.record.bytes).used + push.data.length ≤
        (ring.write push.record.bytes).capacity := by omega
    refine ⟨Library.Ring.write_valid hvalid hsecond, ?_, ?_⟩
    · rw [Library.Ring.write_capacity (Library.Ring.head_lt hvalid) (by omega), hcapacity]
    · rw [Library.Ring.write_contents hvalid hsecond, hcontents, Push.frame, List.append_assoc]
  case isFalse hsize =>
    have hdata : push.data = [] := by
      have heq := push.size_eq
      rw [not_not.mp hsize] at heq
      exact List.eq_nil_of_length_eq_zero heq.symm
    refine ⟨hvalid, hcapacity, ?_⟩
    rw [hcontents, Push.frame, hdata, List.append_nil]

theorem fits_of_accepted {push : Push} (h : ring.Valid)
    (haccepts : refuses ring push.record = false) :
    ring.used + push.frame.length ≤ ring.capacity ∧ push.data.length ≤ maxSampleBytes := by
  have hused := h.used_le
  simp only [refuses, Bool.or_eq_false_iff, decide_eq_false_iff_not, push.size_eq] at haccepts
  rw [Push.frame_length]
  omega

theorem push_rejected {state : State} {push : Push} (h : refuses state.ring push.record = true) :
    (captureQueuePush state push).1.ring = state.ring ∧
      (captureQueuePush state push).2 = [.rejected push] := by
  unfold captureQueuePush
  dsimp only
  rw [if_pos h]
  split <;> exact ⟨rfl, rfl⟩

/-- An accepted push appends its frame and counts nothing. -/
theorem push_accepted {state : State} {push : Push} (hvalid : state.ring.Valid)
    (h : refuses state.ring push.record = false) :
    ∃ next : Library.Ring UInt8, captureQueuePush state push =
      ({ state with ring := next }, [.accepted push]) ∧
      next.Valid ∧ next.capacity = state.ring.capacity ∧
      next.contents = state.ring.contents ++ push.frame := by
  obtain ⟨next, hnext, hspec⟩ := write_frame hvalid (fits_of_accepted hvalid h).1
  refine ⟨next, ?_, hspec⟩
  unfold captureQueuePush
  dsimp only
  rw [if_neg (by rw [h]; exact Bool.false_ne_true), hnext]

/-! ## The ring under the worker -/

/-- The header the worker reads is the record of the first frame, and what it reads after it is the
data. -/
theorem read_frame {push : Push} {rest : List UInt8} (h : ring.Valid)
    (hcontents : ring.contents = push.frame ++ rest) :
    (ring.read recordSize).1 = push.record.bytes ∧
      ∃ next, (if push.record.size ≠ 0 then
          (ring.read recordSize).2.read push.record.size.toNat
        else ([], (ring.read recordSize).2)) = (push.data, next) ∧
        next.Valid ∧ next.capacity = ring.capacity ∧ next.contents = rest := by
  have hlength := Library.Ring.contents_length h
  rw [hcontents, List.length_append, Push.frame_length] at hlength
  have hfront : (ring.read recordSize).1 = push.record.bytes := by
    rw [Library.Ring.read_front h (by omega), hcontents, Push.frame, List.append_assoc]
    exact List.take_left' push.record.bytes_length
  have hvalid := Library.Ring.read_valid h (show recordSize ≤ ring.used by omega)
  have hrest : (ring.read recordSize).2.contents = push.data ++ rest := by
    rw [Library.Ring.read_contents h (by omega), hcontents, Push.frame, List.append_assoc]
    exact List.drop_left' push.record.bytes_length
  have hused : (ring.read recordSize).2.used = ring.used - recordSize := rfl
  refine ⟨hfront, ?_⟩
  split
  case isTrue =>
    rw [push.size_eq]
    refine ⟨((ring.read recordSize).2.read push.data.length).2, ?_,
      Library.Ring.read_valid hvalid (by omega), rfl, ?_⟩
    · refine Prod.ext ?_ rfl
      rw [Library.Ring.read_front hvalid (by omega), hrest, List.take_left]
    · rw [Library.Ring.read_contents hvalid (by omega), hrest, List.drop_left]
  case isFalse hsize =>
    have hdata : push.data = [] := by
      have heq := push.size_eq
      rw [not_not.mp hsize] at heq
      exact List.eq_nil_of_length_eq_zero heq.symm
    refine ⟨(ring.read recordSize).2, ?_, hvalid, rfl, ?_⟩
    · rw [hdata]
    · rw [hrest, hdata, List.nil_append]

/-- The worker takes the first frame off the ring. -/
theorem dequeue_frame {state : State} {push : Push} {rest : List UInt8} (h : state.ring.Valid)
    (hcontents : state.ring.contents = push.frame ++ rest) :
    ∃ next : Library.Ring UInt8, dequeue state =
        { state with ring := next, worker := .exporting push.record push.data } ∧
      next.Valid ∧ next.capacity = state.ring.capacity ∧ next.contents = rest := by
  obtain ⟨hfront, next, hnext, hspec⟩ := read_frame h hcontents
  have hlength := Library.Ring.contents_length h
  have hrecord : recordSize = 16 := rfl
  rw [hcontents, List.length_append, Push.frame_length] at hlength
  refine ⟨next, ?_, hspec⟩
  unfold dequeue
  rw [if_neg (by omega), if_neg (by omega)]
  dsimp only
  rw [hfront, QueueRecord.ofBytes_bytes, hnext]

end Anettrace.CaptureQueue
