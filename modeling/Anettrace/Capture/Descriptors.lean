import Anettrace.Capture.Close
import Anettrace.Capture.File
import Anettrace.Native.Descriptors

/-!
# The descriptors of a capture

`track_descriptors`: in the file of a finished capture, plain or ring, every event and every
descriptor refers to a track that is described once, before it, and one packet clears the
incremental state.
-/

namespace Anettrace.Capture

open Anettrace.Export Anettrace.Native Library.Labelled

/-- Dropping packets that describe no track leaves the descriptors. -/
theorem described_filter {out : List Packet} {keep : Packet → Bool}
    (hkeep : ∀ packet ∈ out, packet.describes.isSome → keep packet = true) :
    described (out.filter keep) = described out := by
  unfold described
  rw [List.filterMap_filter]
  refine List.filterMap_congr fun packet hpacket => ?_
  cases hkept : keep packet with
  | true => rfl
  | false =>
      cases hdescribes : packet.describes with
      | none => rfl
      | some uuid =>
          have hkeeps := hkeep packet hpacket (by rw [hdescribes]; rfl)
          rw [hkept] at hkeeps
          cases hkeeps

/-- The file of a trace describes the tracks of the trace, in both modes. -/
structure Keeps (out file : List Packet) : Prop where
  described : described file = described out
  introduced : Introduced [] file
  sequenced : ∀ first, Sequenced first out → Sequenced first file

/-- A ring trace keeps every descriptor, at its front. -/
theorem keeps_ring {trail : Trail} (h : Described trail) {retained : List Packet}
    (hsublist : retained.Sublist trail.out)
    (htimed : ∀ packet ∈ retained, isUntimed packet = false) :
    Keeps trail.out (trail.out.filter isUntimed ++ retained) := by
  have hkeep : ∀ packet ∈ trail.out, packet.describes.isSome → isUntimed packet = true :=
    fun packet hpacket hsome => decide_eq_true (h.untimed packet hpacket hsome)
  have hnone : described retained = [] := by
    refine List.filterMap_eq_nil_iff.mpr fun packet hpacket => ?_
    refine Option.not_isSome_iff_eq_none.mp fun hsome => ?_
    have huntimed := hkeep packet (hsublist.subset hpacket) hsome
    rw [htimed packet hpacket] at huntimed
    cases huntimed
  refine ⟨?_, ?_, fun first hfirst => ?_⟩
  · rw [described_append, described_filter hkeep, hnone, List.append_nil]
  · refine (introduced_append [] _ _).mpr ⟨h.introduced.filter hkeep, introduced_known ?_⟩
    intro packet hpacket uuid huuid
    rw [described_filter hkeep]
    exact h.introduced.mem (hsublist.subset hpacket) huuid
  · -- the packet that clears the state has no timestamp, so a retained one does not
    refine (hfirst.filter (decide_eq_true hfirst.untimed)).append fun packet hpacket => ?_
    cases hcleared : packet.cleared with
    | false => rfl
    | true =>
        have hmem : packet ∈ trail.out.filter Packet.cleared :=
          List.mem_filter.mpr ⟨hsublist.subset hpacket, hcleared⟩
        rw [hfirst.cleared] at hmem
        have huntimed := htimed packet hpacket
        rw [List.mem_singleton.mp hmem] at huntimed
        exact absurd hfirst.untimed (of_decide_eq_false huntimed)

theorem captureFile_keeps (session : CaptureSession) {trail : Trail} (h : Described trail) :
    Keeps trail.out ((captureFile session trail.out).written.map Prod.fst) := by
  rcases captureFile_packets session trail.out
    with ⟨-, hplain⟩ | ⟨retained, hring, hsublist, htimed⟩
  · rw [hplain]
    exact ⟨rfl, h.introduced, fun _ hfirst => hfirst⟩
  · rw [hring]
    exact keeps_ring h hsublist htimed

theorem finished_started (session : CaptureSession) (exporter : Exporter) (clock : CloseClock) :
    (captureClose session exporter clock).sequenceStarted = true := rfl

/-- In the finished file, in both modes, every event refers to a track, and every descriptor to a
parent, that is described exactly once, and earlier. Exactly one packet clears the incremental
state: the first one of the sequence, which has no timestamp and so stands in the front that a ring
trace keeps. -/
theorem track_descriptors (session : CaptureSession) (inputs : List CaptureInput)
    (clock : CloseClock)
    (hkinds : ∀ first ∈ (captureClose session (captured session inputs) clock).tracks,
      ∀ second ∈ (captureClose session (captured session inputs) clock).tracks,
        first.uuid = second.uuid → first.kind = second.kind) :
    let out := (captureClose session (captured session inputs) clock).out
    let file := (captureFile session out).written.map Prod.fst
    (∀ before packet after, file = before ++ packet :: after →
      ∀ uuid, packet.refersTo = some uuid →
        (described before).count uuid = 1 ∧ (described file).count uuid = 1) ∧
      ∃ first, file.filter Packet.cleared = [first] ∧
        (file.filter Packet.onSequence).head? = some first ∧
        (session.windowNs ≠ 0 → ∃ retained, file = out.filter isUntimed ++ retained ∧
          first ∈ out.filter isUntimed) := by
  intro out file
  have hdescribed := (finished_moves session inputs clock).described
  have hkeeps := captureFile_keeps session hdescribed
  have hnodup : (described file).Nodup := by
    show (described ((captureFile session out).written.map Prod.fst)).Nodup
    rw [hkeeps.described]
    exact hdescribed.nodup hkinds
  refine ⟨fun before packet after hsplit uuid huuid => ?_, ?_⟩
  · have hintroduced : Introduced [] file := hkeeps.introduced
    rw [hsplit] at hintroduced
    have hknown := ((introduced_append [] before (packet :: after)).mp hintroduced).2.1 uuid huuid
    rw [List.nil_append] at hknown
    have hsub : (described before).Sublist (described file) := by
      rw [hsplit, described_append]
      exact List.sublist_append_left _ _
    exact ⟨List.count_eq_one_of_mem (hsub.nodup hnodup) hknown,
      List.count_eq_one_of_mem hnodup (hsub.subset hknown)⟩
  · obtain ⟨first, hfirst⟩ := hdescribed.started (finished_started session _ clock)
    have hfile := hkeeps.sequenced first hfirst
    refine ⟨first, hfile.cleared, hfile.head, fun hring => ?_⟩
    rcases captureFile_packets session out with ⟨hplain, -⟩ | ⟨retained, hwritten, -, -⟩
    · exact absurd hplain hring
    · refine ⟨retained, hwritten, List.mem_filter.mpr ⟨?_, decide_eq_true hfirst.untimed⟩⟩
      have hmem : first ∈ out.filter Packet.cleared := by
        rw [hfirst.cleared]
        exact List.mem_singleton_self first
      exact (List.mem_filter.mp hmem).1

/-- A record of the connection of socket 9, of a traced function. -/
def smallRecord (func : UInt16) (ts : UInt64) : CaptureInput :=
  match smallInput func ipprotoTcp .tx ts with
  | .event sample cpu realloc => .event sample default cpu realloc
  | _ => .tick 0

/-- A connect attempt, a write and its packet, and the system call that they belong to. -/
def mixedInputs : List CaptureInput :=
  [.connect smallStart, smallRecord 2 2000, smallRecord 0 3000,
    .syscall { (default : SyscallEvent) with
      kind := .sendto, startTs := 1500, ts := 4000, tid := 7, tgid := 7, finished := true } 200]

/-- A ring trace of them, whose window has left the beginnings of the slices behind: the tracks of
two threads, of the attempt, the flow, its socket and the calls are all described before they are
used. -/
theorem track_descriptors_small :
    let out := (captureClose (smallCapture 2500) (captured (smallCapture 2500) mixedInputs)
      ⟨5000, none⟩).out
    let file := (captureFile (smallCapture 2500) out).written.map Prod.fst
    (described file).length = 10 ∧ (file.filter fun packet => packet.refersTo.isSome).length = 19 ∧
      (∀ before packet after, file = before ++ packet :: after →
        ∀ uuid, packet.refersTo = some uuid →
          (described before).count uuid = 1 ∧ (described file).count uuid = 1) ∧
      ∃ first, file.filter Packet.cleared = [first] ∧
        (file.filter Packet.onSequence).head? = some first := by
  intro out file
  obtain ⟨hreferences, first, hcleared, hhead, -⟩ :=
    track_descriptors (smallCapture 2500) mixedInputs ⟨5000, none⟩ (by decide +kernel)
  exact ⟨by decide +kernel, by decide +kernel, hreferences, first, hcleared, hhead⟩

end Anettrace.Capture
