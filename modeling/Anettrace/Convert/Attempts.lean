import Anettrace.Capture.File
import Anettrace.Capture.Lifetimes
import Anettrace.Convert.Alternation

/-!
# Lifetimes alternate in both exporters

`lifetimes_alternate_iff`: in a plain trace the slices of sockets and connect attempts alternate on
every track, natively and in what the converter makes of the JSONL file, exactly if no attempt
starts twice.
-/

namespace Anettrace.Convert

open Anettrace.Export Anettrace.Native Anettrace.Capture Library.Run Library.Alternation

/-! ## The lines of a capture -/

/-- Records of the tables start no attempt. -/
theorem lineStarts_records (records : List Record) :
    lineStarts (records.map .record) = [] := by
  unfold lineStarts
  rw [List.filterMap_map]
  exact List.filterMap_eq_nil_iff.mpr fun record _ => rfl

theorem lineStarts_newLines (before after : State) : lineStarts (newLines before after) = [] :=
  lineStarts_records _

/-- The attempts that start in the lines of an input. -/
theorem step_lineStarts (session : Session) (state : State) (input : CaptureInput) :
    lineStarts (stepLines session state input) = starts session.salt [input] := by
  cases input with
  | clock | lost | queueLost => rfl
  | ret | syscall | markCaptureEnd | tick => exact lineStarts_newLines _ _
  | handoff ready =>
      show lineStarts (if ready.shown then [.other ready.ts] else []) = []
      split <;> rfl
  | connect connect =>
      unfold stepLines exportConnectEvent starts
      cases hkind : connect.kind <;> simp [lineStarts, hkind]
  | event sample extension cpu realloc =>
      show lineStarts (eventLines session state sample extension cpu realloc) = []
      unfold eventLines
      dsimp only
      split
      case h_1 | h_2 | h_3 | h_4 => exact lineStarts_newLines _ _
      case h_5 => split <;> rfl
      case h_6 =>
        rw [lineStarts_append, lineStarts_newLines]
        exact lineStarts_newLines _ _
      case h_7 =>
        rw [lineStarts_append, lineStarts_newLines]
        rfl

/-- The attempts that start in the lines of a run. -/
theorem captured_lineStarts (session : CaptureSession) (inputs : List CaptureInput) :
    lineStarts (captured session inputs).lines = starts session.salt inputs := by
  induction inputs using List.reverseRecOn with
  | nil => rfl
  | append_singleton history input ih =>
      rw [captured_concat]
      show lineStarts ((captured session history).lines ++ stepLines _ _ input) = _
      rw [lineStarts_append, ih, step_lineStarts]
      exact List.filterMap_append.symm

/-- The JSONL file ends with `trace_end`, and the close starts no attempt. -/
theorem closeLines_traceEnd (session : CaptureSession) (inputs : List CaptureInput)
    (clock : CloseClock) (eventCount : UInt64) :
    ∃ lines fields, closeLines session (captured session inputs) clock eventCount =
        lines ++ [.record (.traceEnd fields)] ∧
      fields.ts = closeTime (captured session inputs).state clock.now ∧
      lineStarts lines = starts session.salt inputs := by
  obtain ⟨records, -, hrecords, -⟩ := ((captured_coupled session inputs).found clock).written
  unfold closeLines close
  dsimp only
  rw [hrecords, List.append_assoc (captured session inputs).state.out, List.drop_left,
    List.map_append, ← List.append_assoc]
  refine ⟨_, _, rfl, rfl, ?_⟩
  rw [lineStarts_append, lineStarts_append, lineStarts_append, lineStarts_append,
    lineStarts_records, captured_lineStarts]
  have hprobes (count : Nat) (ts : UInt64) :
      lineStarts (List.replicate count (.other ts)) = [] := by
    unfold lineStarts
    exact List.filterMap_eq_nil_iff.mpr fun line hline => by
      rw [List.eq_of_mem_replicate hline]
  have hcontext (rxContext : Bool) (ts : UInt64) :
      lineStarts (if rxContext then [.other ts] else []) = [] := by
    cases rxContext <;> rfl
  rw [hprobes, hcontext]
  cases clock.snapshot <;> simp [lineStarts]

/-! ## The property -/

/-- In a finished plain capture the slices on every track of a socket or of an attempt alternate,
beginning first, and are closed; an attempt begins at most once; and the same holds of the
converter. -/
structure LifetimesAlternate (session : CaptureSession) (inputs : List CaptureInput)
    (clock : CloseClock) (eventCount : UInt64) : Prop where
  tracks : ∀ track ∈ (captureClose session (captured session inputs) clock).tracks,
    track.kind = .socket ∨ track.kind = .connect →
      let turns := turnsOf (lifetimeLog ((captureFile session
        (captureClose session (captured session inputs) clock).out).written.map Prod.fst))
          track.uuid
      Alternates turns ∧ level turns = false
  attempts : ∀ attemptId,
    ((attemptsBegun ((captureFile session
      (captureClose session (captured session inputs) clock).out).written.map Prod.fst)).map
        fun mark => mark.event.object).count attemptId ≤ 1
  converter : (lineStarts (closeLines session (captured session inputs) clock eventCount)).Nodup →
    ∀ order, VisitsAll order → ∀ traceTags subject,
      let slices := (Converter.after order traceTags
        (closeLines session (captured session inputs) clock eventCount)).slices
      Alternates (turnsOf (sliceLog slices) subject) ∧
        level (turnsOf (sliceLog slices) subject) = false

/-- The slices of lifetimes alternate on every track, in both exporters, exactly if no two
`CONNECT_EVENT_START` records are of one attempt. -/
theorem lifetimes_alternate_iff {session : CaptureSession} (hplain : session.windowNs = 0)
    (inputs : List CaptureInput) {clock : CloseClock} (hnow : clock.now ≠ 0) (eventCount : UInt64)
    (hfree : CollisionFree (captureClose session (captured session inputs) clock)) :
    LifetimesAlternate session inputs clock eventCount ↔ (starts session.salt inputs).Nodup := by
  constructor
  · intro h
    refine List.nodup_iff_count_le_one.mpr fun attemptId => ?_
    have hattempts := h.attempts attemptId
    rwa [captureFile_plain_packets hplain, finished_attempts] at hattempts
  · intro h
    obtain ⟨lines, fields, hlines, hts, hstarts⟩ :=
      closeLines_traceEnd session inputs clock eventCount
    refine ⟨fun track _ _ => ?_, fun attemptId =>
      ?_, fun hnodup order horder traceTags subject => ?_⟩
    · rw [captureFile_plain_packets hplain]
      exact finished_alternates hfree (attemptsOnce_of_starts hfree h) track.uuid
    · rw [captureFile_plain_packets hplain, finished_attempts]
      exact List.nodup_iff_count_le_one.mp h attemptId
    · have hclosed : fields.ts ≠ 0 := by
        rw [hts]
        unfold closeTime
        split
        case isTrue hend => exact hend
        case isFalse => exact hnow
      rw [hlines]
      exact after_alternates horder traceTags hclosed (hstarts ▸ h) subject

/-- Two records start one attempt: natively, its slice begins twice. -/
theorem repeated_start_begins_twice :
    ∃ track ∈ (captureClose (smallCapture 0) (captured (smallCapture 0)
        [.connect smallStart, .connect { smallStart with ts := 2000 }]) ⟨5000, none⟩).tracks,
      track.kind = .connect ∧
        ¬Alternates (turnsOf (lifetimeLog ((captureFile (smallCapture 0)
          (captureClose (smallCapture 0) (captured (smallCapture 0)
            [.connect smallStart, .connect { smallStart with ts := 2000 }])
            ⟨5000, none⟩).out).written.map Prod.fst)) track.uuid) := by
  decide +kernel

/-- A small capture in which the first two functions tell of sockets. -/
def socketCapture : CaptureSession :=
  { smallCapture 0 with
    getTrace := fun func =>
      [⟨"sk_alloc", true, false, false, false⟩,
        ⟨"inet_sock_set_state", true, false, false, false⟩][func.toNat]? }

def socketRecord (func : UInt16) (ts : UInt64) (extension : SocketExtension) : CaptureInput :=
  .event
    ⟨{ (default : DetailEvent) with
        metaType := .func, func := func, key := 9, keyGeneration := 1, ts := ts, tid :=
          3, tgid := 2 },
      256, []⟩ extension 0 ⟨true, true⟩

/-- A socket that is closed and made again, and two attempts, of which one ends before the trace
does. -/
def twoAttempts : List CaptureInput :=
  [socketRecord 0 600 ⟨500, 0⟩, .connect smallStart,
    .connect { smallStart with ts := 1200, attemptKey := 6 },
    .connect { smallStart with kind := .result, ts := 2000 }, socketRecord 1 2500 ⟨0, tcpClose⟩,
    socketRecord 0 3000 ⟨2900, 0⟩]

/-- The lifetimes of the socket and of both attempts alternate. -/
theorem lifetimes_alternate_small :
    ((marksOf (captureClose socketCapture (captured socketCapture twoAttempts)
      ⟨5000, none⟩).out).filter
        isLifetime).map (fun mark => (mark.ts, mark.event.category)) =
      [(600, .socket), (1000, .connect), (1200, .connect), (2000, .connect), (2500, .socket),
        (3000, .socket), (5000, .socket), (5000, .connect)] ∧
      LifetimesAlternate socketCapture twoAttempts ⟨5000, none⟩ 6 :=
  ⟨by decide +kernel,
    (@lifetimes_alternate_iff socketCapture rfl twoAttempts ⟨5000, none⟩ (by decide) 6
      ⟨by decide +kernel, by decide +kernel, by decide +kernel⟩).mpr (by decide +kernel)⟩

end Anettrace.Convert
