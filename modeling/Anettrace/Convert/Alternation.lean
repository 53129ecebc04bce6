import Anettrace.Convert.Model
import Anettrace.Library.Alternation

/-!
# Lifetimes alternate in the converter

The converter begins the lifetime of a socket only when it is not in `socket_lifetimes`, and ends it
only when it is. A connect attempt begins at each of its start records, so it alternates where no
attempt starts twice.
-/

namespace Anettrace.Convert

open Anettrace.Export Anettrace.Native Anettrace.Capture Library.Run Library.Alternation

/-- The slices of a trace, as a log of switches. -/
def sliceLog (slices : List Slice) : List (Subject × Bool) :=
  slices.map fun slice => (slice.subject, slice.begins)

@[simp] theorem sliceLog_append (first second : List Slice) :
    sliceLog (first ++ second) = sliceLog first ++ sliceLog second :=
  List.map_append

/-- The subjects whose slice is open. -/
def Converter.On (converter : Converter) : Subject → Prop
  | .socket socketId => socketId ∈ converter.socketLifetimes
  | .attempt attemptId => attemptId ∈ converter.activeConnects

/-- What holds of the converter between two records. -/
structure Tidy (converter : Converter) : Prop where
  sockets : converter.socketLifetimes.Nodup
  attempts : converter.activeConnects.Nodup
  follows : Follows (sliceLog converter.slices) converter.On

theorem Tidy.init : Tidy Converter.init where
  sockets := List.nodup_nil
  attempts := List.nodup_nil
  follows :=
    Follows.nil.congr fun subject => by cases subject <;> simp [Converter.On, Converter.init]

variable {converter : Converter}

theorem Tidy.open (h : Tidy converter) (ts : UInt64) {socketId : UInt64}
    (hclosed : socketId ∉ converter.socketLifetimes) :
    Tidy { converter.event ts (.socket socketId) true with
      socketLifetimes := converter.socketLifetimes.insert socketId } := by
  refine ⟨h.sockets.insert, h.attempts, ?_⟩
  show Follows (sliceLog (converter.slices ++ [_])) _
  rw [sliceLog_append]
  refine (@Follows.turnOn _ _ _ _ h.follows (.socket socketId) hclosed).congr fun subject => ?_
  cases subject <;> simp [Converter.On, Converter.event]

/-- A socket that is open is closed. -/
theorem Tidy.close (h : Tidy converter) (ts : UInt64) {socketId : UInt64}
    (hopen : socketId ∈ converter.socketLifetimes) :
    Tidy { converter.event ts (.socket socketId) false with
      socketLifetimes := converter.socketLifetimes.erase socketId } := by
  refine ⟨h.sockets.erase _, h.attempts, ?_⟩
  show Follows (sliceLog (converter.slices ++ [_])) _
  rw [sliceLog_append]
  refine (@Follows.turnOff _ _ _ _ h.follows (.socket socketId) hopen).congr fun subject => ?_
  cases subject <;> simp [Converter.On, Converter.event, h.sockets.mem_erase_iff]

/-- The set of closed sockets opens and closes nothing. -/
theorem Tidy.closedSockets (h : Tidy converter) (closedSockets : List UInt64) :
    Tidy { converter with closedSockets := closedSockets } :=
  ⟨h.sockets, h.attempts, h.follows.congr fun subject => by cases subject <;> rfl⟩

/-- An attempt that is not open is opened. -/
theorem Tidy.start (h : Tidy converter) (ts : UInt64) {attemptId : UInt64}
    (hclosed : attemptId ∉ converter.activeConnects) :
    Tidy { converter.event ts (.attempt attemptId) true with
      activeConnects := converter.activeConnects.insert attemptId } := by
  refine ⟨h.sockets, h.attempts.insert, ?_⟩
  show Follows (sliceLog (converter.slices ++ [_])) _
  rw [sliceLog_append]
  refine (@Follows.turnOn _ _ _ _ h.follows (.attempt attemptId) hclosed).congr fun subject => ?_
  cases subject <;> simp [Converter.On, Converter.event]

/-- An attempt that is open is closed. -/
theorem Tidy.finish (h : Tidy converter) (ts : UInt64) {attemptId : UInt64}
    (hopen : attemptId ∈ converter.activeConnects) :
    Tidy { converter.event ts (.attempt attemptId) false with
      activeConnects := converter.activeConnects.erase attemptId } := by
  refine ⟨h.sockets, h.attempts.erase _, ?_⟩
  show Follows (sliceLog (converter.slices ++ [_])) _
  rw [sliceLog_append]
  refine (@Follows.turnOff _ _ _ _ h.follows (.attempt attemptId) hopen).congr fun subject => ?_
  cases subject <;> simp [Converter.On, Converter.event, h.attempts.mem_erase_iff]

/-! ## Records -/

theorem Tidy.socketCreate (h : Tidy converter) (startTs ts socketId : UInt64) :
    Tidy (converter.exportSocketCreate startTs ts socketId) := by
  unfold Converter.exportSocketCreate
  dsimp only
  by_cases hopen : socketId ∈ converter.socketLifetimes
  case neg =>
    rw [if_neg hopen]
    exact (h.open ts hopen).closedSockets _
  case pos =>
    rw [if_pos hopen]
    have hclosed := h.close startTs hopen
    have hfresh : socketId ∉ converter.socketLifetimes.erase socketId :=
      h.sockets.not_mem_erase
    -- closing and opening again leaves the set of open sockets as it was
    have hreopened :=
      (hclosed.open ts hfresh).closedSockets (converter.closedSockets.erase socketId)
    refine ⟨h.sockets.insert, h.attempts, hreopened.follows.congr fun subject => ?_⟩
    cases subject with
    | socket other =>
        show other ∈ converter.socketLifetimes.insert socketId ↔
          other ∈ (converter.socketLifetimes.erase socketId).insert socketId
        rw [List.mem_insert_iff, List.mem_insert_iff, h.sockets.mem_erase_iff]
        by_cases hsame : other = socketId <;> simp [hsame]
    | attempt other => exact Iff.rfl

theorem Tidy.socketRecord (h : Tidy converter) (ts socketId : UInt64) (terminal : Bool) :
    Tidy (converter.exportSocketRecord ts socketId terminal) := by
  unfold Converter.exportSocketRecord
  dsimp only
  cases terminal with
  | false =>
      rw [if_neg Bool.false_ne_true]
      split
      case isTrue hopens => exact h.open ts hopens.1
      case isFalse => exact h
  | true =>
      have hskip (opened : Converter) : (if socketId ∉ converter.socketLifetimes ∧
          socketId ∉ converter.closedSockets ∧ !true then opened else converter) = converter :=
        if_neg (by simp)
      rw [if_pos rfl, hskip]
      split
      case isTrue hopen => exact (h.close ts hopen).closedSockets _
      case isFalse => exact h.closedSockets _

/-- A connect record; an attempt that starts is not open. -/
theorem Tidy.connectEvent (h : Tidy converter) (kind : ConnectKind) (ts attemptId : UInt64)
    (error : Int64) (asyncPending : Bool)
    (hstart : kind = .start → attemptId ∉ converter.activeConnects) :
    Tidy (converter.exportConnectEvent kind ts attemptId error asyncPending) := by
  unfold Converter.exportConnectEvent
  split
  case isTrue hkind => exact h.start ts (hstart hkind)
  case isFalse =>
    split
    case isTrue hcloses => exact h.finish ts hcloses.2
    case isFalse => exact h

variable {order : List UInt64 → List UInt64}

/-- The end of the trace closes everything that is open, in any order. -/
theorem Tidy.traceEnd (h : Tidy converter) (horder : VisitsAll order) (ts : UInt64) :
    Tidy (converter.exportTraceEnd order ts) := by
  unfold Converter.exportTraceEnd
  split
  case isTrue => exact h
  case isFalse =>
    have hsockets := @Follows.turnAllOff _ _ _ _ h.follows
      ((order converter.socketLifetimes).map Subject.socket)
      (((horder _).nodup_iff.mpr h.sockets).map fun _ _ heq => Subject.socket.inj heq)
      (by
        intro key hkey
        obtain ⟨socketId, hmem, rfl⟩ := List.mem_map.mp hkey
        exact (horder _).mem_iff.mp hmem)
    have hattempts := @Follows.turnAllOff _ _ _ _ hsockets
      ((order converter.activeConnects).map Subject.attempt)
      (((horder _).nodup_iff.mpr h.attempts).map fun _ _ heq => Subject.attempt.inj heq)
      (by
        intro key hkey
        obtain ⟨attemptId, hmem, rfl⟩ := List.mem_map.mp hkey
        exact ⟨by simp, (horder _).mem_iff.mp hmem⟩)
    refine ⟨List.nodup_nil, List.nodup_nil, ?_⟩
    rw [sliceLog_append, sliceLog_append]
    rw [List.map_map, List.map_map] at hattempts
    unfold sliceLog
    rw [List.map_map, List.map_map]
    refine hattempts.congr fun subject => ?_
    cases subject with
    | socket socketId =>
        simp [Converter.On, (horder converter.socketLifetimes).mem_iff]
    | attempt attemptId =>
        simp [Converter.On, (horder converter.activeConnects).mem_iff]

/-! ## Files -/

/-- The attempts that start in a file, in order. -/
def lineStarts (lines : List Line) : List UInt64 :=
  lines.filterMap fun
    | .connect .start _ attemptId _ _ _ => some attemptId
    | _ => none

@[simp] theorem lineStarts_append (first second : List Line) :
    lineStarts (first ++ second) = lineStarts first ++ lineStarts second :=
  List.filterMap_append

/-- The attempts that are open have started. -/
def Started (converter : Converter) (lines : List Line) : Prop :=
  ∀ attemptId ∈ converter.activeConnects, attemptId ∈ lineStarts lines

theorem Tidy.step (h : Tidy converter) (horder : VisitsAll order) (traceTags : Bool)
    {lines : List Line} (hstarted : Started converter lines) (line : Line)
    (hnodup : (lineStarts (lines ++ [line])).Nodup) :
    Tidy (converter.step order traceTags line) ∧
      Started (converter.step order traceTags line) (lines ++ [line]) := by
  have hkept : Started converter (lines ++ [line]) := fun attemptId hmem => by
    rw [lineStarts_append]
    exact List.mem_append_left _ (hstarted attemptId hmem)
  cases line with
  | clockSnapshot | other => exact ⟨h, hkept⟩
  | socketCreate startTs ts socketId =>
      cases traceTags with
      | true => exact ⟨h, hkept⟩
      | false =>
        refine ⟨h.socketCreate startTs ts socketId, fun attemptId hmem => hkept attemptId ?_⟩
        rw [Converter.step, if_neg Bool.false_ne_true] at hmem
        unfold Converter.exportSocketCreate at hmem
        dsimp only at hmem
        split at hmem <;> exact hmem
  | socketState ts socketId terminal | socketEvent ts socketId terminal =>
      cases traceTags with
      | true => exact ⟨h, hkept⟩
      | false =>
        refine ⟨h.socketRecord ts socketId terminal, fun attemptId hmem => hkept attemptId ?_⟩
        have hrecord : attemptId ∈
            (converter.exportSocketRecord ts socketId terminal).activeConnects := hmem
        unfold Converter.exportSocketRecord at hrecord
        dsimp only at hrecord
        split at hrecord <;> split at hrecord <;> try split at hrecord
        all_goals exact hrecord
  | connect kind ts attemptId socketId error asyncPending =>
      cases traceTags with
      | true => exact ⟨h, hkept⟩
      | false =>
        refine ⟨h.connectEvent kind ts attemptId error asyncPending fun hstart hmem => ?_, ?_⟩
        · -- an attempt that is open would start twice
          subst hstart
          rw [lineStarts_append] at hnodup
          exact (List.nodup_append.mp hnodup).2.2 attemptId (hstarted attemptId hmem) attemptId
            (List.mem_singleton_self _) rfl
        · intro other hmem
          rw [Converter.step, if_neg Bool.false_ne_true] at hmem
          unfold Converter.exportConnectEvent at hmem
          split at hmem
          case isTrue hstart =>
            subst hstart
            rcases List.mem_insert_iff.mp hmem with rfl | hold
            · rw [lineStarts_append]
              exact List.mem_append_right _ (List.mem_singleton_self _)
            · exact hkept other hold
          case isFalse =>
            split at hmem
            · exact hkept other (List.mem_of_mem_erase hmem)
            · exact hkept other hmem
  | record fields =>
      cases fields with
      | traceEnd fields =>
          refine ⟨h.traceEnd horder fields.ts, fun attemptId hmem => hkept attemptId ?_⟩
          have hactive : attemptId ∈ (converter.exportTraceEnd order fields.ts).activeConnects :=
            hmem
          unfold Converter.exportTraceEnd at hactive
          split at hactive
          · exact hactive
          · cases hactive
      | _ => exact ⟨h, hkept⟩

/-- The converter is tidy after every file in which no attempt starts twice. -/
theorem after_tidy (horder : VisitsAll order) (traceTags : Bool) (lines : List Line)
    (hnodup : (lineStarts lines).Nodup) :
    Tidy (Converter.after order traceTags lines) ∧
      Started (Converter.after order traceTags lines) lines := by
  induction lines using List.reverseRecOn with
  | nil => exact ⟨Tidy.init, fun _ hmem => (by cases hmem)⟩
  | append_singleton history line ih =>
      have hbefore := hnodup
      rw [lineStarts_append] at hbefore
      obtain ⟨htidy, hstarted⟩ := ih (List.nodup_append.mp hbefore).1
      unfold Converter.after
      rw [run_concat]
      exact htidy.step horder traceTags hstarted line hnodup

/-- In a file that ends with `trace_end`, every track of the converter alternates, and every slice
is closed. -/
theorem after_alternates (horder : VisitsAll order) (traceTags : Bool) {lines : List Line}
    {fields : TraceEnd} (hts : fields.ts ≠ 0) (hnodup : (lineStarts lines).Nodup)
    (subject : Subject) :
    let slices :=
      (Converter.after order traceTags (lines ++ [.record (.traceEnd fields)])).slices
    Alternates (turnsOf (sliceLog slices) subject) ∧
      level (turnsOf (sliceLog slices) subject) = false := by
  intro slices
  have hall : (lineStarts (lines ++ [.record (.traceEnd fields)])).Nodup := by
    rw [lineStarts_append]
    simpa [lineStarts] using hnodup
  obtain ⟨htidy, -⟩ := after_tidy horder traceTags _ hall
  refine (htidy.follows subject).off fun hon => ?_
  -- the last record empties both sets
  unfold Converter.after at hon
  rw [run_concat] at hon
  have hclosed (converter : Converter) :
      ¬(converter.exportTraceEnd order fields.ts).On subject := by
    unfold Converter.exportTraceEnd
    rw [if_neg hts]
    cases subject <;> exact List.not_mem_nil
  exact hclosed _ hon

end Anettrace.Convert
