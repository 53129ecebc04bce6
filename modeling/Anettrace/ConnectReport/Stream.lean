import Anettrace.ConnectReport.Model
import Anettrace.Library.Keyed

/-!
# The records of a capture

`build_attempts` and `analyze_records` of `tools/connect_diagnostics.py`. A record goes to the
attempt that it names, or else to the attempt that its socket was associated with; a record without
an attempt is skipped, unless it ends the trace.
-/

namespace Anettrace.ConnectReport

open Library
open Diagnose (ReportStatus)

/-- The variables of `build_attempts`. The attempts stand in the order of the dictionary, and an id
in `sockets` for the attempt with that id. -/
structure Builder where
  attempts : List Attempt
  sockets : Keyed String String
  captureStartNs : Int
  captureEndNs : Int

namespace Builder

/-- `build_attempts` before the first record. -/
def init : Builder := ⟨[], .empty, 0, 0⟩

def find (builder : Builder) (attemptId : String) : Option Attempt :=
  builder.attempts.find? fun attempt => attempt.attemptId = attemptId

def recordAttempt (builder : Builder) (record : Record) : Option Attempt :=
  if record.attemptKey ≠ "" then builder.find record.attemptKey
  else if record.socketKey ≠ "" then (builder.sockets record.socketKey).bind builder.find
  else none

/-- An attempt changes. -/
def store (builder : Builder) (attempt : Attempt) : Builder :=
  { builder with
    attempts := builder.attempts.map fun other =>
      if other.attemptId = attempt.attemptId then attempt else other }

/-- A `connect_attempt_start` record. -/
def observeStart (builder : Builder) (record : Record) : Except RecordError Builder := do
  let attemptId ← record.needText "attempt_id"
  if (builder.find attemptId).isSome then .error (.duplicateAttempt attemptId)
  else do
    let attempt ← Attempt.started record attemptId
    .ok { builder with attempts := builder.attempts ++ [attempt] }

def observeSocket (builder : Builder) (attempt : Attempt) (record : Record) :
    Except RecordError Builder := do
  let socketId ← record.needText "socket_instance_id"
  if (builder.sockets socketId).any (· ≠ attempt.attemptId) then .error (.sharedSocket socketId)
  else
    .ok { builder.store (attempt.associate record socketId) with
      sockets := builder.sockets.put socketId attempt.attemptId }

/-- A record of an attempt after its start. -/
def observeOf (builder : Builder) (attempt : Attempt) (record : Record) :
    Except RecordError Builder := do
  let attempt ← attempt.observeNetworkContext record
  if record.isType "connect_socket" then builder.observeSocket attempt record
  else do
    let attempt ← attempt.observe record
    .ok (builder.store attempt)

/-- A record without an attempt. -/
def observeOther (builder : Builder) (record : Record) : Except RecordError Builder :=
  if record.isType "trace_end" then do
    let endNs ← record.getInt "ts_ns" 0
    .ok { builder with captureEndNs := endNs }
  else .ok builder

/-- The first snapshot of the clocks. -/
def observeClock (builder : Builder) (record : Record) : Except RecordError Builder :=
  if record.isType "clock_snapshot" && builder.captureStartNs = 0 then do
    let startNs ← record.getInt "monotonic_ns" 0
    .ok { builder with captureStartNs := startNs }
  else .ok builder

/-- An iteration of the loop in `build_attempts`. -/
def observe (builder : Builder) (record : Record) : Except RecordError Builder := do
  let builder ← builder.observeClock record
  if record.isType "connect_attempt_start" then builder.observeStart record
  else
    match builder.recordAttempt record with
    | some attempt => builder.observeOf attempt record
    | none => builder.observeOther record

/-- The start of the capture after the loop. -/
def startNs (builder : Builder) : Int :=
  if builder.captureStartNs = 0 then (builder.attempts.map Attempt.startedNs).min?.getD 0
  else builder.captureStartNs

/-- The end of the capture after the loop. -/
def endNs (builder : Builder) : Int :=
  if builder.captureEndNs = 0 then
    ((builder.attempts.filterMap Attempt.endedNs).filter (· ≠ 0)).max?.getD builder.startNs
  else builder.captureEndNs

end Builder

/-- What `analyze_records` reports of the capture and its attempts. -/
structure Report where
  status : ReportStatus
  startedNs : Int
  endedNs : Int
  lostEvents : Int
  truncated : Bool
  attempts : List AttemptReport
  warnings : List String
  errors : List String
  deriving DecidableEq, Repr

def traceEndOf (records : List Record) : Option Record :=
  records.reverse.find? fun record => record.isType "trace_end"

def lostEvents : Option Record → Except RecordError Int
  | none => .ok 0
  | some traceEnd => traceEnd.getInt "lost_events" 0

/-- The status of a report: a stream without an end is invalid, and one with losses degraded. -/
def reportStatus (requested : ReportStatus) (traceEnd : Option Record) (lost : Int)
    (truncated : Bool) : ReportStatus :=
  if traceEnd = none then .invalid
  else if requested ≠ .invalid ∧ (lost ≠ 0 ∨ truncated) then .degraded
  else requested

def captureWarnings (lost : Int) (truncated : Bool) : List String :=
  (if lost ≠ 0 then ["event stream lost " ++ toString lost ++ " events"] else []) ++
  (if truncated then ["capture reached a configured resource limit"] else [])

/-- The report on the attempts that `build_attempts` found. -/
def Builder.report (builder : Builder) (requested : ReportStatus) (traceEnd : Option Record)
    (lost : Int) : Report :=
  let truncated := traceEnd.any fun record => record.flag "truncated"
  let status := reportStatus requested traceEnd lost truncated
  let attempts := builder.attempts.mergeSort fun first second => first.startedNs ≤ second.startedNs
  { status := status
    startedNs := builder.startNs
    endedNs := builder.endNs
    lostEvents := lost
    truncated := truncated
    attempts := attempts.map fun attempt => attempt.report status builder.endNs
    warnings := if status = .degraded ∧ requested ≠ .invalid then
      captureWarnings lost truncated else []
    errors := if traceEnd = none then ["event stream has no trace_end record"] else [] }

/-- `analyze_records`. The target of the report is not part of the model. -/
def analyzeRecords (records : List Record) (requested : ReportStatus) :
    Except RecordError Report := do
  let builder ← records.foldlM Builder.observe .init
  let lost ← lostEvents (traceEndOf records)
  .ok (builder.report requested (traceEndOf records) lost)

end Anettrace.ConnectReport
