import Anettrace.Probes.Connect

/-!
# Connect diagnostics

Model of `build_attempts` and `analyze_records` of `tools/connect_diagnostics.py` on the records
that connect events leave in a JSONL file. Records of sockets and packets add evidence to an attempt
and are left out, with the evidence, the endpoints and the interface names of a report.
-/

namespace Anettrace.Diagnose

open Library Export Native Probes

/-- A record of the JSONL file, as `read_event_records` returns it. -/
inductive EventRecord where
  | clockSnapshot (monotonicNs : UInt64)
  | attemptStart (tsNs attemptId : UInt64) (uid tid tgid : UInt32) (fd : Int32)
  | socket (tsNs attemptId socketInstanceId : UInt64)
  | attemptEnd (tsNs attemptId : UInt64) (result : Int64) (error : UInt64) (asyncPending : Bool)
  | soError (tsNs attemptId : UInt64) (error : Int64)
  | cancel (tsNs attemptId socketInstanceId : UInt64) (exact : Bool)
  | traceEnd (tsNs lostEvents : UInt64) (truncated : Bool)
  deriving DecidableEq, Repr

def socketIdOf (salt : UInt64) (event : ConnectOutput) : UInt64 :=
  if event.socketKey ≠ 0 then socketInstanceId salt event.socketKey event.socketGeneration else 0

def exportConnectEvent (salt : UInt64) (event : ConnectOutput) : List EventRecord :=
  let attemptId := event.attemptId salt
  match event.kind with
  | .start => [.attemptStart event.ts attemptId event.uid event.tid event.tgid event.fd]
  | .socket => [.socket event.ts attemptId (socketIdOf salt event)]
  | .result =>
      let error := if event.result < 0 then (-event.result).toUInt64 else 0
      [.attemptEnd event.ts attemptId event.result error event.asyncPending]
  | .soError => [.soError event.ts attemptId event.result]
  | .cancel => [.cancel event.ts attemptId (socketIdOf salt event) true]
  | .other => []

/-- The file of a capture: its clock, its connect events and its end. -/
def writtenRecords (salt startNs : UInt64) (events : List ConnectOutput) (endNs lostEvents : UInt64)
    (truncated : Bool) : List EventRecord :=
  .clockSnapshot startNs :: events.flatMap (exportConnectEvent salt) ++
    [.traceEnd endNs lostEvents truncated]

/-! ## Attempts -/

/-- `LINUX_EALREADY` and `LINUX_EINPROGRESS`. -/
def pendingErrnos : List Int :=
  [115, 114]

def localRejectionErrnos : List Int :=
  [1, 9, 12, 13, 22, 23, 24, 88, 91, 97, 98, 99, 105]

def networkUnreachableErrnos : List Int :=
  [100, 101, 112, 113]

/-- `OUTCOMES`. -/
inductive Outcome where
  | success | localRejection | networkUnreachable | peerRefused | timeoutNoResponse | kernelDrop
  | interruptedOrCancelled | incompleteOrUnknown
  deriving DecidableEq, Repr

/-- The strength of the evidence for an outcome. -/
inductive Strength where
  | direct | correlated | insufficient
  deriving DecidableEq, Repr

/-- The status of a report. -/
inductive ReportStatus where
  | valid | degraded | invalid
  deriving DecidableEq, Repr

/-- The fields of `Attempt` that its classification reads. -/
structure Signs where
  result : Option Int
  error : Option Int
  asyncPending : Bool
  soError : Option Int
  established : Bool
  resetWhileConnecting : Bool
  exactDrop : Bool
  cancelled : Bool
  deriving DecidableEq, Repr

def Signs.effectiveError (attempt : Signs) : Option Int :=
  match attempt.soError.filter (· ≠ 0) with
  | some error => some error
  | none => attempt.error.filter fun error => error ≠ 0 && error ∉ pendingErrnos

/-- `classify`. The end of the capture that it sets for an open attempt is that of `report`. -/
def Signs.classify (attempt : Signs) (status : ReportStatus) : Outcome × Strength :=
  if status = .invalid then (.incompleteOrUnknown, .insufficient)
  else if attempt.result = some 0 then (.success, .direct)
  else if attempt.asyncPending ∧ attempt.soError = some 0 ∧ attempt.established then
    (.success, .correlated)
  else
    match attempt.effectiveError with
    | some error =>
        if error ∈ localRejectionErrnos then (.localRejection, .direct)
        else if error ∈ networkUnreachableErrnos then (.networkUnreachable, .direct)
        else if error = 104 ∨ error = 111 then (.peerRefused, .direct)
        else if attempt.resetWhileConnecting then (.peerRefused, .correlated)
        else if error = 110 then
          (if attempt.exactDrop then .kernelDrop else .timeoutNoResponse, .direct)
        else if error = 4 ∨ error = 125 then (.interruptedOrCancelled, .direct)
        else (.incompleteOrUnknown, .insufficient)
    | none =>
        if attempt.resetWhileConnecting then (.peerRefused, .correlated)
        else if attempt.cancelled then (.interruptedOrCancelled, .correlated)
        else if attempt.exactDrop then (.kernelDrop, .direct)
        else (.incompleteOrUnknown, .insufficient)

/-- The fields of `Attempt` that an outcome depends on. -/
structure Attempt extends Signs where
  attemptId : UInt64
  uid : UInt32
  tid : UInt32
  tgid : UInt32
  fd : Int32
  startedNs : Nat
  socketInstanceId : Option UInt64
  endedNs : Option Nat
  deriving DecidableEq, Repr

def Attempt.started (tsNs attemptId : UInt64) (uid tid tgid : UInt32) (fd : Int32) : Attempt where
  attemptId := attemptId
  uid := uid
  tid := tid
  tgid := tgid
  fd := fd
  startedNs := tsNs.toNat
  socketInstanceId := none
  endedNs := none
  result := none
  error := none
  asyncPending := false
  soError := none
  established := false
  resetWhileConnecting := false
  exactDrop := false
  cancelled := false

/-- The report of an attempt. -/
structure AttemptReport where
  attempt : Attempt
  outcome : Outcome
  strength : Strength
  errno : Option Int
  endedNs : Nat
  durationNs : Nat
  deriving DecidableEq, Repr

def Attempt.report (attempt : Attempt) (status : ReportStatus) (traceEndNs : Nat) : AttemptReport :=
  let (outcome, strength) := attempt.classify status
  let endedNs := attempt.endedNs.getD traceEndNs
  ⟨attempt, outcome, strength, attempt.effectiveError, endedNs, endedNs - attempt.startedNs⟩

/-! ## Streams -/

/-- `ConnectDiagnosticsError`: a second start of an attempt, and a socket instance of two
attempts. -/
inductive DiagnosticsError where
  | duplicateAttempt (attemptId : UInt64)
  | sharedSocket (socketId : UInt64)
  deriving DecidableEq, Repr

/-- The variables of `build_attempts`. An attempt stands for the object with its id. -/
structure Builder where
  attempts : List Attempt
  sockets : Keyed UInt64 UInt64
  captureStartNs : Nat
  captureEndNs : Nat

/-- `build_attempts` before the first record. -/
def Builder.init : Builder :=
  ⟨[], .empty, 0, 0⟩

def Builder.update (builder : Builder) (attemptId : UInt64) (change : Attempt → Attempt) :
    Builder :=
  { builder with
    attempts := builder.attempts.map fun attempt =>
      if attempt.attemptId = attemptId then change attempt else attempt }

def Builder.knows (builder : Builder) (attemptId : UInt64) : Bool :=
  builder.attempts.any fun attempt => attempt.attemptId = attemptId

/-- An iteration of the loop in `build_attempts`. -/
def Builder.observe (builder : Builder) : EventRecord → Except DiagnosticsError Builder
  | .clockSnapshot monotonicNs =>
      .ok (if builder.captureStartNs = 0 then { builder with captureStartNs := monotonicNs.toNat }
        else builder)
  | .attemptStart tsNs attemptId uid tid tgid fd =>
      if builder.knows attemptId then .error (.duplicateAttempt attemptId)
      else
        .ok { builder with
          attempts := builder.attempts ++ [.started tsNs attemptId uid tid tgid fd] }
  | .socket _ attemptId socketId =>
      if !builder.knows attemptId then .ok builder
      else if (builder.sockets socketId).any (· ≠ attemptId) then .error (.sharedSocket socketId)
      else
        .ok { builder.update attemptId fun attempt =>
              { attempt with socketInstanceId := some socketId } with
          sockets := builder.sockets.put socketId attemptId }
  | .attemptEnd tsNs attemptId result error asyncPending =>
      .ok (builder.update attemptId fun attempt =>
        { attempt with
          result := some result.toInt
          error := some error.toNat
          asyncPending := asyncPending
          endedNs := if asyncPending then attempt.endedNs else some tsNs.toNat })
  | .soError tsNs attemptId error =>
      .ok (builder.update attemptId fun attempt =>
        { attempt with
          soError := some error.toInt
          endedNs :=
            if error.toInt ∈ pendingErrnos then attempt.endedNs
            else some (max (attempt.endedNs.getD 0) tsNs.toNat) })
  | .cancel tsNs attemptId _ exact =>
      .ok (builder.update attemptId fun attempt =>
        { attempt with
          cancelled := exact
          endedNs := if exact then some tsNs.toNat else attempt.endedNs })
  | .traceEnd tsNs _ _ => .ok { builder with captureEndNs := tsNs.toNat }

/-- The start of the capture after the loop. -/
def Builder.startNs (builder : Builder) : Nat :=
  if builder.captureStartNs = 0 then (builder.attempts.map Attempt.startedNs).min?.getD 0
  else builder.captureStartNs

/-- The end of the capture after the loop. -/
def Builder.endNs (builder : Builder) : Nat :=
  if builder.captureEndNs = 0 then
    ((builder.attempts.filterMap Attempt.endedNs).filter (· ≠ 0)).max?.getD builder.startNs
  else builder.captureEndNs

def traceEndOf (records : List EventRecord) : Option (UInt64 × Bool) :=
  (records.filterMap fun
    | .traceEnd _ lostEvents truncated => some (lostEvents, truncated)
    | _ => none).getLast?

/-- What `analyze_records` reports of the capture and its attempts. -/
structure Report where
  status : ReportStatus
  startedNs : Nat
  endedNs : Nat
  lostEvents : Nat
  truncated : Bool
  attempts : List AttemptReport
  deriving DecidableEq, Repr

/-- The status of a report: a stream without an end is invalid, and one with losses degraded. -/
def reportStatus (requested : ReportStatus) : Option (UInt64 × Bool) → ReportStatus
  | none => .invalid
  | some (lostEvents, truncated) =>
      if requested ≠ .invalid ∧ (lostEvents ≠ 0 ∨ truncated) then .degraded else requested

def analyzeRecords (records : List EventRecord) (requested : ReportStatus) :
    Except DiagnosticsError Report := do
  let builder ← records.foldlM Builder.observe .init
  let traceEnd := traceEndOf records
  let status := reportStatus requested traceEnd
  let attempts := builder.attempts.mergeSort fun first second => first.startedNs ≤ second.startedNs
  return {
    status := status
    startedNs := builder.startNs
    endedNs := builder.endNs
    lostEvents := (traceEnd.map fun found => found.1.toNat).getD 0
    truncated := (traceEnd.map Prod.snd).getD false
    attempts := attempts.map fun attempt => attempt.report status builder.endNs }

end Anettrace.Diagnose
