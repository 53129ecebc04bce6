import Anettrace.Trim.Wire

/-!
# The trimmer

Model of `src/perfetto_trim.c` above its wire reader. A file descriptor is the list of the bytes
still to be read, or of the bytes written; reads and writes do not fail, and memory suffices.
-/

namespace Anettrace.Trim

open Library

def clockBoottime : Nat := 6

def clockMonotonic : Nat := 3

def messageVarint (message : List UInt8) (number : Nat) : Except Errno (Option Nat) :=
  forFields (fun found field =>
    .ok (if field.number = number ∧ field.wire = 0 then some field.value else found)) none message

def eventTimestamp (event : WireField) : Except Errno (Option Nat) :=
  messageVarint event.payload 1

/-- `struct clock_default`. -/
structure ClockDefault where
  sequenceId : Nat
  clockId : Nat
  deriving DecidableEq, Repr

/-- `struct trim_state`: the list from `clock_defaults` on. -/
abbrev TrimState := List ClockDefault

def clockDefaultGet (sequenceId : Nat) : TrimState → Option Nat
  | [] => none
  | entry :: next =>
      if entry.sequenceId ≠ sequenceId then clockDefaultGet sequenceId next else some entry.clockId

/-- The search of `clock_default_set` for an entry to overwrite. -/
def clockDefaultUpdate (sequenceId clockId : Nat) : TrimState → Option TrimState
  | [] => none
  | entry :: next =>
      if entry.sequenceId = sequenceId then some ({ entry with clockId := clockId } :: next)
      else (clockDefaultUpdate sequenceId clockId next).map (entry :: ·)

def clockDefaultSet (state : TrimState) (sequenceId clockId : Nat) : TrimState :=
  match clockDefaultUpdate sequenceId clockId state with
  | some state => state
  | none => ⟨sequenceId, clockId⟩ :: state

/-- The body of the loop of `trim_ftrace_bundle`. -/
def bundleField (cutoffNs : Nat) (trimmed : List UInt8) (field : WireField) :
    Except Errno (List UInt8) :=
  if field.number = 4 then .error .enotsup
  else if field.number ≠ 2 ∨ field.wire ≠ 2 then .ok (trimmed ++ field.bytes)
  else
    match eventTimestamp field with
    | .error err => .error err
    | .ok none => .ok (trimmed ++ field.bytes)
    | .ok (some timestamp) =>
        if timestamp ≥ cutoffNs then .ok (trimmed ++ field.bytes) else .ok trimmed

def trimFtraceBundle (bundle : WireField) (cutoffNs : Nat) : Except Errno (List UInt8) :=
  forFields (bundleField cutoffNs) [] bundle.payload

/-- What `packet_metadata` returns through its pointers. -/
structure Metadata where
  timestamp : Nat
  clockId : Nat
  sequenceId : Nat
  defaultClockId : Nat
  hasTimestamp : Bool
  hasFtrace : Bool
  hasSequence : Bool
  hasDefaultClock : Bool
  deriving DecidableEq, Repr

/-- The values `trim_packet` and `packet_metadata` set before the loop. -/
def Metadata.init : Metadata :=
  ⟨0, 0, 0, 0, false, false, false, false⟩

/-- The body of the loop of `packet_metadata`. -/
def metadataField (metadata : Metadata) (field : WireField) : Except Errno Metadata :=
  if field.number = 8 ∧ field.wire = 0 then
    .ok { metadata with timestamp := field.value, hasTimestamp := true }
  else if field.number = 58 ∧ field.wire = 0 then .ok { metadata with clockId := field.value }
  else if field.number = 10 ∧ field.wire = 0 then
    .ok { metadata with sequenceId := field.value, hasSequence := true }
  else if field.number = 1 ∧ field.wire = 2 then .ok { metadata with hasFtrace := true }
  else if field.number = 59 ∧ field.wire = 2 then
    match messageVarint field.payload 58 with
    | .error err => .error err
    | .ok none => .ok { metadata with hasDefaultClock := false }
    | .ok (some clockId) =>
        .ok { metadata with defaultClockId := clockId, hasDefaultClock := true }
  else if field.number = 50 ∨ field.number = 133 then .error .eprotonosupport
  else .ok metadata

def packetMetadata (packet : List UInt8) : Except Errno Metadata :=
  forFields metadataField .init packet

/-- The body of the second loop of `trim_packet`. -/
def packetField (boottimeCutoffNs : Nat) (trimmed : List UInt8) (field : WireField) :
    Except Errno (List UInt8) :=
  if field.number = 1 ∧ field.wire = 2 then
    match trimFtraceBundle field boottimeCutoffNs with
    | .error err => .error err
    | .ok bundle =>
        .ok (trimmed ++ bufferVarint field.key ++ bufferVarint bundle.length ++ bundle)
  else .ok (trimmed ++ field.bytes)

def dropsPacket (boottimeCutoffNs monotonicCutoffNs : Nat) (state : TrimState)
    (metadata : Metadata) : Bool :=
  let clockId :=
    if metadata.clockId = 0 ∧ metadata.hasSequence then
      (clockDefaultGet metadata.sequenceId state).getD metadata.clockId
    else metadata.clockId
  !metadata.hasFtrace && metadata.hasTimestamp &&
    (((clockId = 0 || clockId = clockBoottime) && metadata.timestamp < boottimeCutoffNs) ||
      (clockId = clockMonotonic && metadata.timestamp < monotonicCutoffNs))

def trimPacket (boottimeCutoffNs monotonicCutoffNs : Nat) (state : TrimState)
    (packet : List UInt8) : Except Errno (TrimState × Option (List UInt8)) :=
  match packetMetadata packet with
  | .error err => .error err
  | .ok metadata =>
      let state :=
        if metadata.hasSequence ∧ metadata.hasDefaultClock then
          clockDefaultSet state metadata.sequenceId metadata.defaultClockId
        else state
      if dropsPacket boottimeCutoffNs monotonicCutoffNs state metadata then .ok (state, none)
      else
        match forFields (packetField boottimeCutoffNs) [] packet with
        | .error err => .error err
        | .ok trimmed => .ok (state, some trimmed)

def readVarintFdFrom (shift result : Nat) :
    List UInt8 → Except Errno (Option (Nat × List UInt8))
  | [] => if shift = 0 then .ok none else .error .ebadmsg
  | byte :: input =>
      if shift ≥ 64 then .error .ebadmsg
      else if shift = 63 ∧ byte > 1 then .error .ebadmsg
      else
        let result := result ||| ((byte.toNat &&& 0x7f) <<< shift)
        if byte &&& 0x80 = 0 then .ok (some (result, input))
        else readVarintFdFrom (shift + 7) result input

def readVarintFd (input : List UInt8) : Except Errno (Option (Nat × List UInt8)) :=
  readVarintFdFrom 0 0 input

def writeVarintFd (value : Nat) : List UInt8 :=
  Varint.encode 10 value

/-- The loop of `trim_stream_packets`: what it writes, and its error. Every packet takes at least
two bytes, so more rounds than there are bytes are enough. -/
def trimStreamIn (boottimeCutoffNs monotonicCutoffNs : Nat) :
    Nat → TrimState → List UInt8 → List UInt8 × Option Errno
  | 0, _, _ => ([], some .ebadmsg)
  | rounds + 1, state, input =>
      match readVarintFd input with
      | .error err => ([], some err)
      | .ok none => ([], none)
      | .ok (some (key, input)) =>
          if key ≠ (1 <<< 3 ||| 2) then ([], some .ebadmsg)
          else
            match readVarintFd input with
            | .error err => ([], some err)
            | .ok none => ([], some .eoverflow)
            | .ok (some (size, input)) =>
                if input.length < size then ([], some .ebadmsg)
                else
                  match trimPacket boottimeCutoffNs monotonicCutoffNs state (input.take size) with
                  | .error err => ([], some err)
                  | .ok (state, none) =>
                      trimStreamIn boottimeCutoffNs monotonicCutoffNs rounds state
                        (input.drop size)
                  | .ok (state, some trimmed) =>
                      let next := trimStreamIn boottimeCutoffNs monotonicCutoffNs rounds state
                        (input.drop size)
                      (writeVarintFd key ++ writeVarintFd trimmed.length ++ trimmed ++ next.1,
                        next.2)

def perfettoTrimStream (boottimeCutoffNs monotonicCutoffNs : Nat) (input : List UInt8) :
    List UInt8 × Option Errno :=
  trimStreamIn boottimeCutoffNs monotonicCutoffNs (input.length + 1) [] input

end Anettrace.Trim
