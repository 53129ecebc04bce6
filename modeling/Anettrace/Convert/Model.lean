import Anettrace.Capture.Model

/-!
# The converter

Model of what `tools/anettrace_to_perfetto.py` makes of the lifetimes of sockets and connect
attempts in a JSONL file. The sets of `PerfettoExporter` are lists without repetition, and `order`
is the order in which Python happens to visit a set. The other slices of the trace are left out.
-/

namespace Anettrace.Convert

open Anettrace.Export Anettrace.Native Anettrace.Capture Library.Run

/-- What a track of the converter stands for. -/
inductive Subject where
  | socket (socketId : UInt64)
  | attempt (attemptId : UInt64)
  deriving DecidableEq, Repr

/-- `TrackEvent.TYPE_SLICE_BEGIN` or `TYPE_SLICE_END` on the track of a subject. -/
structure Slice where
  ts : UInt64
  subject : Subject
  begins : Bool
  deriving DecidableEq, Repr

/-- The fields of `PerfettoExporter` that decide which lifetimes begin and end. -/
structure Converter where
  socketLifetimes : List UInt64
  closedSockets : List UInt64
  activeConnects : List UInt64
  slices : List Slice
  deriving DecidableEq, Repr

/-- The converter before the first record. -/
def Converter.init : Converter :=
  ⟨[], [], [], []⟩

/-- `self.event` with a slice. -/
def Converter.event (converter : Converter) (ts : UInt64) (subject : Subject) (begins : Bool) :
    Converter :=
  { converter with slices := converter.slices ++ [⟨ts, subject, begins⟩] }

def Converter.exportSocketCreate (converter : Converter) (startTs ts socketId : UInt64) :
    Converter :=
  let closed :=
    if socketId ∈ converter.socketLifetimes then converter.event startTs (.socket socketId) false
    else converter
  let opened := closed.event ts (.socket socketId) true
  { opened with
    socketLifetimes := opened.socketLifetimes.insert socketId
    closedSockets := opened.closedSockets.erase socketId }

def Converter.exportSocketRecord (converter : Converter) (ts socketId : UInt64) (terminal : Bool) :
    Converter :=
  let opened :=
    if socketId ∉ converter.socketLifetimes ∧ socketId ∉ converter.closedSockets ∧ !terminal then
      { converter.event ts (.socket socketId) true with
        socketLifetimes := converter.socketLifetimes.insert socketId }
    else converter
  if terminal then
    let closed :=
      if socketId ∈ opened.socketLifetimes then
        { opened.event ts (.socket socketId) false with
          socketLifetimes := opened.socketLifetimes.erase socketId }
      else opened
    { closed with closedSockets := closed.closedSockets.insert socketId }
  else opened

def Converter.exportSocketState : Converter → UInt64 → UInt64 → Bool → Converter :=
  Converter.exportSocketRecord

def Converter.exportSocketEvent : Converter → UInt64 → UInt64 → Bool → Converter :=
  Converter.exportSocketRecord

def shouldClose (kind : ConnectKind) (error : Int64) (asyncPending : Bool) : Bool :=
  match kind with
  | .soError => error ≠ 114 && error ≠ 115
  | .cancel => true
  | .result => !asyncPending
  | .start | .socket | .other => false

def Converter.exportConnectEvent (converter : Converter) (kind : ConnectKind)
    (ts attemptId : UInt64)
    (error : Int64) (asyncPending : Bool) : Converter :=
  if kind = .start then
    { converter.event ts (.attempt attemptId) true with
      activeConnects := converter.activeConnects.insert attemptId }
  else if shouldClose kind error asyncPending ∧ attemptId ∈ converter.activeConnects then
    { converter.event ts (.attempt attemptId) false with
      activeConnects := converter.activeConnects.erase attemptId }
  else converter

/-- The branch of `serialize` for `trace_end`. -/
def Converter.exportTraceEnd (order : List UInt64 → List UInt64) (converter : Converter)
    (ts : UInt64) : Converter :=
  if ts = 0 then converter
  else
    { converter with
      socketLifetimes := []
      activeConnects := []
      slices := converter.slices ++
        (order converter.socketLifetimes).map (fun socketId => ⟨ts, .socket socketId, false⟩) ++
        (order converter.activeConnects).map (fun attemptId => ⟨ts, .attempt attemptId, false⟩) }

/-- The body of the loop of `serialize` over the records. In tags mode the lifetime of a socket is
not shown when it is created, and records of its life are left out. -/
def Converter.step (order : List UInt64 → List UInt64) (traceTags : Bool) (converter : Converter) :
    Line → Converter
  | .socketCreate startTs ts socketId =>
      if traceTags then converter else converter.exportSocketCreate startTs ts socketId
  | .socketState ts socketId terminal =>
      if traceTags then converter else converter.exportSocketState ts socketId terminal
  | .socketEvent ts socketId terminal =>
      if traceTags then converter else converter.exportSocketEvent ts socketId terminal
  | .connect kind ts attemptId _ error asyncPending =>
      if traceTags then converter
      else converter.exportConnectEvent kind ts attemptId error asyncPending
  | .record (.traceEnd fields) => converter.exportTraceEnd order fields.ts
  | .record _ | .clockSnapshot _ _ _ | .other _ => converter

def Converter.after (order : List UInt64 → List UInt64) (traceTags : Bool) (lines : List Line) :
    Converter :=
  run (Converter.step order traceTags) Converter.init lines

/-! ## Orders of sets -/

/-- The order in which Python visits a set: some order of all its elements. -/
def VisitsAll (order : List UInt64 → List UInt64) : Prop :=
  ∀ ids, (order ids).Perm ids

end Anettrace.Convert
