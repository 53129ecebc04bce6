import Anettrace.Export.State
import Anettrace.Native.Proto

/-!
# Native tracks and packets

The tracks of a native trace and the packets `src/perfetto_export.c` writes for them. Every track is
created on first use, after its parent, and its descriptor is written at once. A packet keeps its
timestamp, whether it clears the incremental state, and what it carries. The event of a network
packet keeps its bytes; of any other event, the fields that say which slice it opens or closes.
Memory does not run out, so a creator always returns a track.
-/

namespace Anettrace.Native

open Anettrace.Export

/-- `enum native_track_kind`. -/
inductive TrackKind where
  | process | thread | socket | socketPackets | flow | connect | syscall | global
  deriving DecidableEq, Repr, Inhabited

/-- `struct native_track`. -/
structure NativeTrack where
  uuid : UInt64
  object : UInt64
  kind : TrackKind
  active : Bool
  deriving DecidableEq, Repr

/-- The name in a descriptor: a task name, or one of the formats of the creators. -/
inductive TrackName where
  | task (task : List UInt8)
  | pid (tgid : UInt32)
  | tid (tid : UInt32)
  | socket (low : UInt64)
  | connect (low : UInt64)
  | packets (direction : Direction)
  | flow (tag : FlowTag) (protocol : ProtocolName) (localAddr : Address) (localPort : UInt16)
      (remoteAddr : Address) (remotePort : UInt16)
  | syscalls
  | metadata
  deriving DecidableEq, Repr

/-- The fields of a track descriptor. The owner `tgid` and `tid` are written for process and thread
tracks. -/
structure Descriptor where
  uuid : UInt64
  name : TrackName
  parent : UInt64
  kind : TrackKind
  tgid : UInt32
  tid : UInt32
  deriving DecidableEq, Repr

/-- The `type` of a `TrackEvent`: 1, 2 or 3. -/
inductive EventType where
  | sliceBegin | sliceEnd | instant
  deriving DecidableEq, Repr, Inhabited

/-- The code that `native_event_start` writes. -/
def EventType.code : EventType → UInt64
  | .sliceBegin => 1
  | .sliceEnd => 2
  | .instant => 3

/-- What an event is about: its category, told apart by what the event marks where a category serves
several purposes. -/
inductive Category where
  /-- `anettrace.socket`: the lifetime of a socket, on its track. -/
  | socket
  /-- `anettrace.socket`: the allocation of a socket, on the thread that made it. -/
  | allocation
  /-- `anettrace.socket`: any other record about a socket, on the thread it was made in. -/
  | socketEvent
  | socketState | socketFlow | socketIo | flow
  /-- `anettrace.tx.write` and `anettrace.rx.read`. -/
  | io (tx : Bool)
  | ioComplete | ioLink | syscall | syscallComplete | connect | rxHandoff | metadata
  deriving DecidableEq, Repr

/-- The part of a `TrackEvent` that identifies it: its type, its track, its category, and the id of
the flow, call, socket or attempt it is about, which the end of a syscall does not spell out. -/
structure TrackEvent where
  type : EventType
  track : UInt64
  category : Category
  object : UInt64
  deriving DecidableEq, Repr

/-- What a packet of the trace carries. -/
inductive Body where
  | clockSnapshot (monotonicNs boottimeNs realtimeNs : UInt64)
  | descriptor (fields : Descriptor)
  | event (fields : TrackEvent)
  /-- The event of a network packet on a track, as bytes. -/
  | packet (track : UInt64) (data : List UInt8)
  deriving DecidableEq, Repr

/-- A packet of the trace. `cleared` is `SEQ_INCREMENTAL_STATE_CLEARED`, and the timestamp is the
one given to `native_write_packet_at`. -/
structure Packet where
  cleared : Bool
  timestampNs : UInt64
  body : Body
  deriving DecidableEq, Repr

/-- The static variables of the native trace. `out` lists the packets given to
`native_write_packet_at`. -/
structure Trail where
  tracks : List NativeTrack
  sequenceStarted : Bool
  out : List Packet
  deriving DecidableEq, Repr

/-- The trail of a trace that was just opened. -/
def Trail.init : Trail :=
  ⟨[], false, []⟩

/-- `native_sequence_packet` and `native_write_packet_at`. -/
def Trail.writeSequence (trail : Trail) (timestampNs : UInt64) (body : Body) : Trail :=
  { trail with
    sequenceStarted := true
    out := trail.out ++ [⟨!trail.sequenceStarted, timestampNs, body⟩] }

def nativeClockSnapshot (trail : Trail) (monotonicNs boottimeNs realtimeNs : UInt64) : Trail :=
  { trail with
    out := trail.out ++ [⟨false, 0, .clockSnapshot monotonicNs boottimeNs realtimeNs⟩] }

def nativeEventWrite (trail : Trail) (timestampNs : UInt64) (fields : TrackEvent) : Trail :=
  trail.writeSequence timestampNs (.event fields)

def nativePacketWrite (trail : Trail) (timestampNs track : UInt64) (event : ProtoBuffer) : Trail :=
  trail.writeSequence timestampNs (.packet track event.data)

def nativeFindTrack (trail : Trail) (uuid : UInt64) : Option Nat :=
  trail.tracks.findIdx? fun track => track.uuid = uuid

def nativeAddTrack (trail : Trail) (object : UInt64) (descriptor : Descriptor) : Trail × Nat :=
  let added : Trail :=
    { trail with
      tracks := trail.tracks ++ [⟨descriptor.uuid, object, descriptor.kind, false⟩] }
  (added.writeSequence 0 (.descriptor descriptor), trail.tracks.length)

/-! ## Creators -/

def processUuid (salt : UInt64) (tgid : UInt32) : UInt64 :=
  nativeUuid salt "process" tgid.toUInt64 0

def threadUuid (salt : UInt64) (tgid tid : UInt32) : UInt64 :=
  nativeUuid salt "thread" tgid.toUInt64 tid.toUInt64

def socketUuid (salt socketId : UInt64) : UInt64 :=
  nativeUuid salt "socket" socketId 0

def connectUuid (salt attemptId : UInt64) : UInt64 :=
  nativeUuid salt "connect" attemptId 0

def globalUuid (salt : UInt64) : UInt64 :=
  nativeUuid salt "global" 0 0

def flowUuid (salt flowId : UInt64) : UInt64 :=
  nativeUuid salt "flow" flowId 0

def directionCode : Direction → UInt64
  | .unknown => 0
  | .tx => 1
  | .rx => 2

def socketPacketsUuid (salt socketId : UInt64) (direction : Direction) : UInt64 :=
  nativeUuid salt "socket-packets" socketId (directionCode direction)

/-- The uuid of the track of `export_network_syscall`. -/
def syscallsUuid (salt : UInt64) (tgid tid : UInt32) : UInt64 :=
  nativeUuid salt "syscalls" tgid.toUInt64 tid.toUInt64

def cString (buffer : List UInt8) : List UInt8 :=
  buffer.takeWhile (· ≠ 0)

def taskName (task : List UInt8) (fallback : TrackName) : TrackName :=
  if cString task = [] then fallback else .task (cString task)

def nativeProcessTrack (salt : UInt64) (trail : Trail) (tgid : UInt32) (task : List UInt8) :
    Trail × Nat :=
  let uuid := processUuid salt tgid
  match nativeFindTrack trail uuid with
  | some track => (trail, track)
  | none =>
      nativeAddTrack trail tgid.toUInt64 ⟨uuid, taskName task (.pid tgid), 0, .process, tgid, 0⟩

def nativeThreadTrack (salt : UInt64) (trail : Trail) (tgid tid : UInt32) (task : List UInt8) :
    Trail × Nat :=
  let uuid := threadUuid salt tgid tid
  match nativeFindTrack trail uuid with
  | some track => (trail, track)
  | none =>
      let (trail, _) := nativeProcessTrack salt trail tgid task
      nativeAddTrack trail (threadWord tgid tid)
        ⟨uuid, taskName task (.tid tid), processUuid salt tgid, .thread, tgid, tid⟩

/-- `native_socket_track`. Socket ownership must not come from a packet's softirq context. -/
def nativeSocketTrack (salt : UInt64) (trail : Trail) (socketId : UInt64) (tgid : UInt32)
    (task : List UInt8) : Trail × Nat :=
  let uuid := socketUuid salt socketId
  match nativeFindTrack trail uuid with
  | some track => (trail, track)
  | none =>
      let trail := if tgid ≠ 0 then (nativeProcessTrack salt trail tgid task).1 else trail
      let parent := if tgid ≠ 0 then processUuid salt tgid else 0
      nativeAddTrack trail socketId
        ⟨uuid, .socket (socketId &&& 0xffffffff), parent, .socket, tgid, 0⟩

def nativeConnectTrack (salt : UInt64) (trail : Trail) (attemptId : UInt64) (tgid tid : UInt32)
    (task : List UInt8) : Trail × Nat :=
  let uuid := connectUuid salt attemptId
  match nativeFindTrack trail uuid with
  | some track => (trail, track)
  | none =>
      let (trail, _) := nativeThreadTrack salt trail tgid tid task
      nativeAddTrack trail attemptId
        ⟨uuid, .connect (attemptId &&& 0xffffffff), threadUuid salt tgid tid, .connect, tgid, tid⟩

def nativeGlobalTrack (salt : UInt64) (trail : Trail) : Trail × Nat :=
  let uuid := globalUuid salt
  match nativeFindTrack trail uuid with
  | some track => (trail, track)
  | none => nativeAddTrack trail 0 ⟨uuid, .metadata, 0, .global, 0, 0⟩

def nativeSocketPacketTrack (salt : UInt64) (trail : Trail) (socketId : UInt64)
    (ownerTgid : UInt32) (direction : Direction) : Trail × Nat :=
  let uuid := socketPacketsUuid salt socketId direction
  match nativeFindTrack trail uuid with
  | some track => (trail, track)
  | none =>
      let (trail, _) := nativeSocketTrack salt trail socketId ownerTgid []
      nativeAddTrack trail socketId
        ⟨uuid, .packets direction, socketUuid salt socketId, .socketPackets, 0, 0⟩

end Anettrace.Native
