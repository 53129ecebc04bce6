import Anettrace.Convert.JsonRecords
import Anettrace.Library.Command

/-!
# The whole converter

Model of `PerfettoExporter.serialize` in `tools/anettrace_to_perfetto.py`: the packets of a Perfetto
trace, with the tracks that are described, the slices and instants on them, and the ids of their
flows. What only a reader sees is left out: names, categories, annotations, and the labels of flows.
An exception ends the conversion, and no file is written.
-/

namespace Anettrace.Convert

open Anettrace.Native (ConnectKind)
open Library Library.Command

/-- `TrackEvent.Type` -/
inductive EventType where
  | sliceBegin | sliceEnd | instant
  deriving DecidableEq, Repr

/-- A `TrackEvent` and the time of its packet. -/
structure TrackEvent where
  ts : Int
  trackUuid : Nat
  type : EventType
  flowIds : List Int
  terminatingFlowIds : List Int
  correlationId : Option Int
  deriving DecidableEq, Repr

/-- A packet of the trace. One of the sequence tells whether the incremental state is cleared before
it; a parent of 0 is none. -/
inductive Packet where
  | clock (realtimeNs monotonicNs boottimeNs : Int)
  | track (clears : Bool) (uuid parentUuid : Nat)
  | event (clears : Bool) (event : TrackEvent)
  deriving DecidableEq, Repr

/-- The key of `pending_io`. -/
structure IoKey where
  way : Way
  id : String
  tid : Int
  deriving DecidableEq, Repr

/-- What is known of slices that are open. -/
structure Books where
  socketLifetimes : List String := []
  closedSockets : List String := []
  pendingIo : List (IoKey × Nat) := []
  connectSockets : Keyed String String := .empty
  activeConnects : List String := []

/-- `PerfettoExporter`, as far as it changes. -/
structure PerfettoExporter where
  packets : List Packet := []
  descriptors : List Nat := []
  processTracks : Keyed Int Nat := .empty
  threadTracks : Keyed (Int × Int) Nat := .empty
  socketTracks : Keyed String Nat := .empty
  flowTracks : Keyed String Nat := .empty
  connectTracks : Keyed String Nat := .empty
  clockMonotonicNs : List Int := []
  sequenceStarted : Bool := false
  packetNavigationSerial : Nat := 0
  books : Books := {}

/-- What `__init__` finds out. -/
structure Setup where
  python : Python
  traceTags : Bool
  evidence : SocketEvidence

/-- A part of the exporter, which may fail. -/
abbrev Export := StateT PerfettoExporter (Except Failure)

namespace PerfettoExporter

def sequencePacket (packet : Bool → Packet) (exporter : PerfettoExporter) : PerfettoExporter :=
  { exporter with
    packets := exporter.packets ++ [packet !exporter.sequenceStarted]
    sequenceStarted := true }

/-- A track gets its descriptor. -/
def addDescriptor (uuid : Nat) (exporter : PerfettoExporter) : PerfettoExporter :=
  { exporter with descriptors := uuid :: exporter.descriptors }

/-- A process gets its track. -/
def addProcess (tgid : Int) (uuid : Nat) (exporter : PerfettoExporter) : PerfettoExporter :=
  { exporter with processTracks := exporter.processTracks.put tgid uuid }

/-- A thread gets its track. -/
def addThread (key : Int × Int) (uuid : Nat) (exporter : PerfettoExporter) : PerfettoExporter :=
  { exporter with threadTracks := exporter.threadTracks.put key uuid }

/-- A socket gets its track. -/
def addSocket (socketId : String) (uuid : Nat) (exporter : PerfettoExporter) : PerfettoExporter :=
  { exporter with socketTracks := exporter.socketTracks.put socketId uuid }

/-- A flow gets its track. -/
def addFlow (flowId : String) (uuid : Nat) (exporter : PerfettoExporter) : PerfettoExporter :=
  { exporter with flowTracks := exporter.flowTracks.put flowId uuid }

/-- An attempt gets its track. -/
def addConnect (attemptId : String) (uuid : Nat) (exporter : PerfettoExporter) : PerfettoExporter :=
  { exporter with connectTracks := exporter.connectTracks.put attemptId uuid }

/-- A clock snapshot is written. -/
def addClock (packet : Packet) (monotonicNs : Int) (exporter : PerfettoExporter) :
    PerfettoExporter :=
  { exporter with
    packets := exporter.packets ++ [packet]
    clockMonotonicNs := exporter.clockMonotonicNs ++ [monotonicNs] }

/-- `capture_start_monotonic_ns` -/
def captureStart (exporter : PerfettoExporter) : Int :=
  exporter.clockMonotonicNs.head?.getD 0

def nextNavigation (exporter : PerfettoExporter) : PerfettoExporter :=
  { exporter with packetNavigationSerial := exporter.packetNavigationSerial + 1 }

def withBooks (change : Books → Books) (exporter : PerfettoExporter) : PerfettoExporter :=
  { exporter with books := change exporter.books }

end PerfettoExporter

open PerfettoExporter

/-! ## Tracks -/

/-- `record[key]` of a number. -/
def required (value : Option Int) : Except Failure Int :=
  match value with
  | some value => .ok value
  | none => .error .missingField

def addClockSnapshot (record : JsonRecord) : Export Unit :=
  modify (addClock (.clock record.realtimeNs record.monotonicNs record.boottimeNs)
    record.monotonicNs)

/-- `descriptor`: whether it is a new one. -/
def descriptor (uuid parentUuid : Nat) : Export Bool := do
  let exporter ← get
  if uuid ∈ exporter.descriptors then return false
  else
    modify (sequencePacket fun clears => .track clears uuid parentUuid)
    modify (addDescriptor uuid)
    return true

def newDescriptor (uuid parentUuid : Nat) : Export Unit := do
  if ← descriptor uuid parentUuid then return ⟨⟩ else throw .uuidTaken

/-- The track that is known, or a new one. -/
def cached (known : PerfettoExporter → Option Nat) (make : Export Nat) : Export Nat := do
  let exporter ← get
  match known exporter with
  | some uuid => return uuid
  | none => make

variable (setup : Setup)

def processTrack (tgid : Int) : Export Nat :=
  cached (fun exporter => exporter.processTracks tgid) do
    let uuid := setup.python.stableUuid (.process tgid)
    newDescriptor uuid 0
    modify (addProcess tgid uuid)
    return uuid

def threadTrack (record : JsonRecord) : Export Nat :=
  cached (fun exporter => exporter.threadTracks (record.tgid, record.tid)) do
    let process ← processTrack setup record.tgid
    let uuid := setup.python.stableUuid (.thread record.tgid record.tid)
    newDescriptor uuid process
    modify (addThread (record.tgid, record.tid) uuid)
    return uuid

/-- The track of the process that owns a socket, 0 if nobody is known to. -/
def ownerTrack (socket : Int) : Export Nat :=
  match setup.evidence.socketOwners socket with
  | some (tgid, _) => processTrack setup tgid
  | none => return 0

def socketTrack (socketId : String) : Export Nat :=
  cached (fun exporter => exporter.socketTracks socketId) do
    let socket ← idValue setup.python socketId
    let parent ← ownerTrack setup socket
    let uuid := setup.python.stableUuid (.socket socket)
    let _ ← descriptor uuid parent
    modify (addSocket socketId uuid)
    return uuid

/-- `f"{value:016x}"` -/
def hexText (value : Int) : String :=
  let digits := Nat.toDigits 16 value.natAbs
  if value < 0 then String.ofList ('-' :: (List.replicate (15 - digits.length) '0' ++ digits))
  else String.ofList (List.replicate (16 - digits.length) '0' ++ digits)

def socketPacketTrack (socket : Int) (record : JsonRecord) : Export Nat := do
  let parent ← socketTrack setup (hexText socket)
  let uuid := setup.python.stableUuid (.socketPackets socket record.way)
  let _ ← descriptor uuid parent
  return uuid

/-- The parent of the track of a flow: its socket, or the process that owns it. -/
def flowParent (record : JsonRecord) : Export Nat := do
  if record.socketId = "" then processTrack setup (record.ownerTgid.getD record.tgid)
  else
    let socket ← idValue setup.python record.socketId
    if socket = 0 then processTrack setup (record.ownerTgid.getD record.tgid)
    else socketTrack setup record.socketId

def flowTrack (record : JsonRecord) : Export Nat :=
  cached (fun exporter => exporter.flowTracks record.flowId) do
    let parent ← flowParent setup record
    let uuid := setup.python.stableUuid (.flow record.flowId)
    let _ ← descriptor uuid parent
    modify (addFlow record.flowId uuid)
    return uuid

def connectTrack (attemptId : String) (record : JsonRecord) : Export Nat :=
  cached (fun exporter => exporter.connectTracks attemptId) do
    let parent ← threadTrack setup record
    let uuid := setup.python.stableUuid (.connect attemptId)
    let _ ← descriptor uuid parent
    modify (addConnect attemptId uuid)
    return uuid

/-! ## Events -/

/-- The flows of an event. -/
structure EventFlow where
  flowId : Option Int := none
  terminating : Bool := false
  linked : List Int := []
  correlationId : Option Int := none

def truthy (value : Option Int) : Option Int :=
  value.filter (· ≠ 0)

def linkFlows (flowIds : List Int) (linked : List Int) : List Int :=
  linked.foldl (fun ids id => if id ≠ 0 ∧ id ∉ ids then ids ++ [id] else ids) flowIds

def trackEvent (ts : Int) (track : Nat) (type : EventType) (flow : EventFlow) : TrackEvent where
  ts := ts
  trackUuid := track
  type := type
  flowIds :=
    if setup.traceTags then []
    else linkFlows (if flow.terminating then [] else (truthy flow.flowId).toList) flow.linked
  terminatingFlowIds :=
    if setup.traceTags then [] else if flow.terminating then (truthy flow.flowId).toList else []
  correlationId := truthy flow.correlationId

def timestamp (monotonicNs : Option Int) : Export Int := do
  let exporter ← get
  let monotonicNs ← required monotonicNs
  match exporter.clockMonotonicNs.head? with
  | none => throw .noClock
  | some first => if monotonicNs < first then throw .beforeFirstClock else return monotonicNs

def event (ts : Option Int) (track : Nat) (type : EventType) (flow : EventFlow := {}) :
    Export Unit := do
  let ts ← timestamp ts
  modify (sequencePacket fun clears => .event clears (trackEvent setup ts track type flow))

/-- The ids of a record that an event is linked to. -/
def linkedIds (texts : List String) : Except Failure (List Int) := do
  let ids ← texts.mapM (nonzeroId setup.python)
  return ids.reduceOption

def presentId (text : String) : Except Failure (Option Int) :=
  if text = "" then .ok none else (idValue setup.python text).map some

def chainRecord (record : JsonRecord) : Except Failure JsonRecord := do
  let _ ← nonzeroId setup.python record.flowId
  match ← nonzeroId setup.python record.socketId with
  | some _ => return record
  | none =>
      match ← nonzeroId setup.python record.ownerSocketId with
      | some _ => return { record with socketId := record.ownerSocketId }
      | none => return record

/-! ## Sockets -/

namespace Books

def openLifetime (socketId : String) (books : Books) : Books :=
  { books with socketLifetimes := books.socketLifetimes.insert socketId }

def closeLifetime (socketId : String) (books : Books) : Books :=
  { books with socketLifetimes := books.socketLifetimes.erase socketId }

/-- The lifetime of a socket is open again. -/
def reopen (socketId : String) (books : Books) : Books :=
  { books with closedSockets := books.closedSockets.erase socketId }

def close (socketId : String) (books : Books) : Books :=
  { books with closedSockets := books.closedSockets.insert socketId }

end Books

def exportSocketCreate (record : JsonRecord) : Export Unit := do
  let thread ← threadTrack setup record
  let flowId ← idValue setup.python record.socketId
  event setup record.startTsNs thread .sliceBegin { flowId := flowId }
  event setup record.tsNs thread .sliceEnd { flowId := flowId }
  if setup.traceTags then return ⟨⟩
  else
    let socket ← socketTrack setup record.socketId
    let exporter ← get
    runIf (record.socketId ∈ exporter.books.socketLifetimes)
      (event setup record.startTsNs socket .sliceEnd { flowId := flowId, terminating := true })
    event setup record.tsNs socket .sliceBegin { flowId := flowId }
    modify (withBooks (Books.openLifetime record.socketId))
    modify (withBooks (Books.reopen record.socketId))

def beginLifetime (record : JsonRecord) (socket : Nat) : Export Unit := do
  let exporter ← get
  if record.socketId ∉ exporter.books.socketLifetimes ∧
    record.socketId ∉ exporter.books.closedSockets ∧
      record.terminal = false then
    let flowId ← idValue setup.python record.socketId
    event setup record.tsNs socket .sliceBegin { flowId := flowId }
    modify (withBooks (Books.openLifetime record.socketId))
  else return ⟨⟩

/-- `self.event` with the end of a lifetime, and `socket_lifetimes.remove`. -/
def closeSocket (ts : Option Int) (socketId : String) (socket : Nat) : Export Unit := do
  let flowId ← idValue setup.python socketId
  event setup ts socket .sliceEnd { flowId := flowId, terminating := true }
  modify (withBooks (Books.closeLifetime socketId))

def endLifetime (record : JsonRecord) (socket : Nat) : Export Unit := do
  if record.terminal then
    let exporter ← get
    runIf (record.socketId ∈ exporter.books.socketLifetimes)
      (closeSocket setup record.tsNs record.socketId socket)
    modify (withBooks (Books.close record.socketId))
  else return ⟨⟩

def exportSocketState (record : JsonRecord) : Export Unit := do
  let record ← chainRecord setup record
  let socket ← socketTrack setup record.socketId
  beginLifetime setup record socket
  let flowId ← idValue setup.python record.socketId
  event setup record.tsNs socket .instant { flowId := flowId }
  endLifetime setup record socket

def exportSocketEvent (record : JsonRecord) : Export Unit := do
  let record ← chainRecord setup record
  let socket ← socketTrack setup record.socketId
  beginLifetime setup record socket
  let thread ← threadTrack setup record
  let flowId ← idValue setup.python record.socketId
  event setup record.tsNs thread .instant { flowId := flowId, terminating := record.terminal }
  endLifetime setup record socket

/-! ## Packets -/

/-- What is before the first `.` of a stage. -/
def stageBase (stage : String) : List Char :=
  stage.toList.takeWhile (· ≠ '.')

/-- The stages of ICMP packets that are shown in tags mode. -/
def icmpStages : List (List Char) :=
  ["ip_output".toList, "ip6_output".toList, "icmp_rcv".toList, "icmpv6_rcv".toList,
    "ICMP packet send".toList, "ICMP packet receive".toList, "ICMPv6 packet send".toList,
    "ICMPv6 packet receive".toList]

/-- A packet that is shown in tags mode. -/
def tagged (record : JsonRecord) : Bool :=
  packetFlowAnchor record ||
    ((record.protoL4 = 1 || record.protoL4 = 58) && icmpStages.contains (stageBase record.stage))

def mirrorPacket (record : JsonRecord) (socket : Int) (navigation : Nat) : Export Unit := do
  let track ← socketPacketTrack setup socket record
  event setup record.tsNs track .instant { flowId := some navigation, terminating := true }

/-- The event of a packet on the track of its thread. -/
def threadPacket (record : JsonRecord) (thread : Nat) (linked : List Int) : Export Unit := do
  let packetId ← idValue setup.python record.packetId
  let correlation ← presentId setup record.flowId
  event setup record.tsNs thread .instant
    { flowId := packetId, terminating := record.terminal, linked := linked,
      correlationId := correlation }

def exportPacketEvent (record : JsonRecord) : Export Unit := do
  if setup.traceTags && !tagged record then return ⟨⟩
  else
    let _ ← chainRecord setup record
    let thread ← threadTrack setup record
    match ← packetSocketId setup.python setup.evidence record with
    | none => threadPacket setup record thread []
    | some socket =>
        if setup.traceTags then threadPacket setup record thread []
        else
          modify nextNavigation
          let exporter ← get
          let navigation := setup.python.stableUuid (.navigation exporter.packetNavigationSerial)
          threadPacket setup record thread [(navigation : Int)]
          mirrorPacket setup record socket navigation

def exportPacketIoLink (record : JsonRecord) : Export Unit := do
  let record ← chainRecord setup record
  let thread ← threadTrack setup record
  let linked ← linkedIds setup [record.packetId, record.ioId, record.callId]
  event setup record.tsNs thread .instant { linked := linked }

def exportSocketFlowLink (record : JsonRecord) : Export Unit := do
  let record ← chainRecord setup record
  let socket ← socketTrack setup record.socketId
  let linked ← linkedIds setup [record.socketId, record.flowId]
  event setup record.tsNs socket .instant { linked := linked }

def exportIoComplete (record : JsonRecord) : Export Unit := do
  let record ← chainRecord setup record
  let thread ← threadTrack setup record
  let flowId ← nonzeroId setup.python record.ioId
  let linked ← linkedIds setup [record.callId]
  event setup record.tsNs thread .instant
    { flowId := flowId, terminating := true, linked := linked }

def exportRxHandoff (record : JsonRecord) : Export Unit := do
  let record ← chainRecord setup record
  let thread ← threadTrack setup record
  let linked ← linkedIds setup [record.socketId]
  event setup record.tsNs thread .instant { linked := linked }

/-! ## Connect attempts -/

namespace Books

/-- An attempt is in progress. -/
def addActive (attemptId : String) (books : Books) : Books :=
  { books with activeConnects := books.activeConnects.insert attemptId }

/-- An attempt is over. -/
def removeActive (attemptId : String) (books : Books) : Books :=
  { books with activeConnects := books.activeConnects.erase attemptId }

def nameSocket (socketId attemptId : String) (books : Books) : Books :=
  { books with connectSockets := books.connectSockets.put socketId attemptId }

end Books

def firstText (texts : List String) : String :=
  (texts.find? (· ≠ "")).getD ""

def Books.attemptId (books : Books) (record : JsonRecord) : String :=
  if record.attemptId ≠ "" then record.attemptId
  else
    (books.connectSockets (firstText [record.socketInstanceId, record.socketId,
      record.ownerSocketId])).getD ""

/-- `self.event` with the end of an attempt, and `active_connects.remove`. -/
def closeConnect (ts : Option Int) (attemptId : String) (track : Nat) : Export Unit := do
  let flowId ← idValue setup.python attemptId
  event setup ts track .sliceEnd { flowId := flowId, terminating := true }
  modify (withBooks (Books.removeActive attemptId))

def exportAttempt (kind : ConnectKind) (record : JsonRecord) (attemptId : String) :
    Export Unit := do
  let track ← connectTrack setup attemptId record
  let flowId ← idValue setup.python attemptId
  if kind = .start then
    event setup record.tsNs track .sliceBegin { flowId := flowId, correlationId := flowId }
    modify (withBooks (Books.addActive attemptId))
  else
    runIf (kind = .socket) (modify (withBooks (Books.nameSocket record.socketInstanceId attemptId)))
    event setup record.tsNs track .instant { flowId := flowId, correlationId := flowId }
    let exporter ← get
    runIf (shouldClose kind record.error record.asyncPending ∧
      attemptId ∈ exporter.books.activeConnects)
      (closeConnect setup record.tsNs attemptId track)

def exportConnectEvent (kind : ConnectKind) (record : JsonRecord) : Export Unit := do
  let exporter ← get
  if exporter.books.attemptId record = "" then return ⟨⟩
  else exportAttempt setup kind record (exporter.books.attemptId record)

def exportConnectSocketState (record : JsonRecord) : Export Unit := do
  let exporter ← get
  if exporter.books.attemptId record = "" then return ⟨⟩
  else
    let track ← connectTrack setup (exporter.books.attemptId record) record
    let flowId ← idValue setup.python (exporter.books.attemptId record)
    event setup record.tsNs track .instant { flowId := flowId, correlationId := flowId }

/-! ## Flows -/

def exportFlowStart (record : JsonRecord) : Export Unit := do
  let track ← flowTrack setup record
  let flowId ← idValue setup.python record.flowId
  event setup record.tsNs track .sliceBegin { flowId := flowId, correlationId := flowId }

def exportFlowEnd (record : JsonRecord) : Export Unit := do
  let exporter ← get
  let track ← flowTrack setup record
  let flowId ← idValue setup.python record.flowId
  runIf (exporter.flowTracks record.flowId = none)
    (event setup (record.firstTsNs.orElse fun _ => record.tsNs) track .sliceBegin
      { flowId := flowId, correlationId := flowId })
  event setup record.tsNs track .sliceEnd
    { flowId := flowId, terminating := true, correlationId := flowId }

/-! ## I/O and system calls -/

def pendingTrack (key : IoKey) (pending : List (IoKey × Nat)) : Option Nat :=
  (pending.find? fun entry => entry.1 = key).map Prod.snd

def putPending (key : IoKey) (track : Nat) : List (IoKey × Nat) → List (IoKey × Nat)
  | [] => [(key, track)]
  | entry :: rest => if entry.1 = key then (key, track) :: rest
      else entry :: putPending key track rest

def popPending (key : IoKey) (pending : List (IoKey × Nat)) : List (IoKey × Nat) :=
  pending.eraseP fun entry => entry.1 = key

namespace Books

/-- A call is pending. -/
def putIo (key : IoKey) (track : Nat) (books : Books) : Books :=
  { books with pendingIo := putPending key track books.pendingIo }

/-- A call is over. -/
def popIo (key : IoKey) (books : Books) : Books :=
  { books with pendingIo := popPending key books.pendingIo }

/-- No call is pending. -/
def clearIo (books : Books) : Books :=
  { books with pendingIo := [] }

end Books

/-- The key of an I/O call. -/
def ioKey (way : Way) (record : JsonRecord) : IoKey where
  way := way
  id := firstText [record.ioId, record.stage]
  tid := record.tid

/-- The event of an I/O call on the track of its socket. -/
def socketIo (record : JsonRecord) : Export Unit := do
  let linked ← linkedIds setup [record.socketId, record.ioId]
  if linked.length = 2 then
    let socket ← socketTrack setup record.socketId
    event setup record.tsNs socket .instant { linked := linked }
  else return ⟨⟩

/-- The end of an I/O call that was started before under the same key. -/
def endPending (ts : Option Int) : Option Nat → Export Unit
  | none => return ⟨⟩
  | some old => event setup ts old .sliceEnd

def exportIoStart (way : Way) (record : JsonRecord) : Export Unit := do
  let record ← chainRecord setup record
  let thread ← threadTrack setup record
  socketIo setup record
  let exporter ← get
  let flowId ← presentId setup record.ioId
  let linked ← linkedIds setup [record.callId]
  endPending setup record.tsNs (pendingTrack (ioKey way record) exporter.books.pendingIo)
  event setup record.tsNs thread .sliceBegin { flowId := flowId, linked := linked }
  modify (withBooks (Books.putIo (ioKey way record) thread))

def exportIoEnd (way : Way) (record : JsonRecord) : Export Unit := do
  let record ← chainRecord setup record
  let exporter ← get
  match pendingTrack (ioKey way record) exporter.books.pendingIo with
  | none => return ⟨⟩
  | some track =>
      modify (withBooks (Books.popIo (ioKey way record)))
      event setup record.tsNs track .sliceEnd

def exportNetworkSyscall (record : JsonRecord) : Export Unit := do
  let record ← chainRecord setup record
  let start ← required record.startTsNs
  let last ← required record.tsNs
  if last < start then throw .callOrder
  else
    let parent ← threadTrack setup record
    let track := setup.python.stableUuid (.networkSyscalls record.tgid record.tid)
    let _ ← descriptor track parent
    let flowId ← presentId setup record.callId
    event setup (some start) track .sliceBegin { flowId := flowId }
    event setup (some last) track .sliceEnd
    if setup.traceTags then return ⟨⟩
    else event setup (some last) track .instant { flowId := flowId, terminating := true }

/-! ## The file -/

def exportMetaEvent (record : JsonRecord) : Export Unit := do
  let track := setup.python.stableUuid .global
  let _ ← descriptor track 0
  let exporter ← get
  event setup (record.tsNs.getD exporter.captureStart) track .instant

/-- A loop of `trace_end`: what is still open is closed, on the track that is known for it. -/
def closeOpen (tracks : PerfettoExporter → Keyed String Nat) (close : String → Nat → Export Unit)
    (id : String) : Export Unit := do
  let exporter ← get
  match tracks exporter id with
  | some track => close id track
  | none => throw .missingTrack

def exportTraceEnd (record : JsonRecord) : Export Unit := do
  let exporter ← get
  (setup.python.visit exporter.books.socketLifetimes).forM
    (closeOpen PerfettoExporter.socketTracks (closeSocket setup record.tsNs))
  exporter.books.pendingIo.forM fun entry => event setup record.tsNs entry.2 .sliceEnd
  modify (withBooks Books.clearIo)
  (setup.python.visit exporter.books.activeConnects).forM
    (closeOpen PerfettoExporter.connectTracks (closeConnect setup record.tsNs))

/-- The types that are shown in tags mode. -/
def inTags : RecordType → Bool
  | .socketCreate | .packetEvent | .networkSyscall | .lostEvents | .traceEnd | .rxContext
  | .probeStatus => true
  | _ => false

/-- The body of the second loop of `serialize`, for a record that is shown. -/
def exportShown (record : JsonRecord) : Export Unit :=
  match record.type with
  | .clockSnapshot | .other => return ⟨⟩
  | .socketCreate => exportSocketCreate setup record
  | .socketState => do
      exportSocketState setup record
      exportConnectSocketState setup record
  | .socketEvent => exportSocketEvent setup record
  | .packetEvent => exportPacketEvent setup record
  | .packetIoLink => exportPacketIoLink setup record
  | .socketFlowLink => exportSocketFlowLink setup record
  | .ioComplete => exportIoComplete setup record
  | .rxHandoff => exportRxHandoff setup record
  | .flowStart => exportFlowStart setup record
  | .flowEnd => exportFlowEnd setup record
  | .rxReadStart => exportIoStart setup .rx record
  | .rxReadEnd => exportIoEnd setup .rx record
  | .txWriteStart => exportIoStart setup .tx record
  | .txWriteEnd => exportIoEnd setup .tx record
  | .networkSyscall => exportNetworkSyscall setup record
  | .connect kind => exportConnectEvent setup kind record
  | .lostEvents | .rxContext | .probeStatus => exportMetaEvent setup record
  | .traceEnd => do
      runIf (truthy record.tsNs ≠ none) (exportTraceEnd setup record)
      exportMetaEvent setup record

/-- The body of the second loop of `serialize`. -/
def exportRecord (record : JsonRecord) : Export Unit :=
  if setup.traceTags && !inTags record.type then return ⟨⟩ else exportShown setup record

/-- The body of the first loop of `serialize`. -/
def exportClock (record : JsonRecord) : Export Unit := do
  let exporter ← get
  if record.monotonicNs ≤ exporter.clockMonotonicNs.getLast?.getD (-1) then throw .clockOrder
  else addClockSnapshot record

/-- `serialize` -/
def exportRecords (records : List JsonRecord) : Export Unit := do
  let clocks := records.filter fun record => record.type = .clockSnapshot
  if clocks = [] then throw .noClock
  else
    clocks.forM exportClock
    records.forM (exportRecord setup)

def tagsOf (traceTags : Bool) (records : List JsonRecord) : Bool :=
  traceTags || records.any fun record => record.type = .clockSnapshot && record.traceTags

def serialize (python : Python) (traceTags : Bool) (records : List JsonRecord) :
    Except Failure (List Packet) := do
  let evidence ← indexSocketEvidence python records
  let setup : Setup :=
    { python := python, traceTags := tagsOf traceTags records, evidence := evidence }
  let (_, exporter) ← (exportRecords setup records).run {}
  return exporter.packets

end Anettrace.Convert
