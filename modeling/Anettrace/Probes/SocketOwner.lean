import Anettrace.Probes.Kernel
import Anettrace.Library.Run

/-!
# Socket instances

The part of `src/progs/core.c` that says which socket an event is of: the generation of a socket's
address, the owner kept for a socket, and the owner kept for a flow. The maps are LRU maps, whose
updates succeed; that they drop entries is a step of its own. The kernel creates sockets by
`sk_alloc` or as children of other sockets, and uses the address of a freed socket again.
-/

namespace Anettrace.Probes

open Library

/-- `perfetto_owner_t`. -/
structure PerfettoOwner where
  socketKey : UInt64
  tid : UInt32
  tgid : UInt32
  uid : UInt32
  socketGeneration : UInt32
  dns : Bool
  deriving DecidableEq, Repr, Inhabited

/-- `perfetto_flow_key_t`. -/
structure PerfettoFlowKey where
  saddr : List UInt8
  daddr : List UInt8
  sport : UInt16
  dport : UInt16
  protoL3 : UInt16
  protoL4 : UInt8
  netns : UInt32
  deriving DecidableEq, Repr, Inhabited

def PerfettoFlowKey.reverse (key : PerfettoFlowKey) : PerfettoFlowKey :=
  { key with saddr := key.daddr, daddr := key.saddr, sport := key.dport, dport := key.sport }

/-- `PACKET_DIRECTION_*`. -/
inductive PacketDirection where
  | unknown | tx | rx
  deriving DecidableEq, Repr, Inhabited

/-- The direction that `perfetto_store_flow` stores under the reversed key. -/
def PacketDirection.opposite : PacketDirection → PacketDirection
  | .tx => .rx
  | .unknown | .rx => .tx

/-- `perfetto_flow_owner_t`. -/
structure PerfettoFlowOwner where
  owner : PerfettoOwner
  direction : PacketDirection
  deriving DecidableEq, Repr, Inhabited

/-- The maps that identify sockets. -/
structure SocketMaps where
  owners : Keyed UInt64 PerfettoOwner
  generations : Keyed UInt64 UInt32
  counter : UInt32
  flows : Keyed PerfettoFlowKey PerfettoFlowOwner
  createStart : Keyed UInt64 UInt64

/-- The maps at the start of a capture. -/
def SocketMaps.init : SocketMaps :=
  ⟨.empty, .empty, 0, .empty, .empty⟩

def perfettoStoreSocketOwner (sk : UInt64) (owner : PerfettoOwner) (maps : SocketMaps) :
    SocketMaps :=
  if sk = 0 then maps else { maps with owners := maps.owners.put sk owner }

/-- The new generation in `perfetto_socket_generation`; 0 is passed over. -/
def nextGeneration (counter : UInt32) : UInt32 :=
  if counter + 1 = 0 then counter + 2 else counter + 1

def perfettoSocketGeneration (sk : UInt64) (created : Bool) (maps : SocketMaps) :
    SocketMaps × UInt32 :=
  if sk = 0 then (maps, 0)
  else
    let begin :=
      let generation := nextGeneration maps.counter
      ({ maps with
          generations := maps.generations.put sk generation
          counter := generation }, generation)
    match maps.generations sk with
    | none => begin
    | some stored => if created then begin else (maps, stored)

def perfettoResolveSocketOwner (sk : UInt64) (skUid : UInt32) (trustCurrent : Bool)
    (current : Task) (maps : SocketMaps) : SocketMaps × Option PerfettoOwner :=
  if sk = 0 then (maps, none)
  else
    let trusted := trustCurrent && current.uid = skUid
    let lazily :=
      let (maps, generation) := perfettoSocketGeneration sk false maps
      let owner : PerfettoOwner := ⟨sk, 0, 0, skUid, generation, false⟩
      if trusted then
        let owner := { owner with tid := current.tid, tgid := current.tgid }
        (perfettoStoreSocketOwner sk owner maps, some owner)
      else (maps, some owner)
    match maps.owners sk with
    | none => lazily
    | some cached =>
        if cached.uid ≠ skUid then lazily
        else if trusted ∧ cached.tid = 0 then
          let owner := { cached with tid := current.tid, tgid := current.tgid }
          (perfettoStoreSocketOwner sk owner maps, some owner)
        else (maps, some cached)

/-- What `perfetto_handle_owner` reads of a packet. -/
structure PacketView where
  /-- `perfetto_packet_supported`, and `perfetto_transport_packet_supported`. -/
  supported : Bool
  transport : Bool
  icmp : Bool
  key : PerfettoFlowKey
  /-- The probe is `__xfrm_policy_check`. -/
  policyCheck : Bool
  deriving DecidableEq, Repr, Inhabited

/-- `perfetto_packet_is_dns`; ports are in host byte order here. -/
def PacketView.dns (packet : PacketView) : Bool :=
  packet.key.protoL4 = 17 && (packet.key.sport = 53 || packet.key.dport = 53)

def perfettoLookupFlow (packet : PacketView) (maps : SocketMaps) : Option PerfettoFlowOwner :=
  if !packet.transport then none
  else
    match maps.flows packet.key with
    | none => none
    | some flow =>
        if flow.owner.socketKey = 0 then none
        else if (maps.owners flow.owner.socketKey).any fun owner =>
            owner.socketGeneration = flow.owner.socketGeneration then some flow
        else none

def perfettoStoreFlow (packet : PacketView) (owner : PerfettoOwner) (direction : PacketDirection)
    (maps : SocketMaps) : SocketMaps :=
  if direction = .unknown ∨ !packet.transport then maps
  else
    { maps with
      flows := (maps.flows.put packet.key ⟨owner, direction⟩).put packet.key.reverse
        ⟨owner, direction.opposite⟩ }

/-- What a probe on a socket or a packet finds: the interrupted task, the socket and its user, the
direction of the probe, whether it is a return probe, the packet, whether a socket without a packet
is supported, and whether the probe ends the socket. -/
structure SocketProbe where
  current : Task
  sk : UInt64
  skUid : UInt32
  direction : PacketDirection
  isReturn : Bool
  packet : Option PacketView
  socketSupported : Bool
  destroys : Bool
  deriving DecidableEq, Repr, Inhabited

def perfettoOwnerMatches (args : BpfArgs) (owner : PerfettoOwner) : Bool :=
  (args.pid = 0 || args.pid = owner.tid) && (!args.uidEnabled || args.uid = owner.uid)

/-- The filter of `perfetto_handle_owner`: an event that is neither of the traced task nor of a
traced owner is dropped. -/
def SocketProbe.dropped (args : BpfArgs) (probe : SocketProbe) (owner : Option PerfettoOwner) :
    Bool :=
  (args.pid ≠ 0 || args.uidEnabled) &&
    (probe.packet.any PacketView.icmp ||
      !perfettoCurrentMatches args probe.current.tid probe.current.uid) &&
    !owner.any (perfettoOwnerMatches args)

def perfettoResolvedOwner (probe : SocketProbe) (owner : PerfettoOwner)
    (direction : PacketDirection) (maps : SocketMaps) : SocketMaps × PerfettoOwner :=
  match probe.packet with
  | none => (maps, owner)
  | some packet =>
      let owner := if packet.dns then { owner with dns := true } else owner
      let maps := if packet.dns then perfettoStoreSocketOwner probe.sk owner maps else maps
      (perfettoStoreFlow packet owner direction maps, owner)

def perfettoFlowOwnerOf (probe : SocketProbe) (owner : Option PerfettoOwner) (maps : SocketMaps) :
    Option PerfettoOwner × PacketDirection :=
  match probe.packet with
  | none => (owner, probe.direction)
  | some packet =>
      match perfettoLookupFlow packet maps with
      | none => (owner, probe.direction)
      | some flow =>
          (if owner.all fun owner => owner.tid = 0 && owner.uid = flow.owner.uid then
              some flow.owner
            else owner,
            if probe.direction = .unknown ∧ !packet.policyCheck then flow.direction
            else probe.direction)

/-- The task a probe interrupts may be the user of its socket: the probe sends, or it is a return
probe. -/
def SocketProbe.trusts (probe : SocketProbe) : Bool :=
  !probe.packet.any PacketView.icmp && (probe.direction = .tx || probe.isReturn)

/-- A received packet whose owner only its own socket can establish. -/
def SocketProbe.quarantined (args : BpfArgs) (probe : SocketProbe) : Bool :=
  probe.packet.isSome && args.rxContext && args.uidEnabled && args.pid = 0 && probe.direction = .rx

def perfettoHandleOwner (args : BpfArgs) (probe : SocketProbe) (maps : SocketMaps) :
    SocketMaps × Option (Option PerfettoOwner) :=
  let (maps, owner) :=
    perfettoResolveSocketOwner probe.sk probe.skUid probe.trusts probe.current maps
  if probe.packet.any fun packet => !packet.supported then (maps, none)
  else if probe.quarantined args then
    match owner with
    | none => (maps, some none)
    | some owner =>
        if !perfettoOwnerMatches args owner then (maps, none)
        else
          let (maps, owner) := perfettoResolvedOwner probe owner probe.direction maps
          (maps, some (some owner))
  else if probe.packet.isNone ∧ !probe.socketSupported ∧ !owner.any PerfettoOwner.dns then
    (maps, none)
  else
    let (owner, direction) := perfettoFlowOwnerOf probe owner maps
    if probe.dropped args owner then (maps, none)
    else
      match owner with
      | some owner =>
          let (maps, owner) := perfettoResolvedOwner probe owner direction maps
          (maps, some (some owner))
      | none =>
          -- without a socket there is no instance to name
          if perfettoCurrentMatches args probe.current.tid probe.current.uid ∧
              !probe.packet.any PacketView.icmp then
            let owner : PerfettoOwner :=
              ⟨0, probe.current.tid, probe.current.tgid, probe.current.uid, 0, false⟩
            let (maps, owner) := perfettoResolvedOwner probe owner direction maps
            (maps, some (some owner))
          else (maps, some none)

/-- An address and a generation that an event reports. -/
structure Instance where
  sk : UInt64
  generation : UInt32
  deriving DecidableEq, Repr, Inhabited

def PerfettoOwner.instance (owner : PerfettoOwner) : List Instance :=
  if owner.socketKey = 0 then [] else [⟨owner.socketKey, owner.socketGeneration⟩]

/-- The part of `handle_entry` that names sockets: the owner of the event, and the socket itself
where the event has no packet. -/
def handleEntry (args : BpfArgs) (probe : SocketProbe) (maps : SocketMaps) :
    SocketMaps × List Instance :=
  let (maps, handled) := perfettoHandleOwner args probe maps
  match handled with
  | none => (maps, [])
  | some owner =>
      let owned := (owner.map PerfettoOwner.instance).getD []
      let (maps, key) :=
        if probe.packet.isNone ∧ probe.sk ≠ 0 then
          let (maps, generation) := perfettoSocketGeneration probe.sk false maps
          (maps, [⟨probe.sk, generation⟩])
        else (maps, [])
      let maps :=
        if probe.destroys then { maps with owners := maps.owners.remove probe.sk } else maps
      (maps, owned ++ key)

def skAllocEnter (args : BpfArgs) (current : Task) (startTs : UInt64) (maps : SocketMaps) :
    SocketMaps :=
  if !args.ready ∨ !args.perfetto ∨ args.checkPid current.tid ∨
      (args.uidEnabled ∧ args.uid ≠ current.uid) then maps
  else { maps with createStart := maps.createStart.put current.pidTgid startTs }

/-- The kretprobe on `sk_alloc` goes on for calls whose entry passed the filters. -/
def skAllocTraced (args : BpfArgs) (current : Task) (maps : SocketMaps) : Bool :=
  args.ready && args.perfetto && (maps.createStart current.pidTgid).isSome

def skAllocReturn (args : BpfArgs) (current : Task) (sk : UInt64) (maps : SocketMaps) :
    SocketMaps × List Instance :=
  if !skAllocTraced args current maps then (maps, [])
  else
    let (maps, reported) :=
      if sk = 0 then (maps, [])
      else
        let (maps, generation) := perfettoSocketGeneration sk true maps
        (perfettoStoreSocketOwner sk
          ⟨sk, current.tid, current.tgid, current.uid, generation, false⟩ maps, [⟨sk, generation⟩])
    ({ maps with createStart := maps.createStart.remove current.pidTgid }, reported)

/-- The part of `network_syscall_bind` and of `perfetto_io_enter` that names the socket of a
call. -/
def nameSocket (sk : UInt64) (maps : SocketMaps) : SocketMaps × List Instance :=
  if sk = 0 then (maps, [])
  else
    let (maps, generation) := perfettoSocketGeneration sk false maps
    (maps, [⟨sk, generation⟩])

/-- The part of the kprobe on `inet_stream_connect` that names the socket of a pending `connect()`,
of the task that called it. -/
def nameConnecting (sk : UInt64) (tid tgid uid : UInt32) (maps : SocketMaps) :
    SocketMaps × List Instance :=
  if sk = 0 then (maps, [])
  else
    let (maps, generation) := perfettoSocketGeneration sk false maps
    (perfettoStoreSocketOwner sk ⟨sk, tid, tgid, uid, generation, false⟩ maps, [⟨sk, generation⟩])

def sockDefReadable (args : BpfArgs) (probe : SocketProbe) (maps : SocketMaps) :
    SocketMaps × List Instance :=
  if !args.perfetto ∨ probe.isReturn ∨ probe.sk = 0 ∨ !probe.socketSupported then (maps, [])
  else
    let (maps, owner) :=
      perfettoResolveSocketOwner probe.sk probe.skUid false probe.current maps
    if (args.pid ≠ 0 ∨ args.uidEnabled) ∧
        !perfettoCurrentMatches args probe.current.tid probe.current.uid ∧
        !owner.any (perfettoOwnerMatches args) then (maps, [])
    else
      let (maps, generation) := perfettoSocketGeneration probe.sk false maps
      (maps, [⟨probe.sk, generation⟩])

end Anettrace.Probes
