import Anettrace.Probes.SocketOwner
import Anettrace.Probes.NetworkSyscall

/-!
# Protocol calls and the packets they submit

The part of `src/progs/core.c` that says which call of which task an event belongs to. A task that
is in a send or receive function of TCP or UDP has a context in `m_perfetto_io`, which does not
outlive its system call; the instance of a packet in `m_perfetto_packets` remembers the call that
submitted it. As with the sockets, the maps are LRU maps, whose updates succeed.
-/

namespace Anettrace.Probes

open Library Export

/-- The functions that `core.c` tells apart by their index. -/
inductive ProbeFunc where
  | tcpSendmsg | tcpRecvmsg | udpSendmsg | udpv6Sendmsg | udpRecvmsg | udpv6Recvmsg
  | tcpSkbEntail | skbEntail | udpSendSkb | udpV6SendSkb
  | skbCopyDatagramIter | skbCopyAndCsumDatagramMsg | skbConsumeUdp
  | other (index : UInt16)
  deriving DecidableEq, Repr, Inhabited

def perfettoSocketIo : ProbeFunc → Bool
  | .tcpSendmsg | .tcpRecvmsg | .udpSendmsg | .udpv6Sendmsg | .udpRecvmsg | .udpv6Recvmsg => true
  | _ => false

def perfettoRxCopy : ProbeFunc → Bool
  | .skbCopyDatagramIter | .skbCopyAndCsumDatagramMsg => true
  | _ => false

/-- The functions of `perfetto_record_submission`, which hand a packet down. -/
def ProbeFunc.submits : ProbeFunc → Bool
  | .tcpSkbEntail | .skbEntail | .udpSendSkb | .udpV6SendSkb => true
  | _ => false

/-- `FUNC_STATUS_*` of a function; `free` stands for `func_is_free`. -/
structure FuncStatus where
  free : Bool
  sk : Bool
  rx : Bool
  tx : Bool
  ret : Bool
  deriving DecidableEq, Repr, Inhabited

def FuncStatus.direction (status : FuncStatus) : PacketDirection :=
  if status.rx then .rx else if status.tx then .tx else .unknown

/-- `perfetto_io_t`. -/
structure PerfettoIo where
  startTs : UInt64
  syscallStartTs : UInt64
  socketKey : UInt64
  socketGeneration : UInt32
  depth : UInt32
  func : ProbeFunc
  tx : Bool
  deriving DecidableEq, Repr, Inhabited

/-- `perfetto_packet_instance_t`. -/
structure PacketInstance where
  head : UInt64
  generation : UInt32
  released : Bool
  ioMultiple : Bool
  ioStartTs : UInt64
  syscallStartTs : UInt64
  ioTask : UInt64
  ioSocketKey : UInt64
  ioSocketGeneration : UInt32
  deriving DecidableEq, Repr, Inhabited

def PacketInstance.fresh (head : UInt64) (generation : UInt32) : PacketInstance :=
  ⟨head, generation, false, false, 0, 0, 0, 0, 0⟩

/-- The fields of `detail_event_t` about the call in whose context a packet was handled. -/
structure CallEvidence where
  ioStartTs : UInt64
  syscallStartTs : UInt64
  ioTid : UInt32
  ioTgid : UInt32
  ioRole : UInt8
  ioMultiple : Bool
  deriving DecidableEq, Repr, Inhabited

/-- The fields as `memset` leaves them. -/
def CallEvidence.none : CallEvidence :=
  ⟨0, 0, 0, 0, 0, false⟩

def PacketInstance.rememberSubmission (packet : PacketInstance) (io : PerfettoIo) (task : UInt64) :
    PacketInstance :=
  if packet.ioStartTs ≠ 0 ∧
      (packet.ioStartTs ≠ io.startTs ∨ packet.ioTask ≠ task ∨ packet.ioSocketKey ≠ io.socketKey ∨
        packet.ioSocketGeneration ≠ io.socketGeneration) then
    { packet with ioMultiple := true }
  else
    { packet with
      ioStartTs := io.startTs
      syscallStartTs := io.syscallStartTs
      ioTask := task
      ioSocketKey := io.socketKey
      ioSocketGeneration := io.socketGeneration }

def PacketInstance.applySubmission (packet : PacketInstance) (detail : CallEvidence) :
    CallEvidence :=
  if packet.ioMultiple then ⟨0, 0, 0, 0, 0, true⟩
  else if packet.ioStartTs = 0 then detail
  else
    let tid := packet.ioTask.toUInt32
    let tgid := (packet.ioTask >>> 32).toUInt32
    { detail with
      ioRole :=
        if detail.ioStartTs ≠ packet.ioStartTs ∨ detail.ioTid ≠ tid ∨ detail.ioTgid ≠ tgid then 4
        else detail.ioRole
      ioStartTs := packet.ioStartTs
      syscallStartTs := packet.syscallStartTs
      ioTid := tid
      ioTgid := tgid }

/-- The maps of the probes on functions and on system calls. -/
structure CallMaps where
  sockets : SocketMaps
  syscalls : Keyed UInt64 SyscallRecord
  io : Keyed UInt64 PerfettoIo
  packets : Keyed UInt64 PacketInstance
  packetCounter : UInt32
  /-- `m_ret`, whose keys are made of the thread and the function. -/
  returns : Keyed (UInt32 × ProbeFunc) Int32

/-- The maps at the start of a capture. -/
def CallMaps.init : CallMaps :=
  ⟨.init, .empty, .empty, .empty, 0, .empty⟩

/-- What a probe on a function finds: its index and status, the task, the clock, the arguments `sk`
and `skb` (0 where the function has none), what the kernel holds of them, and whether the limits on
events admit the probe and the packet or socket passes the filters on it. -/
structure CallProbe where
  func : ProbeFunc
  status : FuncStatus
  current : Task
  ts : UInt64
  sk : UInt64
  skb : UInt64
  skbSk : UInt64
  head : UInt64
  users : UInt32
  skUid : UInt64 → UInt32
  packet : PacketView
  socketSupported : Bool
  requestedBytes : UInt64
  isReturn : Bool
  destroys : Bool
  admitted : Bool
  passes : Bool

/-- The probe gets past the test on the protocol of its packet in `perfetto_record_identity`. -/
def CallProbe.identified (probe : CallProbe) : Bool :=
  probe.skb = 0 || probe.packet.transport

/-- What `perfetto_handle_owner` finds, for an event of a socket. -/
def CallProbe.socketProbe (probe : CallProbe) (sk : UInt64) : SocketProbe :=
  let sk := if sk = 0 ∧ probe.skb ≠ 0 then probe.skbSk else sk
  { current := probe.current
    sk := sk
    skUid := probe.skUid sk
    direction := probe.status.direction
    isReturn := probe.status.ret
    packet := if probe.skb = 0 then none else some probe.packet
    socketSupported := probe.socketSupported || perfettoSocketIo probe.func
    destroys := probe.destroys }

/-- The direction that `perfetto_handle_owner` reports. -/
def perfettoDirection (args : BpfArgs) (probe : SocketProbe) (maps : SocketMaps) :
    PacketDirection :=
  let (maps, owner) :=
    perfettoResolveSocketOwner probe.sk probe.skUid probe.trusts probe.current maps
  if probe.quarantined args then probe.direction else (perfettoFlowOwnerOf probe owner maps).2

/-- What an event reports: `detail_event_t` without the packet itself. -/
structure CallReport where
  func : ProbeFunc
  ts : UInt64
  tid : UInt32
  tgid : UInt32
  skb : UInt64
  key : UInt64
  keyGeneration : UInt32
  direction : PacketDirection
  owner : Option PerfettoOwner
  evidence : CallEvidence
  deriving DecidableEq, Repr, Inhabited

namespace CallMaps

def perfettoIoSyscallBoundary (task : UInt64) (maps : CallMaps) : CallMaps :=
  { maps with io := maps.io.remove task }

def perfettoIoExit (func : ProbeFunc) (task : UInt64) (maps : CallMaps) : CallMaps :=
  if !perfettoSocketIo func then maps
  else
    match maps.io task with
    | none => maps
    | some io =>
        if 1 < io.depth then { maps with io := maps.io.put task { io with depth := io.depth - 1 } }
        else { maps with io := maps.io.remove task }

/-- The branch of `perfetto_packet_generation` that starts a new instance is taken. -/
def begins (maps : CallMaps) (skb head : UInt64) (release : Bool) : Bool :=
  (maps.packets skb).all fun packet => packet.head ≠ head || (packet.released && !release)

/-- The branch of `perfetto_packet_generation` that starts a new instance. -/
def beginInstance (skb head : UInt64) (maps : CallMaps) : CallMaps :=
  { maps with
    packetCounter := maps.packetCounter + 1
    packets := maps.packets.put skb (.fresh head (maps.packetCounter + 1)) }

def perfettoPacketGeneration (skb head : UInt64) (users : UInt32) (release udpConsume : Bool)
    (maps : CallMaps) : CallMaps × UInt32 :=
  let maps := if maps.begins skb head release then maps.beginInstance skb head else maps
  match maps.packets skb with
  | none => (maps, 0)
  | some packet =>
      if release || (udpConsume && users = 1) then
        ({ maps with packets := maps.packets.put skb { packet with released := true } },
          packet.generation)
      else (maps, packet.generation)

/-- The call of the task that submits a packet, if `perfetto_record_submission` finds one. -/
def submitting (args : CallArgs) (probe : CallProbe) (maps : CallMaps) : Option PerfettoIo :=
  if !args.ready || !args.perfetto || probe.isReturn || probe.skb =
    0 || !probe.func.submits then none
  else
    (maps.io probe.current.pidTgid).filter fun io =>
      io.tx && (probe.sk = 0 || io.socketKey = probe.sk)

def perfettoRecordSubmission (args : CallArgs) (probe : CallProbe) (maps : CallMaps) : CallMaps :=
  match maps.submitting args probe with
  | none => maps
  | some io =>
      let (maps, generation) :=
        maps.perfettoPacketGeneration probe.skb probe.head probe.users false false
      if generation = 0 then maps
      else
        match maps.packets probe.skb with
        | none => maps
        | some packet =>
            { maps with
              packets :=
                maps.packets.put probe.skb (packet.rememberSubmission io probe.current.pidTgid) }

def perfettoRetirePacket (skb : UInt64) (maps : CallMaps) : CallMaps :=
  match maps.packets skb with
  | none => maps
  | some packet => { maps with packets := maps.packets.put skb { packet with released := true } }

/-- A free probe ends the instance of its packet. -/
def retireFreed (probe : CallProbe) (maps : CallMaps) : CallMaps :=
  if probe.skb ≠ 0 && probe.status.free then maps.perfettoRetirePacket probe.skb else maps

def perfettoIoEnter (sk : UInt64) (probe : CallProbe) (maps : CallMaps) : CallMaps :=
  let task := probe.current.pidTgid
  let syscallStartTs := ((maps.syscalls task).map fun call => call.startTs).getD 0
  let fresh :=
    let (sockets, generation) := perfettoSocketGeneration sk false maps.sockets
    { maps with
      sockets := sockets
      io := maps.io.put task
        ⟨probe.ts, syscallStartTs, sk, generation, 1, probe.func, probe.status.tx⟩ }
  match maps.io task with
  | none => fresh
  | some io =>
      if io.socketKey = sk ∧ io.syscallStartTs = syscallStartTs ∧ io.tx = probe.status.tx then
        { maps with io := maps.io.put task { io with depth := io.depth + 1 } }
      else fresh

def networkSyscallBind (sk : UInt64) (probe : CallProbe) (maps : CallMaps) : CallMaps :=
  if probe.isReturn ∨ sk = 0 ∨ !perfettoSocketIo probe.func then maps
  else
    match maps.syscalls probe.current.pidTgid with
    | none => maps
    | some pending =>
        let (sockets, generation) := perfettoSocketGeneration sk false maps.sockets
        let pending := { pending with socketKey := sk, socketGeneration := generation }
        let pending :=
          if SyscallKind.batch pending.kind then pending
          else { pending with requestedBytes := probe.requestedBytes, requestedValid := true }
        { maps with
          sockets := sockets
          syscalls := maps.syscalls.put probe.current.pidTgid pending }

/-- The evidence of the task's own context in `perfetto_record_identity`; `sk` is the socket of the
event, and `owner` the one that owns the packet. -/
def ownEvidence (sk owner : UInt64) (direction : PacketDirection) (probe : CallProbe)
    (maps : CallMaps) : CallEvidence :=
  match maps.io probe.current.pidTgid with
  | none => .none
  | some io =>
      let copy := perfettoRxCopy probe.func
      let release := probe.func = .skbConsumeUdp && !io.tx && io.socketKey = sk
      let tx := io.tx && direction = .tx && owner = io.socketKey
      if probe.skb = 0 || copy || release || tx then
        { CallEvidence.none with
          ioStartTs := io.startTs
          syscallStartTs := io.syscallStartTs
          ioTid := probe.current.tid
          ioTgid := probe.current.tgid
          ioRole := if probe.skb = 0 then 0 else if copy then 2 else if release then 3 else 1 }
      else .none

/-- The packet's own evidence in `perfetto_record_identity`. -/
def packetEvidence (owner : UInt64) (ownerGeneration : UInt32) (direction : PacketDirection)
    (keyGeneration : UInt32) (probe : CallProbe) (maps : CallMaps) (detail : CallEvidence) :
    CallEvidence :=
  if direction ≠ .tx then detail
  else
    match maps.packets probe.skb with
    | none => detail
    | some packet =>
        if packet.generation = keyGeneration ∧
            (owner = 0 ∨ packet.ioSocketKey = owner ∧
              packet.ioSocketGeneration = ownerGeneration) then
          packet.applySubmission detail
        else detail

/-- The entry of a protocol function, in `perfetto_record_identity`. -/
def enterCall (sk : UInt64) (probe : CallProbe) (maps : CallMaps) : CallMaps :=
  if perfettoSocketIo probe.func && !probe.isReturn then maps.perfettoIoEnter sk probe else maps

/-- The return of a protocol function, where a program sees it in the function's own probe. -/
def leaveCall (probe : CallProbe) (maps : CallMaps) : CallMaps :=
  if probe.isReturn then maps.perfettoIoExit probe.func probe.current.pidTgid else maps

/-- The generation of the packet of an event, 0 where it has none. -/
def packetIdentity (probe : CallProbe) (udpConsume : Bool) (maps : CallMaps) : CallMaps × UInt32 :=
  if probe.skb = 0 then (maps, 0)
  else
    maps.perfettoPacketGeneration probe.skb probe.head probe.users probe.status.free udpConsume

def perfettoRecordIdentity (sk : UInt64) (owner : Option PerfettoOwner)
    (direction : PacketDirection) (probe : CallProbe) (maps : CallMaps) :
    CallMaps × UInt32 × CallEvidence :=
  let ownerKey := (owner.map PerfettoOwner.socketKey).getD 0
  let ownerGeneration := (owner.map PerfettoOwner.socketGeneration).getD 0
  if !probe.identified then
    -- ICMP can be generated while a transport call is active
    let (maps, generation) := maps.packetIdentity probe false
    (maps, generation, .none)
  else
    let maps := maps.enterCall sk probe
    let detail := maps.ownEvidence sk ownerKey direction probe
    let (maps, generation) := maps.packetIdentity probe (probe.func = .skbConsumeUdp)
    let detail :=
      if probe.skb = 0 then detail
      else maps.packetEvidence ownerKey ownerGeneration direction generation probe detail
    (maps.leaveCall probe, generation, detail)

def retKey (current : Task) (func : ProbeFunc) : UInt32 × ProbeFunc :=
  (current.tid, func)

def getRet (probe : CallProbe) (maps : CallMaps) : CallMaps :=
  if !probe.status.ret then maps
  else
    let key := retKey probe.current probe.func
    match maps.returns key with
    | none => { maps with returns := maps.returns.put key 1 }
    | some ref => { maps with returns := maps.returns.put key (ref + 1) }

/-- The socket of an event: a copy to user space takes that of the receive call its task is in. -/
def eventSocket (probe : CallProbe) (maps : CallMaps) : UInt64 :=
  if probe.sk = 0 ∧ perfettoRxCopy probe.func then
    match maps.io probe.current.pidTgid with
    | none => 0
    | some io => if io.tx then 0 else io.socketKey
  else probe.sk

def handleEntryErr (probe : CallProbe) (maps : CallMaps) : CallMaps :=
  (maps.retireFreed probe).leaveCall probe

/-- What `handle_entry` does with an event that passed its filters; `sk` is the socket of the
event. -/
def handleEntryOut (args : CallArgs) (sk : UInt64) (owner : Option PerfettoOwner)
    (direction : PacketDirection) (probe : CallProbe) (maps : CallMaps) : CallMaps × CallReport :=
  let maps := maps.networkSyscallBind sk probe
  let (maps, generation, evidence) := maps.perfettoRecordIdentity sk owner direction probe
  let (sockets, generation) :=
    if sk ≠ 0 ∧ probe.skb = 0 then perfettoSocketGeneration sk false maps.sockets
    else (maps.sockets, generation)
  let sockets :=
    if probe.destroys then { sockets with owners := sockets.owners.remove sk } else sockets
  let maps := { maps with sockets := sockets }
  (if args.tracing then maps else maps.getRet probe,
    { func := probe.func
      ts := probe.ts
      tid := probe.current.tid
      tgid := probe.current.tgid
      skb := probe.skb
      key := if probe.skb ≠ 0 then probe.skb else sk
      keyGeneration := generation
      direction := direction
      owner := owner
      evidence := evidence })

/-- The event has no socket or packet to show, or that does not pass the filters. -/
def filtered (probe : CallProbe) (maps : CallMaps) : Bool :=
  (if probe.status.sk then maps.eventSocket probe = 0 else probe.skb = 0) || !probe.passes

/-- `handle_entry` of a detailed capture: none where it returns -1. -/
def handleEntry (args : CallArgs) (probe : CallProbe) (maps : CallMaps) :
    CallMaps × Option CallReport :=
  let sk := maps.eventSocket probe
  if maps.filtered probe then (maps.handleEntryErr probe, none)
  else
    let found := probe.socketProbe sk
    let direction := perfettoDirection args.toBpfArgs found maps.sockets
    let (sockets, handled) := perfettoHandleOwner args.toBpfArgs found maps.sockets
    let maps := { maps with sockets := sockets }
    match handled with
    | none => (maps.handleEntryErr probe, none)
    | some owner =>
        let (maps, report) := maps.handleEntryOut args sk owner direction probe
        (maps, some report)

/-- The part of `handle_entry_finish` that ends a packet: UDP can free the last reference without a
free probe. -/
def handleEntryFinish (probe : CallProbe) (maps : CallMaps) : CallMaps :=
  if probe.skb ≠ 0 ∧ !probe.isReturn ∧ probe.func = .skbConsumeUdp ∧ probe.users = 1 then
    maps.perfettoRetirePacket probe.skb
  else maps

/-- `pre_handle_entry` turns the probe away. -/
def rejects (args : CallArgs) (probe : CallProbe) : Bool :=
  !args.ready || !args.perfetto || !probe.admitted

/-- The probe on a function, `TRACE_NAME(name)`, with `pre_handle_entry`. -/
def functionProbe (args : CallArgs) (probe : CallProbe) (maps : CallMaps) :
    CallMaps × Option CallReport :=
  let maps := maps.perfettoRecordSubmission args probe
  if rejects args probe then (maps, none)
  else
    -- lifetime cleanup runs before the filters can discard a free
    let (maps, report) := (maps.retireFreed probe).handleEntry args probe
    (maps.handleEntryFinish probe, report)

/-- `put_ret` of `kprobe.c`; `ret` says that the returns of the function are traced. -/
def putRet (current : Task) (func : ProbeFunc) (ret : Bool) (maps : CallMaps) : CallMaps × Bool :=
  if !ret then (maps, true)
  else
    let key := retKey current func
    match maps.returns key with
    | none => (maps, true)
    | some ref =>
        if ref ≤ 0 then ({ maps with returns := maps.returns.remove key }, true)
        else ({ maps with returns := maps.returns.put key (ref - 1) }, false)

/-- `handle_exit` of `kprobe.c`; it is true where the return is reported. -/
def handleExit (args : CallArgs) (current : Task) (func : ProbeFunc) (ret : Bool)
    (maps : CallMaps) : CallMaps × Bool :=
  if !args.ready then (maps, false)
  else
    let (maps, skipped) := maps.putRet current func ret
    if skipped then (maps, false)
    else
      (if args.perfetto then maps.perfettoIoExit func current.pidTgid else maps, true)

/-- `network_sys_enter` looks at the calls of a task. -/
def watches (args : CallArgs) (current : Task) : Bool :=
  args.ready && args.perfetto && perfettoCurrentMatches args.toBpfArgs current.tid current.uid

def networkSysEnter (args : CallArgs) (entry : SyscallEntry) (maps : CallMaps) :
    CallMaps × List SyscallEvent :=
  let task := entry.current.pidTgid
  if !watches args entry.current then (maps, [])
  else
    let maps := maps.perfettoIoSyscallBoundary task
    let maps := { maps with syscalls := maps.syscalls.remove task }
    match entry.networkCall args with
    | none => (maps, [])
    | some call =>
        if !entry.scratch || !entry.stored then (maps, [])
        else
          let record := entry.record args call
          ({ maps with syscalls := maps.syscalls.put task record }, [record.toSyscallEvent])

def networkSysExit (args : CallArgs) (exit : SyscallExit) (maps : CallMaps) :
    CallMaps × List SyscallEvent :=
  let task := exit.current.pidTgid
  if !args.ready || !args.perfetto then (maps, [])
  else
    let maps := maps.perfettoIoSyscallBoundary task
    match maps.syscalls task with
    | none => (maps, [])
    | some record =>
        let sent :=
          if record.syscallNr.toUInt64 = exit.nr.toUInt64 then
            [(record.finish exit).toSyscallEvent]
          else []
        ({ maps with syscalls := maps.syscalls.remove task }, sent)

end CallMaps

/-! ## Runs -/

/-- A step of the kernel: the probe on a function, on its return, on the entry and on the exit of a
system call, another program that leaves other maps of the sockets, and the LRU maps dropping an
entry. -/
inductive CallStep where
  | function (probe : CallProbe)
  | returned (current : Task) (func : ProbeFunc) (ret : Bool)
  | sysEnter (entry : SyscallEntry)
  | sysExit (exit : SyscallExit)
  | sockets (found : SocketMaps)
  | evictSyscall (task : UInt64)
  | evictIo (task : UInt64)
  | evictPacket (skb : UInt64)
  | evictReturn (current : Task) (func : ProbeFunc)

def CallStep.apply (args : CallArgs) (maps : CallMaps) : CallStep → CallMaps
  | .function probe => (maps.functionProbe args probe).1
  | .returned current func ret => (maps.handleExit args current func ret).1
  | .sysEnter entry => (maps.networkSysEnter args entry).1
  | .sysExit exit => (maps.networkSysExit args exit).1
  | .sockets found => { maps with sockets := found }
  | .evictSyscall task => { maps with syscalls := maps.syscalls.remove task }
  | .evictIo task => { maps with io := maps.io.remove task }
  | .evictPacket skb => { maps with packets := maps.packets.remove skb }
  | .evictReturn current func =>
      { maps with returns := maps.returns.remove (CallMaps.retKey current func) }

def callMapsAfter (args : CallArgs) (steps : List CallStep) : CallMaps :=
  Run.run (CallStep.apply args) .init steps

end Anettrace.Probes
