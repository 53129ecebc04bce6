import Anettrace.Library.Keyed
import Anettrace.Probes.Kernel

/-!
# Accounting of traffic

`src/progs/traffic.c`. The entry probe of a protocol call stores what the call is of in a slot of
its thread and operation, the probes of UDP put the endpoints in, and the return probe takes the
slot and adds the bytes to the totals, to the process and to the flow. A program that accounts goes
from one map operation to the next, with those of other threads in between; its states are
`TrafficPoint`.
-/

namespace Anettrace.Traffic

open Library

/-- `enum traffic_operation`. -/
inductive TrafficOperation where
  | tcpTx | tcpRx | udp4Tx | udp4Rx | udp6Tx | udp6Rx
  deriving DecidableEq, Repr, Inhabited

/-- The protocol that the entry probe of an operation passes. -/
def TrafficOperation.protocol : TrafficOperation → UInt8
  | .tcpTx | .tcpRx => 6
  | .udp4Tx | .udp4Rx | .udp6Tx | .udp6Rx => 17

def TrafficOperation.expectedFamily : TrafficOperation → UInt16
  | .tcpTx | .tcpRx => 0
  | .udp4Tx | .udp4Rx => 2
  | .udp6Tx | .udp6Rx => 10

/-- The direction that the return probe of an operation passes. -/
def TrafficOperation.tx : TrafficOperation → Bool
  | .tcpTx | .udp4Tx | .udp6Tx => true
  | .tcpRx | .udp4Rx | .udp6Rx => false

/-- `traffic_config_t`. -/
structure TrafficConfig where
  tid : UInt32
  uid : UInt32
  protocol : UInt8
  uidEnabled : Bool
  deriving DecidableEq, Repr, Inhabited

/-- `traffic_flow_key_t`; an address has 16 bytes. -/
structure TrafficFlowKey where
  tgid : UInt32
  tid : UInt32
  family : UInt16
  lport : UInt16
  rport : UInt16
  protocol : UInt8
  flags : UInt8
  laddr : List UInt8
  raddr : List UInt8
  comm : List UInt8
  processStartNs : UInt64
  deriving DecidableEq, Repr, Inhabited

/-- `traffic_process_key_t`. -/
structure TrafficProcessKey where
  startTimeNs : UInt64
  tgid : UInt32
  deriving DecidableEq, Repr, Inhabited

def TrafficFlowKey.process (flow : TrafficFlowKey) : TrafficProcessKey :=
  ⟨flow.processStartNs, flow.tgid⟩

/-- `traffic_flow_value_t`. -/
structure TrafficCounters where
  txBytes : UInt64
  rxBytes : UInt64
  lastSeenNs : UInt64
  firstSeenNs : UInt64
  deriving DecidableEq, Repr, Inhabited

/-- An entry of `traffic_processes`. -/
structure TrafficProcess where
  key : TrafficProcessKey
  counters : TrafficCounters
  comm : List UInt8
  deriving DecidableEq, Repr, Inhabited

/-- An entry that `traffic_flows` has or had. -/
structure TrafficFlow where
  key : TrafficFlowKey
  counters : TrafficCounters
  deriving DecidableEq, Repr, Inhabited

/-- `struct traffic_inflight_value`, with the number of the call whose entry probe stored it. -/
structure TrafficInflight where
  flow : TrafficFlowKey
  sk : UInt64
  source : Nat
  deriving DecidableEq, Repr, Inhabited

/-- `enum traffic_stat_index`. -/
inductive TrafficStat where
  | inflightDrop | flowDrop | udpEndpointMiss | processDrop | processIdMiss
  deriving DecidableEq, Repr, Inhabited

/-- The maps. Entries of `traffic_processes` are never deleted, so its pointers are places in a
list; those of `traffic_flows` are places among the entries it ever had. -/
structure TrafficMaps where
  inflight : Keyed (UInt64 × TrafficOperation) TrafficInflight
  totals : TrafficCounters
  processes : List TrafficProcess
  flows : Keyed TrafficFlowKey Nat
  cells : List TrafficFlow
  stats : TrafficStat → UInt64

/-- The maps when the programs are loaded. -/
def TrafficMaps.init : TrafficMaps :=
  ⟨.empty, ⟨0, 0, 0, 0⟩, [], .empty, [], fun _ => 0⟩

def trafficStatInc (stat : TrafficStat) (maps : TrafficMaps) : TrafficMaps :=
  { maps with stats := Function.update maps.stats stat (maps.stats stat + 1) }

/-- The task a probe interrupts, with what the probes read of its leader: `traffic_process_start`,
which is 0 where it cannot be read, and the name. -/
structure TrafficTask where
  task : Probes.Task
  processStart : UInt64
  leaderComm : Option (List UInt8)
  deriving DecidableEq, Repr, Inhabited

/-- What `traffic_fill_key` reads of a socket; ports are in network byte order except `num`. -/
structure TrafficSock where
  family : UInt16
  num : UInt16
  sport : UInt16
  dport : UInt16
  rcvSaddr : List UInt8
  daddr : List UInt8
  v6RcvSaddr : List UInt8
  v6Daddr : List UInt8
  deriving DecidableEq, Repr, Inhabited

/-- `bpf_ntohs` on a little-endian machine. -/
def ntohs (port : UInt16) : UInt16 :=
  (port >>> 8) ||| (port <<< 8)

/-- An address of a family of 4 bytes in the union of the key. -/
def addrV4 (addr : List UInt8) : List UInt8 :=
  addr ++ List.replicate 12 0

/-- The address of a key before it is filled. -/
def addrUnknown : List UInt8 :=
  List.replicate 16 0

def trafficFiltered (config : TrafficConfig) (now : TrafficTask) (protocol : UInt8) : Bool :=
  (config.protocol ≠ 0 && config.protocol ≠ protocol) ||
    (config.tid ≠ 0 && config.tid ≠ now.task.tid) ||
    (config.uidEnabled && config.uid ≠ now.task.uid)

def trafficFillKey (config : TrafficConfig) (now : TrafficTask) (sk : UInt64) (sock : TrafficSock)
    (protocol : UInt8) (expectedFamily : UInt16) : Option TrafficFlowKey :=
  if sk = 0 ∨ trafficFiltered config now protocol then none
  else if expectedFamily ≠ 0 ∧ sock.family ≠ expectedFamily then none
  else
    let key : TrafficFlowKey :=
      { tgid := now.task.tgid, tid := now.task.tid, family := sock.family, lport := 0, rport := 0,
        protocol := protocol, flags := 0, laddr := addrUnknown, raddr := addrUnknown,
        comm := now.task.comm, processStartNs := now.processStart }
    if protocol = 17 then
      -- `TRAFFIC_ENDPOINT_UNKNOWN`: an unconnected socket does not hold the datagram's endpoints
      some { key with flags := 1 }
    else
      let key := { key with
        lport := if sock.num = 0 then ntohs sock.sport else sock.num
        rport := ntohs sock.dport }
      if sock.family = 2 then
        some { key with laddr := addrV4 sock.rcvSaddr, raddr := addrV4 sock.daddr }
      else if sock.family = 10 then
        some { key with laddr := sock.v6RcvSaddr, raddr := sock.v6Daddr }
      else none

/-- `traffic_enter` of the call with the number `source`; `stored` is whether the update of
`traffic_inflight` succeeds. -/
def trafficEnter (config : TrafficConfig) (now : TrafficTask) (operation : TrafficOperation)
    (sk : UInt64) (sock : TrafficSock) (stored : Bool) (source : Nat) (maps : TrafficMaps) :
    TrafficMaps :=
  match trafficFillKey config now sk sock operation.protocol operation.expectedFamily with
  | none => maps
  | some flow =>
      if stored then
        { maps with
          inflight := maps.inflight.put (now.task.pidTgid, operation) ⟨flow, sk, source⟩ }
      else trafficStatInc .inflightDrop maps

/-- The slot that `traffic_udp_flow` looks for, by the family of the socket. -/
def trafficUdpOperation (family : UInt16) (tx : Bool) : Option TrafficOperation :=
  if family = 2 then some (if tx then .udp4Tx else .udp4Rx)
  else if family = 10 then some (if tx then .udp6Tx else .udp6Rx)
  else none

/-- The endpoints that a probe read. -/
structure TrafficEndpoints where
  family : UInt16
  laddr : List UInt8
  raddr : List UInt8
  lport : UInt16
  rport : UInt16
  deriving DecidableEq, Repr, Inhabited

def TrafficFlowKey.withEndpoints (flow : TrafficFlowKey) (ends : TrafficEndpoints) :
    TrafficFlowKey :=
  { flow with
    family := ends.family, laddr := ends.laddr, raddr := ends.raddr
    lport := ends.lport, rport := ends.rport, flags := 0 }

/-- What the three endpoint probes do: find the slot by `traffic_udp_flow`, and store the endpoints
there unless one could not be read. -/
def trafficStoreEndpoints (config : TrafficConfig) (now : TrafficTask) (sk : UInt64)
    (family : UInt16) (tx : Bool) (ends : Option TrafficEndpoints) (maps : TrafficMaps) :
    TrafficMaps :=
  if sk = 0 ∨ (config.tid ≠ 0 ∧ config.tid ≠ now.task.tid) ∨
      (config.uidEnabled ∧ config.uid ≠ now.task.uid) then maps
  else
    match trafficUdpOperation family tx with
    | none => maps
    | some operation =>
        match maps.inflight (now.task.pidTgid, operation), ends with
        | some value, some ends =>
            if value.sk ≠ sk then maps
            else
              { maps with
                inflight := maps.inflight.put (now.task.pidTgid, operation)
                  { value with flow := value.flow.withEndpoints ends } }
        | _, _ => maps

/-- What a probe reads of a datagram's route or headers. -/
structure TrafficRoute where
  saddr : List UInt8
  daddr : List UInt8
  source : UInt16
  dest : UInt16
  deriving DecidableEq, Repr, Inhabited

def trafficUdp4Endpoints (config : TrafficConfig) (now : TrafficTask) (sk : UInt64)
    (family : UInt16) (route : Option TrafficRoute) (maps : TrafficMaps) : TrafficMaps :=
  trafficStoreEndpoints config now sk family true
    (route.map fun route =>
      ⟨2, addrV4 route.saddr, addrV4 route.daddr, ntohs route.source, ntohs route.dest⟩) maps

def trafficUdp6Endpoints (config : TrafficConfig) (now : TrafficTask) (sk : UInt64)
    (family : UInt16) (route : Option TrafficRoute) (maps : TrafficMaps) : TrafficMaps :=
  trafficStoreEndpoints config now sk family true
    (route.map fun route => ⟨10, route.saddr, route.daddr, ntohs route.source, ntohs route.dest⟩)
      maps

def trafficUdpReceiveEndpoints (config : TrafficConfig) (now : TrafficTask) (sk : UInt64)
    (family : UInt16) (packet : Option (UInt8 × TrafficRoute)) (maps : TrafficMaps) : TrafficMaps :=
  trafficStoreEndpoints config now sk family false
    (packet.bind fun (version, route) =>
      if version = 4 then
        some ⟨2, addrV4 route.daddr, addrV4 route.saddr, ntohs route.dest, ntohs route.source⟩
      else if version = 6 then
        some ⟨10, route.daddr, route.saddr, ntohs route.dest, ntohs route.source⟩
      else none) maps

def trafficCounterAdd (bytes : UInt64) (tx : Bool) (nowNs : UInt64) (value : TrafficCounters) :
    TrafficCounters :=
  if tx then { value with txBytes := value.txBytes + bytes, lastSeenNs := nowNs }
  else { value with rxBytes := value.rxBytes + bytes, lastSeenNs := nowNs }

/-- Where `traffic_account` is: before adding to the totals; before the lookup, the insertion and
the second lookup of the process, or with a pointer to it; and so for the flow. -/
inductive TrafficPoint where
  | totals
  | process | processInsert | processAgain | processAdd (place : Nat)
  | flow | flowInsert | flowAgain | flowAdd (place : Nat)
  deriving DecidableEq, Repr, Inhabited

/-- A run of `traffic_account`. `source` is the call whose entry probe stored the flow. -/
structure TrafficAccount where
  source : Nat
  flow : TrafficFlowKey
  bytes : UInt64
  tx : Bool
  nowNs : UInt64
  leaderComm : Option (List UInt8)
  point : TrafficPoint
  deriving DecidableEq, Repr, Inhabited

def trafficExit (thread : UInt64) (operation : TrafficOperation) (bytes : Int32) (nowNs : UInt64)
    (leaderComm : Option (List UInt8)) (maps : TrafficMaps) : TrafficMaps × Option TrafficAccount :=
  match maps.inflight (thread, operation) with
  | none => (maps, none)
  | some stored =>
      let maps := { maps with inflight := maps.inflight.remove (thread, operation) }
      if 0 < bytes then
        let maps :=
          if stored.flow.flags &&& 1 ≠ 0 then trafficStatInc .udpEndpointMiss maps else maps
        (maps, some
          { source := stored.source, flow := stored.flow, bytes := UInt64.ofNat bytes.toInt.toNat
            tx := operation.tx, nowNs := nowNs, leaderComm := leaderComm, point := .totals })
      else (maps, none)

/-- Where bytes end up. -/
inductive TrafficTable where
  | totals
  | process (key : TrafficProcessKey)
  | processDrop
  | processIdMiss
  | flow (key : TrafficFlowKey)
  deriving DecidableEq, Repr, Inhabited

/-- An addition: the table, the bytes, the direction, and the call whose entry probe stored the flow
that gets them. -/
structure TrafficCredit where
  table : TrafficTable
  bytes : UInt64
  tx : Bool
  source : Nat
  deriving DecidableEq, Repr, Inhabited

def lookupProcess (key : TrafficProcessKey) (maps : TrafficMaps) : Option Nat :=
  maps.processes.findIdx? fun process => process.key = key

def TrafficMaps.addProcess (maps : TrafficMaps) (place : Nat)
    (add : TrafficCounters → TrafficCounters) : TrafficMaps :=
  { maps with
    processes := maps.processes.modify place fun process =>
      { process with counters := add process.counters } }

def TrafficMaps.addFlow (maps : TrafficMaps) (place : Nat)
    (add : TrafficCounters → TrafficCounters) : TrafficMaps :=
  { maps with
    cells := maps.cells.modify place fun flow => { flow with counters := add flow.counters } }

/-- The next map operation of `traffic_account`; `stored` is whether an insertion finds room. Next
to the maps, the point after it, and what it adds. -/
def TrafficAccount.advance (account : TrafficAccount) (stored : Bool) (maps : TrafficMaps) :
    TrafficMaps × Option TrafficPoint × Option TrafficTable :=
  let add := trafficCounterAdd account.bytes account.tx account.nowNs
  let zero : TrafficCounters := ⟨0, 0, 0, account.nowNs⟩
  match account.point with
  | .totals => ({ maps with totals := add maps.totals }, some .process, some .totals)
  | .process =>
      if account.flow.processStartNs = 0 then
        (trafficStatInc .processIdMiss maps, some .flow, some .processIdMiss)
      else
        match lookupProcess account.flow.process maps with
        | some place => (maps, some (.processAdd place), none)
        | none => (maps, some .processInsert, none)
  | .processInsert =>
      -- `BPF_NOEXIST`: another thread can win the insertion
      if (lookupProcess account.flow.process maps).isNone ∧ stored then
        ({ maps with processes := maps.processes ++
          [⟨account.flow.process, zero, account.leaderComm.getD account.flow.comm⟩] },
          some .processAgain, none)
      else (maps, some .processAgain, none)
  | .processAgain =>
      match lookupProcess account.flow.process maps with
      | some place => (maps, some (.processAdd place), none)
      | none => (trafficStatInc .processDrop maps, some .flow, some .processDrop)
  | .processAdd place =>
      (maps.addProcess place add, some .flow,
        maps.processes[place]?.map fun process => .process process.key)
  | .flow =>
      match maps.flows account.flow with
      | some place => (maps, some (.flowAdd place), none)
      | none => (maps, some .flowInsert, none)
  | .flowInsert =>
      if (maps.flows account.flow).isNone ∧ stored then
        ({ maps with
          flows := maps.flows.put account.flow maps.cells.length
          cells := maps.cells ++ [⟨account.flow, zero⟩] }, some .flowAgain, none)
      else (maps, some .flowAgain, none)
  | .flowAgain =>
      match maps.flows account.flow with
      | some place => (maps, some (.flowAdd place), none)
      | none => (trafficStatInc .flowDrop maps, none, none)
  | .flowAdd place =>
      (maps.addFlow place add, none, maps.cells[place]?.map fun flow => .flow flow.key)

end Anettrace.Traffic
