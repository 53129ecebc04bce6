import Mathlib.Data.UInt
import Anettrace.Library.Run
import Anettrace.Traffic.Probes

/-!
# Protocol calls

The calls of all threads, as the probes of `src/progs/traffic.c` see them: each call is entered and
returns, those of one thread one inside the other, and the runs of `traffic_account` that returns
start go on in any order. `TrafficCall.Wanted` says which calls are to be counted, by what their
entry probes read, and `TrafficWorld.Accounted` what the tables should have of them.
-/

namespace Anettrace.Traffic

open Library

/-- A protocol call: its number and operation, and the task and the socket that its entry probe
finds. -/
structure TrafficCall where
  number : Nat
  operation : TrafficOperation
  caller : TrafficTask
  sk : UInt64
  sock : TrafficSock
  deriving DecidableEq, Repr, Inhabited

def TrafficCall.thread (call : TrafficCall) : UInt64 := call.caller.task.pidTgid

/-- A call that returned `bytes`: whether its return probe ran, the run of `traffic_account` it
started as far as it is not over, and what that run added. -/
structure TrafficReturn where
  call : TrafficCall
  bytes : Int32
  probed : Bool
  account : Option TrafficAccount
  credits : List TrafficCredit
  deriving DecidableEq, Repr, Inhabited

/-- The maps, the calls of each thread that did not return yet, innermost first, those that did, and
the number of calls. -/
structure TrafficWorld where
  maps : TrafficMaps
  calls : UInt64 → List TrafficCall
  returns : List TrafficReturn
  made : Nat

/-- The world when the programs are loaded. -/
def TrafficWorld.init : TrafficWorld :=
  ⟨.init, fun _ => [], [], 0⟩

/-- A step: a call is entered, an endpoint probe fires, a call returns, one of the runs of
`traffic_account` goes on by a map operation, or a flow leaves its map, by the map itself or by user
space. -/
inductive TrafficStep where
  | enter (now : TrafficTask) (operation : TrafficOperation) (sk : UInt64) (sock : TrafficSock)
      (stored : Bool)
  | udp4Endpoints (now : TrafficTask) (sk : UInt64) (family : UInt16) (route : Option TrafficRoute)
  | udp6Endpoints (now : TrafficTask) (sk : UInt64) (family : UInt16) (route : Option TrafficRoute)
  | receiveEndpoints (now : TrafficTask) (sk : UInt64) (family : UInt16)
      (packet : Option (UInt8 × TrafficRoute))
  | ret (thread : UInt64) (bytes : Int32) (probed : Bool) (nowNs : UInt64)
      (leaderComm : Option (List UInt8))
  | account (place : Nat) (stored : Bool)
  | evictFlow (flow : TrafficFlowKey)

/-- The world after a call is entered. -/
def TrafficWorld.enter (config : TrafficConfig) (world : TrafficWorld) (now : TrafficTask)
    (operation : TrafficOperation) (sk : UInt64) (sock : TrafficSock) (stored : Bool) :
    TrafficWorld :=
  let thread := now.task.pidTgid
  { world with
    maps := trafficEnter config now operation sk sock stored world.made world.maps
    calls := Function.update world.calls thread
      (⟨world.made, operation, now, sk, sock⟩ :: world.calls thread)
    made := world.made + 1 }

/-- The world after the innermost call of a thread returns; a return probe that is missed does
nothing. -/
def TrafficWorld.ret (world : TrafficWorld) (thread : UInt64) (bytes : Int32) (probed : Bool)
    (nowNs : UInt64) (leaderComm : Option (List UInt8)) : TrafficWorld :=
  match world.calls thread with
  | [] => world
  | call :: outer =>
      let (maps, account) :=
        if probed then trafficExit thread call.operation bytes nowNs leaderComm world.maps
        else (world.maps, none)
      { world with
        maps := maps
        calls := Function.update world.calls thread outer
        returns := world.returns ++ [⟨call, bytes, probed, account, []⟩] }

/-- The world after a run of `traffic_account` went on. -/
def TrafficWorld.account (world : TrafficWorld) (place : Nat) (stored : Bool) : TrafficWorld :=
  match world.returns[place]? with
  | none => world
  | some returned =>
      match returned.account with
      | none => world
      | some account =>
          let (maps, point, table) := account.advance stored world.maps
          let credited := table.toList.map fun table =>
            ⟨table, account.bytes, account.tx, account.source⟩
          { world with
            maps := maps
            returns := world.returns.set place { returned with
              account := point.map fun point => { account with point := point }
              credits := returned.credits ++ credited } }

def TrafficStep.apply (config : TrafficConfig) (world : TrafficWorld) : TrafficStep → TrafficWorld
  | .enter now operation sk sock stored => world.enter config now operation sk sock stored
  | .udp4Endpoints now sk family route =>
      { world with maps := trafficUdp4Endpoints config now sk family route world.maps }
  | .udp6Endpoints now sk family route =>
      { world with maps := trafficUdp6Endpoints config now sk family route world.maps }
  | .receiveEndpoints now sk family packet =>
      { world with maps := trafficUdpReceiveEndpoints config now sk family packet world.maps }
  | .ret thread bytes probed nowNs leaderComm => world.ret thread bytes probed nowNs leaderComm
  | .account place stored => world.account place stored
  | .evictFlow flow =>
      { world with maps := { world.maps with flows := world.maps.flows.remove flow } }

def trafficAfter (config : TrafficConfig) (steps : List TrafficStep) : TrafficWorld :=
  Run.run (TrafficStep.apply config) .init steps

/-- The calls of one thread that are under way are of different operations, as those of
`udpv6_sendmsg` and the `udp_sendmsg` it calls. -/
def TrafficStep.Possible (world : TrafficWorld) : TrafficStep → Prop
  | .enter now operation _ _ _ =>
      ∀ call ∈ world.calls now.task.pidTgid, call.operation ≠ operation
  | .ret thread _ _ _ _ => world.calls thread ≠ []
  | _ => True

def TrafficRun (config : TrafficConfig) (steps : List TrafficStep) : Prop :=
  ∀ before step later, steps = before ++ step :: later →
    step.Possible (trafficAfter config before)

def TrafficOperation.families : TrafficOperation → List UInt16
  | .tcpTx | .tcpRx => [2, 10]
  | .udp4Tx | .udp4Rx => [2]
  | .udp6Tx | .udp6Rx => [10]

/-- A call that is to be counted: the options ask for its protocol, its thread and its user, and its
socket is one that its operation is for. -/
structure TrafficCall.Wanted (config : TrafficConfig) (call : TrafficCall) : Prop where
  socket : call.sk ≠ 0
  protocol : config.protocol = 0 ∨ config.protocol = call.operation.protocol
  tid : config.tid = 0 ∨ config.tid = call.caller.task.tid
  uid : config.uidEnabled = true → config.uid = call.caller.task.uid
  family : call.sock.family ∈ call.operation.families

instance (config : TrafficConfig) (call : TrafficCall) : Decidable (call.Wanted config) :=
  decidable_of_iff
    (call.sk ≠ 0 ∧ (config.protocol = 0 ∨ config.protocol = call.operation.protocol) ∧
      (config.tid = 0 ∨ config.tid = call.caller.task.tid) ∧
      (config.uidEnabled = true → config.uid = call.caller.task.uid) ∧
      call.sock.family ∈ call.operation.families)
    ⟨fun ⟨socket, protocol, tid, uid, family⟩ => ⟨socket, protocol, tid, uid, family⟩,
      fun ⟨socket, protocol, tid, uid, family⟩ => ⟨socket, protocol, tid, uid, family⟩⟩

/-- The condition on a step: the slot of a call that is to be counted finds room, and a call that is
not to be counted and returns data finds no slot of its thread and operation. -/
def TrafficStep.OwnSlot (config : TrafficConfig) (world : TrafficWorld) : TrafficStep → Prop
  | .enter now operation sk sock stored =>
      (⟨world.made, operation, now, sk, sock⟩ : TrafficCall).Wanted config → stored = true
  | .ret thread bytes true _ _ =>
      0 < bytes → ∀ call ∈ (world.calls thread).head?, ¬call.Wanted config →
        world.maps.inflight (thread, call.operation) = none
  | _ => True

instance (world : TrafficWorld) : (step : TrafficStep) → Decidable (step.Possible world)
  | .enter now operation _ _ _ =>
      inferInstanceAs (Decidable (∀ call ∈ world.calls now.task.pidTgid,
        call.operation ≠ operation))
  | .ret thread _ _ _ _ => inferInstanceAs (Decidable (world.calls thread ≠ []))
  | .udp4Endpoints .. | .udp6Endpoints .. | .receiveEndpoints .. | .account .. | .evictFlow .. =>
      isTrue trivial

instance (config : TrafficConfig) (world : TrafficWorld) :
    (step : TrafficStep) → Decidable (step.OwnSlot config world)
  | .enter now operation sk sock stored =>
      inferInstanceAs (Decidable
        ((⟨world.made, operation, now, sk, sock⟩ : TrafficCall).Wanted config → stored = true))
  | .ret thread bytes true _ _ =>
      inferInstanceAs (Decidable
        (0 < bytes → ∀ call ∈ (world.calls thread).head?, ¬call.Wanted config →
          world.maps.inflight (thread, call.operation) = none))
  | .ret _ _ false _ _ | .udp4Endpoints .. | .udp6Endpoints .. | .receiveEndpoints ..
  | .account .. | .evictFlow .. => isTrue trivial

/-- The condition on a run. -/
def OwnSlots (config : TrafficConfig) (steps : List TrafficStep) : Prop :=
  ∀ before step later, steps = before ++ step :: later →
    step.OwnSlot config (trafficAfter config before)

/-! ## What is to be shown -/

def TrafficCounters.bytes (counters : TrafficCounters) (tx : Bool) : UInt64 :=
  if tx then counters.txBytes else counters.rxBytes

/-- The call is to be counted and returned data, and its return probe ran. -/
def TrafficReturn.Counts (config : TrafficConfig) (returned : TrafficReturn) : Prop :=
  returned.probed = true ∧ 0 < returned.bytes ∧ returned.call.Wanted config

instance (config : TrafficConfig) (returned : TrafficReturn) : Decidable (returned.Counts config) :=
  inferInstanceAs (Decidable (_ ∧ _))

/-- The bytes of a call, as they are added. -/
def TrafficReturn.amount (returned : TrafficReturn) : UInt64 :=
  UInt64.ofNat returned.bytes.toInt.toNat

/-- A flow has the endpoints of a socket. -/
structure TrafficFlowKey.EndsOf (flow : TrafficFlowKey) (sock : TrafficSock) : Prop where
  family : flow.family = sock.family
  flags : flow.flags = 0
  lport : flow.lport = if sock.num = 0 then ntohs sock.sport else sock.num
  rport : flow.rport = ntohs sock.dport
  v4 : sock.family = 2 → flow.laddr = addrV4 sock.rcvSaddr ∧ flow.raddr = addrV4 sock.daddr
  v6 : sock.family = 10 → flow.laddr = sock.v6RcvSaddr ∧ flow.raddr = sock.v6Daddr

/-- A flow of a call: its caller and its protocol, and for TCP the endpoints of its socket; those of
a datagram may be known only later. -/
structure TrafficCall.Owns (call : TrafficCall) (flow : TrafficFlowKey) : Prop where
  tgid : flow.tgid = call.caller.task.tgid
  tid : flow.tid = call.caller.task.tid
  comm : flow.comm = call.caller.task.comm
  processStartNs : flow.processStartNs = call.caller.processStart
  protocol : flow.protocol = call.operation.protocol
  ends : call.operation.protocol = 6 → flow.EndsOf call.sock

def TrafficCall.OwnTable (call : TrafficCall) : TrafficTable → Prop
  | .process key => ∃ flow, call.Owns flow ∧ key = flow.process
  | .flow key => call.Owns key
  | .totals | .processDrop | .processIdMiss => True

def TrafficTable.ofProcess : TrafficTable → Bool
  | .process _ | .processDrop | .processIdMiss => true
  | .totals | .flow _ => false

/-- A flow's counter. -/
def TrafficTable.ofFlow : TrafficTable → Bool
  | .flow _ => true
  | .totals | .process _ | .processDrop | .processIdMiss => false

/-- What a call adds: nothing unless it counts; else its bytes, in the direction of its operation
and by what its own entry probe stored, at most once to each kind of table and only to tables of its
own, and when its run is over, once to the totals and once to its process, to the drops or to the
missing identities. -/
structure TrafficReturn.Exact (config : TrafficConfig) (returned : TrafficReturn) : Prop where
  silent : ¬returned.Counts config → returned.credits = []
  own : ∀ credit ∈ returned.credits, credit.bytes = returned.amount ∧
    credit.tx = returned.call.operation.tx ∧ credit.source = returned.call.number ∧
      returned.call.OwnTable credit.table
  totals : (returned.credits.map TrafficCredit.table).count .totals ≤ 1
  process : (returned.credits.map TrafficCredit.table).countP TrafficTable.ofProcess ≤ 1
  flow : (returned.credits.map TrafficCredit.table).countP TrafficTable.ofFlow ≤ 1
  counted : returned.Counts config → returned.account = none →
    (returned.credits.map TrafficCredit.table).count .totals = 1 ∧
      (returned.credits.map TrafficCredit.table).countP TrafficTable.ofProcess = 1

@[simp] theorem TrafficTable.ofProcess_totals : TrafficTable.totals.ofProcess = false := rfl

@[simp] theorem TrafficTable.ofProcess_flow (key : TrafficFlowKey) :
    (TrafficTable.flow key).ofProcess = false := rfl

@[simp] theorem TrafficTable.ofFlow_totals : TrafficTable.totals.ofFlow = false := rfl

@[simp] theorem TrafficTable.ofFlow_flow (key : TrafficFlowKey) :
    (TrafficTable.flow key).ofFlow = true := rfl

/-- The bytes in one direction that a call added to tables of a kind. -/
def TrafficReturn.added (returned : TrafficReturn) (kind : TrafficTable → Bool) (tx : Bool) :
    UInt64 :=
  ((returned.credits.filter fun credit => kind credit.table && credit.tx = tx).map
    TrafficCredit.bytes).sum

/-- The bytes that the calls which returned added. -/
def TrafficWorld.added (world : TrafficWorld) (kind : TrafficTable → Bool) (tx : Bool) : UInt64 :=
  (world.returns.map fun returned => returned.added kind tx).sum

/-- The bytes of processes that had no room or no identity. -/
def TrafficTable.lost : TrafficTable → Bool
  | .processDrop | .processIdMiss => true
  | .totals | .process _ | .flow _ => false

/-- The bytes that a run of `traffic_account` added to the totals and not yet to its process. -/
def TrafficReturn.underWay (returned : TrafficReturn) (tx : Bool) : UInt64 :=
  match returned.account with
  | none => 0
  | some account =>
      match account.point with
      | .process | .processInsert | .processAgain | .processAdd _ =>
          if account.tx = tx then account.bytes else 0
      | .totals | .flow | .flowInsert | .flowAgain | .flowAdd _ => 0

/-- The accounts are in order: the totals have what the calls added to them, which is what the
processes have, what was lost and what is under way. -/
structure TrafficWorld.Accounted (config : TrafficConfig) (world : TrafficWorld) : Prop where
  exact : ∀ returned ∈ world.returns, returned.Exact config
  totals : ∀ tx, world.maps.totals.bytes tx = world.added (· = .totals) tx
  balance : ∀ tx, world.maps.totals.bytes tx =
    (world.maps.processes.map fun process => process.counters.bytes tx).sum +
      world.added TrafficTable.lost tx +
      (world.returns.map fun returned => returned.underWay tx).sum

end Anettrace.Traffic
