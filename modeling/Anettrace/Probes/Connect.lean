import Anettrace.Native.Sockets
import Anettrace.Probes.Kernel
import Anettrace.Library.Run

/-!
# Connect attempts

The connect probes of `src/progs/core.c`. An attempt begins when its thread enters `connect()`; its
record is kept by thread, by file descriptor and by socket until the attempt has its result.
-/

namespace Anettrace.Probes

open Library Export Native

/-- `connect_fd_key_t`. -/
structure ConnectFdKey where
  tgid : UInt32
  fd : Int32
  deriving DecidableEq, Repr, Inhabited

/-- The remote end that `connect_read_endpoint` reads. -/
structure RemoteEndpoint where
  family : UInt16
  port : UInt16
  addr : List UInt8
  deriving DecidableEq, Repr, Inhabited

/-- `connect_pending_t`. -/
structure ConnectPending where
  attemptKey : UInt64
  startTs : UInt64
  socketKey : UInt64
  socketGeneration : UInt32
  fd : Int32
  tid : UInt32
  tgid : UInt32
  uid : UInt32
  remote : RemoteEndpoint
  deriving DecidableEq, Repr, Inhabited

def ConnectPending.fdKey (pending : ConnectPending) : ConnectFdKey :=
  ⟨pending.tgid, pending.fd⟩

/-- `connect_getsockopt_t`. -/
structure ConnectGetsockopt where
  pending : ConnectPending
  optval : UInt64
  deriving DecidableEq, Repr, Inhabited

/-- `connect_event_t`: what the exporter shows of it, and the other fields. -/
structure ConnectOutput extends ConnectEvent where
  fd : Int32
  uid : UInt32
  remote : RemoteEndpoint
  ske : Option Endpoints
  deriving DecidableEq, Repr, Inhabited

/-- The maps of the connect probes. -/
structure ConnectMaps where
  pending : Keyed UInt64 ConnectPending
  fd : Keyed ConnectFdKey ConnectPending
  getsockopt : Keyed UInt64 ConnectGetsockopt
  socket : Keyed UInt64 ConnectPending

/-- The maps at the start of a capture. -/
def ConnectMaps.init : ConnectMaps :=
  ⟨.empty, .empty, .empty, .empty⟩

/-- What a connect probe finds around it: the clock, the task it interrupts, whether the scratch
buffer is there, and which maps would take a new entry. -/
structure ConnectNow where
  ts : UInt64
  current : Task
  scratch : Bool
  storesPending : Bool
  storesFd : Bool
  storesGetsockopt : Bool
  storesSocket : Bool
  deriving DecidableEq, Repr, Inhabited

def updateElem {κ ν : Type*} [DecidableEq κ] (stores : Bool) (map : Keyed κ ν) (key : κ)
    (value : ν) : Keyed κ ν :=
  if stores then map.put key value else map

def connectEventInit (now : ConnectNow) (pending : ConnectPending) (kind : ConnectKind) :
    ConnectOutput where
  kind := kind
  flags := 0
  ts := now.ts
  attemptKey := pending.attemptKey
  socketKey := pending.socketKey
  socketGeneration := pending.socketGeneration
  result := 0
  tid := pending.tid
  tgid := pending.tgid
  task := now.current.comm
  fd := pending.fd
  uid := pending.uid
  remote := pending.remote
  ske := none

def connectForget (maps : ConnectMaps) (pending : ConnectPending) : ConnectMaps :=
  let maps := { maps with fd := maps.fd.remove pending.fdKey }
  if pending.socketKey ≠ 0 then { maps with socket := maps.socket.remove pending.socketKey }
    else maps

def connectCurrentMatches (args : BpfArgs) (tid uid : UInt32) : Bool :=
  args.ready && args.perfetto && args.connectDiagnostics && perfettoCurrentMatches args tid uid

/-- The test of the other connect probes. -/
def BpfArgs.watchesConnects (args : BpfArgs) : Bool :=
  args.ready && args.perfetto && args.connectDiagnostics

def solSocket : Int32 := 1

def soError : Int32 := 4

def getsockoptEnter (args : BpfArgs) (now : ConnectNow) (fd level optname : Int32)
    (optval : UInt64) (maps : ConnectMaps) : ConnectMaps :=
  if !connectCurrentMatches args now.current.tid now.current.uid then maps
  else if level ≠ solSocket ∨ optname ≠ soError then maps
  else
    match maps.fd ⟨now.current.tgid, fd⟩ with
    | none => maps
    | some pending =>
        if !now.scratch then maps
        else
          { maps with
            getsockopt := updateElem now.storesGetsockopt maps.getsockopt now.current.pidTgid
              ⟨pending, optval⟩ }

/-- The record that `connect_sys_enter` begins an attempt with. -/
def connectBegun (now : ConnectNow) (fd : Int32) (remote : RemoteEndpoint) : ConnectPending where
  attemptKey := now.ts ^^^ (now.current.pidTgid * 0x9e3779b97f4a7c15)
  startTs := now.ts
  socketKey := 0
  socketGeneration := 0
  fd := fd
  tid := now.current.tid
  tgid := now.current.tgid
  uid := now.current.uid
  remote := remote

def connectEnter (args : BpfArgs) (now : ConnectNow) (fd : Int32) (remote : Option RemoteEndpoint)
    (maps : ConnectMaps) : ConnectMaps × List ConnectOutput :=
  if !connectCurrentMatches args now.current.tid now.current.uid ∨ !now.scratch then (maps, [])
  else
    match remote with
    | none => (maps, [])
    | some remote =>
        let pending := connectBegun now fd remote
        ({ maps with
            pending := updateElem now.storesPending maps.pending now.current.pidTgid pending
            fd := updateElem now.storesFd maps.fd pending.fdKey pending },
          [connectEventInit now pending .start])

/-- `connect_sys_exit` of `getsockopt()`; `error` is the value at `optval` where it can be read. -/
def getsockoptExit (args : BpfArgs) (now : ConnectNow) (result : Int64) (error : Option Int32)
    (maps : ConnectMaps) : ConnectMaps × List ConnectOutput :=
  if !args.watchesConnects then (maps, [])
  else
    match maps.getsockopt now.current.pidTgid with
    | none => (maps, [])
    | some get =>
        let retired (maps : ConnectMaps) : ConnectMaps :=
          { maps with getsockopt := maps.getsockopt.remove now.current.pidTgid }
        match error with
        | none => (retired maps, [])
        | some error =>
            if !now.scratch ∨ result ≠ 0 ∨ get.optval = 0 then (retired maps, [])
            else
              let event :=
                { connectEventInit now get.pending .soError with result := error.toInt64 }
              let maps := if error ≠ 115 ∧ error ≠ 114 then connectForget maps get.pending else maps
              (retired maps, [event])

def connectExit (args : BpfArgs) (now : ConnectNow) (result : Int64) (maps : ConnectMaps) :
    ConnectMaps × List ConnectOutput :=
  if !args.watchesConnects then (maps, [])
  else
    match maps.pending now.current.pidTgid with
    | none => (maps, [])
    | some pending =>
        let retired (maps : ConnectMaps) : ConnectMaps :=
          { maps with pending := maps.pending.remove now.current.pidTgid }
        if !now.scratch then (retired (connectForget maps pending), [])
        else
          let asyncPending := result = -115 ∨ result = -114
          let event :=
            { connectEventInit now pending .result with
              result := result
              flags := if asyncPending then 1 else 0 }
          (retired (if asyncPending then maps else connectForget maps pending), [event])

/-- The states of a socket that `tcp_close` tells apart. -/
inductive TcpState where
  | synSent | synRecv | close | other
  deriving DecidableEq, Repr, Inhabited

def tcpCloseConnect (args : BpfArgs) (now : ConnectNow) (sk : UInt64) (state : TcpState)
    (maps : ConnectMaps) : ConnectMaps × List ConnectOutput :=
  if !args.watchesConnects ∨ sk = 0 then (maps, [])
  else
    match maps.socket sk with
    | none => (maps, [])
    | some pending =>
        (connectForget maps pending,
          if state ≠ .other ∧ now.scratch then [connectEventInit now pending .cancel] else [])

def inetStreamConnect (args : BpfArgs) (now : ConnectNow) (sk : UInt64) (generation : UInt32)
    (ske : Endpoints) (maps : ConnectMaps) : ConnectMaps × List ConnectOutput :=
  if !args.watchesConnects then (maps, [])
  else
    match maps.pending now.current.pidTgid with
    | none => (maps, [])
    | some pending =>
        if sk = 0 ∨ !now.scratch then (maps, [])
        else
          let updated := { pending with socketKey := sk, socketGeneration := generation }
          ({ maps with
              pending := updateElem now.storesPending maps.pending now.current.pidTgid updated
              fd := updateElem now.storesFd maps.fd updated.fdKey updated
              socket := updateElem now.storesSocket maps.socket sk updated },
            [{ connectEventInit now updated .socket with ske := some ske }])

/-- A step of the kernel: a connect probe fires, or a map drops an entry. -/
inductive ConnectStep where
  | getsockoptEnter (now : ConnectNow) (fd level optname : Int32) (optval : UInt64)
  | connectEnter (now : ConnectNow) (fd : Int32) (remote : Option RemoteEndpoint)
  | getsockoptExit (now : ConnectNow) (result : Int64) (error : Option Int32)
  | connectExit (now : ConnectNow) (result : Int64)
  | tcpClose (now : ConnectNow) (sk : UInt64) (state : TcpState)
  | inetStreamConnect (now : ConnectNow) (sk : UInt64) (generation : UInt32) (ske : Endpoints)
  | evictPending (thread : UInt64)
  | evictFd (key : ConnectFdKey)
  | evictGetsockopt (thread : UInt64)
  | evictSocket (sk : UInt64)
  deriving Repr

/-- The maps after a step, and what it hands to user space. -/
def ConnectStep.apply (args : BpfArgs) (maps : ConnectMaps) :
    ConnectStep → ConnectMaps × List ConnectOutput
  | .getsockoptEnter now fd level optname optval =>
      (Probes.getsockoptEnter args now fd level optname optval maps, [])
  | .connectEnter now fd remote => Probes.connectEnter args now fd remote maps
  | .getsockoptExit now result error => Probes.getsockoptExit args now result error maps
  | .connectExit now result => Probes.connectExit args now result maps
  | .tcpClose now sk state => tcpCloseConnect args now sk state maps
  | .inetStreamConnect now sk generation ske =>
      Probes.inetStreamConnect args now sk generation ske maps
  | .evictPending thread => ({ maps with pending := maps.pending.remove thread }, [])
  | .evictFd key => ({ maps with fd := maps.fd.remove key }, [])
  | .evictGetsockopt thread => ({ maps with getsockopt := maps.getsockopt.remove thread }, [])
  | .evictSocket sk => ({ maps with socket := maps.socket.remove sk }, [])

/-- The maps after a run from the start of the capture. -/
def connectMapsAfter (args : BpfArgs) (steps : List ConnectStep) : ConnectMaps :=
  Run.run (fun maps step => (step.apply args maps).1) .init steps

/-- The records that a run hands to user space. -/
def connectOutputs (args : BpfArgs) (steps : List ConnectStep) : List ConnectOutput :=
  Run.observations (fun maps step => (step.apply args maps).1)
    (fun maps step => (step.apply args maps).2) .init steps

/-- A probe of one thread, with nothing in short supply. -/
def smallNow (ts : UInt64) : ConnectNow :=
  ⟨ts, ⟨1, 1, 1000, 100, []⟩, true, true, true, true, true⟩

/-- The options of a capture with connect diagnostics. -/
def smallArgs : BpfArgs :=
  ⟨true, true, false, true, false, 0, false, 0⟩

end Anettrace.Probes
