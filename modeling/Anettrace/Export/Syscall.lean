import Anettrace.Export.Io

/-!
# System calls

The pairing of syscall records in `src/perfetto_export.c`. Each thread has one slot for its current
call; ENTER and END records reach it through different buffers.
-/

namespace Anettrace.Export

/-- `ARRAY_SIZE(pending_syscalls)`. -/
def syscallSlots : Nat :=
  4096

def SyscallEvent.socketId (salt : UInt64) (call : SyscallEvent) : UInt64 :=
  if call.socketKey ≠ 0 then socketInstanceId salt call.socketKey call.socketGeneration else 0

def SyscallEvent.batch (call : SyscallEvent) : Bool :=
  call.kind = .sendmmsg || call.kind = .recvmmsg

/-- The records `export_network_syscall` returns early on. -/
def syscallFiltered (salt : UInt64) (call : SyscallEvent) : Bool :=
  call.kind = .other || call.ts < call.startTs ||
    (call.requireSocket && call.socketId salt = 0)

/-- The flow of a syscall record: useful only if the socket instance agrees. -/
def syscallFlow (salt : UInt64) (state : State) (call : SyscallEvent)
    (flowId : UInt64) : Option FlowState :=
  match flowFindAny state flowId with
  | none => none
  | some flow =>
      if call.socketId salt = 0 ∨ flow.socketId ≠ call.socketId salt then none else some flow

def networkSyscallRecord (salt : UInt64) (state : State) (call : SyscallEvent)
    (flowId : UInt64) (incomplete : Bool) : NetworkSyscall :=
  let flow := syscallFlow salt state call flowId
  { ts := call.ts
    startTs := call.startTs
    duration := call.ts - call.startTs
    syscall := call.kind
    callId := nativeUuid salt "syscall-call" (threadWord call.tgid call.tid) call.startTs
    tid := call.tid
    tgid := call.tgid
    uid := call.uid
    fd := call.fd
    flags := call.flags
    requestedBytes := call.requestedBytes
    requestedValid := call.requestedValid
    abi := call.abi
    batch := call.batch
    requestedMessages := call.requestedMessages
    result := call.result
    bytes := if !call.batch && !incomplete then resultBytes call.result else 0
    error := if !incomplete then resultError call.result else 0
    incomplete := incomplete
    socketId := call.socketId salt
    flowId := if flow.isSome then flowId else 0
    flowTag := flow.map formatFlowLabel
    wakeup := call.wakeup }

def exportNetworkSyscall (salt : UInt64) (state : State) (call : SyscallEvent)
    (flowId : UInt64) (incomplete : Bool) : List NetworkSyscall :=
  if syscallFiltered salt call then []
  else [networkSyscallRecord salt state call flowId incomplete]

def State.writeSyscalls (state : State) (records : List NetworkSyscall) : State :=
  { state with out := state.out ++ records.map .networkSyscall }

def syscallSlot (slots : List SyscallSlot) (call : SyscallEvent) : Option Nat :=
  slots.findIdx? fun slot => slot.event.tid = call.tid && slot.event.tgid = call.tgid

/-- What an END record does to the slot of its thread. -/
def finishSlot (call : SyscallEvent) (slot : SyscallSlot) : SyscallSlot :=
  { slot with
    active := slot.active && slot.event.startTs ≠ call.startTs
    completedTs := if slot.completedTs < call.startTs then call.startTs else slot.completedTs }

/-- The flow an END record is exported with: that of the call it ends. -/
def finishFlowId (call : SyscallEvent) (slot : SyscallSlot) : UInt64 :=
  if slot.active ∧ slot.event.startTs = call.startTs then slot.flowId else 0

/-- An ENTER record takes the slot of its thread: no later call is known to have ended, and the
slot holds no call that began at the same time or later. -/
def entersSlot (call : SyscallEvent) (slot : SyscallSlot) : Bool :=
  slot.completedTs < call.startTs && !(slot.active && call.startTs ≤ slot.event.startTs)

/-- The call that an ENTER record finds in the slot it takes, cut off at the start of the new
one. -/
def displaced (call : SyscallEvent) (slot : SyscallSlot) : SyscallEvent :=
  { slot.event with ts := call.startTs }

/-- The slot and the records that `handle_network_syscall` leaves once it found the slot of the
thread. -/
def handleSlot (salt : UInt64) (state : State) (call : SyscallEvent) (slot : SyscallSlot) :
    SyscallSlot × List NetworkSyscall :=
  if call.finished then
    (finishSlot call slot,
      exportNetworkSyscall salt state call (finishFlowId call slot) false)
  else if entersSlot call slot then
    ({ slot with event := call, flowId := 0, active := true },
      if slot.active then
        exportNetworkSyscall salt state (displaced call slot) slot.flowId true
      else [])
  else (slot, [])

def handleNetworkSyscall (salt : UInt64) (state : State) (call : SyscallEvent) : State :=
  if call.kind = .other then state
  else
    match syscallSlot state.syscalls call with
    | some index =>
        match state.syscalls[index]? with
        | some slot =>
            let (slot, records) := handleSlot salt state call slot
            { state with syscalls := state.syscalls.set index slot }.writeSyscalls records
        | none => state
    | none =>
        if state.syscalls.length = syscallSlots then
          if call.finished then
            state.writeSyscalls (exportNetworkSyscall salt state call 0 false)
          else { state with lostEvents := state.lostEvents + 1 }
        else
          let (slot, records) := handleSlot salt state call ⟨call, 0, 0, false⟩
          { state with syscalls := state.syscalls ++ [slot] }.writeSyscalls records

/-- The body of the loop of `perfetto_export_close` over `pending_syscalls`. -/
def closeSlot (salt : UInt64) (endTs : UInt64) (state : State) (slot : SyscallSlot) :
    List NetworkSyscall :=
  if slot.active then
    exportNetworkSyscall salt state { slot.event with ts := endTs } slot.flowId true
  else []

end Anettrace.Export
