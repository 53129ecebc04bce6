import Anettrace.Export.State
import Anettrace.Probes.Kernel

/-!
# The system calls of the network

What `network_sys_enter` of `src/progs/core.c` makes of the registers of a system call: the ABI of
the task, which network call the number stands for there, and the record of the call.
-/

namespace Anettrace.Probes

open Export

/-- The architectures that `core.c` tells apart. -/
inductive Arch where
  | arm64 | x86 | other
  deriving DecidableEq, Repr, Inhabited

/-- The options that the probes on calls read beside those in `BpfArgs`. -/
structure CallArgs extends BpfArgs where
  arch : Arch
  networkSyscallNr : SyscallKind → UInt32
  compatNetworkSyscallNr : SyscallKind → UInt32
  networkSocketFilter : Bool
  /-- The programs are `fentry` and `fexit` ones, not kprobes. -/
  tracing : Bool

def networkTaskAbi (arch : Arch) (nr : Int64) (flags : UInt64) : UInt8 :=
  match arch with
  | .arm64 => if flags &&& 0x400000 ≠ 0 then 1 else 0
  | .x86 =>
      if nr.toUInt64 &&& 0x40000000 ≠ 0 then 2
      else if flags &&& 0x20000000 ≠ 0 then 1
      else 0
  | .other => 0

def networkCalls : List SyscallKind :=
  [.sendto, .recvfrom, .sendmsg, .recvmsg, .sendmmsg, .recvmmsg, .read, .write, .readv, .writev,
    .send, .recv]

/-- The numbers of the x32 ABI in `network_call_kind`, without their common bit. -/
def x32CallKind (nr : UInt64) : Option SyscallKind :=
  if nr = 0 then some .read
  else if nr = 1 then some .write
  else if nr = 44 then some .sendto
  else if nr = 515 then some .readv
  else if nr = 516 then some .writev
  else if nr = 517 then some .recvfrom
  else if nr = 518 then some .sendmsg
  else if nr = 519 then some .recvmsg
  else if nr = 537 then some .recvmmsg
  else if nr = 538 then some .sendmmsg
  else none

def networkCallKind (args : CallArgs) (nr : Int64) (abi : UInt8) : Option SyscallKind :=
  if args.arch = .x86 ∧ abi = 2 then x32CallKind (nr.toUInt64 &&& ~~~0x40000000)
  else if abi = 1 ∧ nr = 417 then some .recvmmsg
  else
    networkCalls.find? fun kind =>
      0 ≤ nr && nr.toUInt64.toUInt32 =
        if abi = 1 then args.compatNetworkSyscallNr kind else args.networkSyscallNr kind

def socketcallKind (call : UInt64) : Option SyscallKind :=
  if call = 9 then some .send
  else if call = 10 then some .recv
  else if call = 11 then some .sendto
  else if call = 12 then some .recvfrom
  else if call = 16 then some .sendmsg
  else if call = 17 then some .recvmsg
  else if call = 19 then some .recvmmsg
  else if call = 20 then some .sendmmsg
  else none

/-- What `network_sys_enter` finds: the clock, the task, the call with its arguments, the first and
the third word of the array that `socketcall` takes and the fourth, where they can be read, the
wakeup that `network_wakeup_snapshot` reports, the scratch buffer, and whether the record can be
stored. -/
structure SyscallEntry where
  ts : UInt64
  current : Task
  nr : Int64
  flags : UInt64
  arg0 : UInt64
  arg2 : UInt64
  arg3 : UInt64
  callArgs : Option (UInt32 × UInt32)
  callArg3 : Option UInt32
  wakeup : Wakeup
  scratch : Bool
  stored : Bool

def SyscallEntry.abi (args : CallArgs) (entry : SyscallEntry) : UInt8 :=
  networkTaskAbi args.arch entry.nr entry.flags

/-- A network call and the arguments that its record shows. -/
structure NetworkCall where
  kind : SyscallKind
  fd : UInt64
  arg2 : UInt64
  arg3 : UInt64
  deriving DecidableEq, Repr, Inhabited

/-- The call is one on a message header. -/
def SyscallKind.oneMessage (kind : SyscallKind) : Bool :=
  kind = .sendmsg || kind = .recvmsg

/-- The call is one on a batch of messages. -/
def SyscallKind.batch (kind : SyscallKind) : Bool :=
  kind = .sendmmsg || kind = .recvmmsg

/-- The call that a `socketcall` stands for, with the arguments from the array. -/
def SyscallEntry.socketcall (entry : SyscallEntry) : Option NetworkCall := do
  let kind ← socketcallKind entry.arg0
  let (fd, arg2) ← entry.callArgs
  let arg3 ←
    -- `sendmsg` and `recvmsg` have three arguments
    if SyscallKind.oneMessage kind then some 0
    else entry.callArg3
  some ⟨kind, fd.toUInt64, arg2.toUInt64, arg3.toUInt64⟩

def SyscallEntry.networkCall (args : CallArgs) (entry : SyscallEntry) : Option NetworkCall :=
  if args.arch = .x86 ∧ entry.abi args = 1 ∧ entry.nr = 102 then entry.socketcall
  else
    (networkCallKind args entry.nr (entry.abi args)).map fun kind =>
      ⟨kind, entry.arg0, entry.arg2, entry.arg3⟩

/-- What `m_network_syscalls` keeps of a call: the record for user space, and the number that its
end has to match. -/
structure SyscallRecord extends SyscallEvent where
  syscallNr : UInt32
  deriving DecidableEq, Repr, Inhabited

def SyscallEntry.record (args : CallArgs) (entry : SyscallEntry) (call : NetworkCall) :
    SyscallRecord :=
  let kind := call.kind
  let sized := !SyscallKind.batch kind && !SyscallKind.oneMessage kind && kind ≠
    .readv && kind ≠ .writev
  { kind := kind
    syscallNr := entry.nr.toUInt64.toUInt32
    startTs := entry.ts
    ts := entry.ts
    socketKey := 0
    socketGeneration := 0
    requestedBytes :=
      if !sized then 0
      else if entry.abi args = 1 then call.arg2.toUInt32.toUInt64
      else call.arg2
    result := 0
    tid := entry.current.tid
    tgid := entry.current.tgid
    uid := entry.current.uid
    fd := call.fd.toUInt32.toInt32
    flags :=
      if SyscallKind.batch kind then call.arg3.toUInt32
      else if SyscallKind.oneMessage kind then call.arg2.toUInt32
      else if sized && kind ≠ .read && kind ≠ .write then call.arg3.toUInt32
      else 0
    finished := false
    requestedValid := sized
    -- ordinary file I/O must never appear as network I/O
    requireSocket := args.networkSocketFilter || kind = .read || kind = .write || kind = .readv ||
      kind = .writev
    abi := entry.abi args
    requestedMessages := if SyscallKind.batch kind then call.arg2.toUInt32 else 0
    wakeup := entry.wakeup }

/-- What `network_sys_exit` finds. -/
structure SyscallExit where
  ts : UInt64
  current : Task
  nr : Int64
  ret : Int64

/-- The record of a call that ends, in `network_sys_exit`. -/
def SyscallRecord.finish (record : SyscallRecord) (exit : SyscallExit) : SyscallRecord :=
  { record with
    ts := exit.ts
    result := if record.abi ≠ 0 then exit.ret.toInt32.toInt64 else exit.ret
    finished := true }

end Anettrace.Probes
