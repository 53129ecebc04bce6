import Anettrace.Library.Keyed

/-!
# The kernel as the probes see it

What the BPF programs of `src/progs` read beside their maps: the task they interrupt, the clock,
the processor, and the options user space stored in `bpf_args_t`. A map of the kernel is a partial
map; whether an update succeeds is up to the kernel, and so is the eviction of an entry.
-/

namespace Anettrace.Probes

/-- A task: `tid` is its thread id, which the kernel uses again after the task's death, and
`startTime` tells two tasks with one thread id apart. -/
structure Task where
  tid : UInt32
  tgid : UInt32
  uid : UInt32
  startTime : UInt64
  comm : List UInt8
  deriving DecidableEq, Repr, Inhabited

/-- `bpf_get_current_pid_tgid`. -/
def Task.pidTgid (task : Task) : UInt64 :=
  (task.tgid.toUInt64 <<< 32) ||| task.tid.toUInt64

/-- The options in `bpf_args_t` that the probes read. -/
structure BpfArgs where
  ready : Bool
  perfetto : Bool
  wakeupChain : Bool
  connectDiagnostics : Bool
  rxContext : Bool
  pid : UInt32
  uidEnabled : Bool
  uid : UInt32
  deriving DecidableEq, Repr, Inhabited

def BpfArgs.checkPid (args : BpfArgs) (tid : UInt32) : Bool :=
  args.pid ≠ 0 && args.pid ≠ tid

def perfettoCurrentMatches (args : BpfArgs) (tid uid : UInt32) : Bool :=
  !args.checkPid tid && (!args.uidEnabled || args.uid = uid)

end Anettrace.Probes
