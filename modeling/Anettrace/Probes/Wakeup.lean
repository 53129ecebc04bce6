import Anettrace.Probes.Kernel

/-!
# Wakeups

The scheduler probes of `src/progs/network_wakeup.h`. A record for each thread collects one chain of
waking, wakeup and switching in, and a system call reports the chain its thread is running on.
-/

namespace Anettrace.Probes

open Library

/-- `network_wakeup_state_t`. -/
structure NetworkWakeupState where
  taskStartTime : UInt64
  tgid : UInt32
  wakingTs : UInt64
  wakeupTs : UInt64
  runStartTs : UInt64
  wakerStartTime : UInt64
  wakerTid : UInt32
  wakerTgid : UInt32
  wakingCpu : UInt32
  runCpu : UInt32
  wakingPreemptCount : UInt32
  wakingContext : UInt8
  wakerTask : List UInt8
  deriving DecidableEq, Repr, Inhabited

def NetworkWakeupState.fresh (birth : UInt64) (tgid : UInt32) : NetworkWakeupState :=
  ⟨birth, tgid, 0, 0, 0, 0, 0, 0, 0, 0, 0, 0, []⟩

def networkWakeupClear (state : NetworkWakeupState) : NetworkWakeupState :=
  .fresh state.taskStartTime state.tgid

/-- `m_network_wakeups`, by thread id. -/
abbrev NetworkWakeups : Type :=
  Keyed UInt32 NetworkWakeupState

/-- What `network_wakeup_context` reads: the version of the kernel, the preemption count where the
architecture has one that can be read, and the count of disabled softirqs where the task has that
field. -/
structure PreemptView where
  version : Nat
  count : Option UInt32
  softirqDisableCnt : Option (Option UInt32)
  deriving DecidableEq, Repr, Inhabited

def networkWakeupContext (kernel : PreemptView) : UInt8 × UInt32 :=
  if 7 <<< 16 ≤ kernel.version then (0, 0)
  else
    match kernel.count, kernel.softirqDisableCnt with
    | none, _ | _, some none => (0, 0)
    | some count, softirq =>
        let softirqCount := (softirq.bind id).getD count
        -- unfamiliar high bits are rejected before the disabled softirqs are read
        if count &&& 0x7f000000 ≠ 0 then (0, 0)
        else if count &&& 0x00f00000 ≠ 0 then (4, count)
        else if count &&& 0x000f0000 ≠ 0 then (2, count)
        else if softirqCount &&& 0x00000100 ≠ 0 then (3, count)
        else (1, count)

/-- What a probe finds around it: the clock, the processor, the task it interrupts, the preemption
count, and whether an update of the map would succeed. -/
structure SchedNow where
  ts : UInt64
  cpu : UInt32
  current : Task
  kernel : PreemptView
  stored : Bool
  deriving DecidableEq, Repr, Inhabited

/-- The branch of `network_wakeup_current` that stores a fresh record. -/
def networkWakeupBegin (now : SchedNow) (states : NetworkWakeups) :
    NetworkWakeups × Option NetworkWakeupState :=
  let fresh := NetworkWakeupState.fresh now.current.startTime now.current.tgid
  if now.stored then (states.put now.current.tid fresh, some fresh) else (states, none)

/-- `network_wakeup_current`: the record of the current task, begun afresh where it is of another
task. -/
def networkWakeupCurrent (args : BpfArgs) (now : SchedNow) (states : NetworkWakeups) :
    NetworkWakeups × Option NetworkWakeupState :=
  let task := now.current
  if !perfettoCurrentMatches args task.tid task.uid then (states, none)
  else if task.tid = 0 ∨ task.startTime = 0 then (states, none)
  else
    match states task.tid with
    | none => networkWakeupBegin now states
    | some state =>
        if state.taskStartTime ≠ task.startTime ∨ state.tgid ≠ task.tgid then
          networkWakeupBegin now states
        else (states, some state)

/-- The waker `network_sched_waking` notes: the interrupted task, in the context of a task. -/
def NetworkWakeupState.wokenBy (state : NetworkWakeupState) (now : SchedNow) :
    NetworkWakeupState :=
  let (context, count) := networkWakeupContext now.kernel
  let state := { state with wakingContext := context, wakingPreemptCount := count }
  if context ≠ 1 then state
  else if now.current.tid ≠ 0 ∧ now.current.startTime ≠ 0 then
    { state with
      wakerTid := now.current.tid
      wakerTgid := now.current.tgid
      wakerStartTime := now.current.startTime
      wakerTask := now.current.comm }
  else { state with wakingContext := 0, wakingPreemptCount := 0 }

/-- `BpfArgs` under which the scheduler is watched. -/
def BpfArgs.watchesWakeups (args : BpfArgs) : Bool :=
  args.ready && args.perfetto && args.wakeupChain

def networkSchedWaking (args : BpfArgs) (now : SchedNow) (target : UInt32)
    (states : NetworkWakeups) : NetworkWakeups :=
  if !args.watchesWakeups then states
  else
    match states target with
    | none => states
    | some state =>
        states.put target
          ({ networkWakeupClear state with wakingTs := now.ts, wakingCpu := now.cpu }.wokenBy now)

def networkSchedWakeup (args : BpfArgs) (now : SchedNow) (target : UInt32)
    (states : NetworkWakeups) : NetworkWakeups :=
  if !args.watchesWakeups then states
  else
    match states target with
    | none => states
    | some state =>
        if state.wakingTs ≠ 0 ∧ state.runStartTs = 0 then
          states.put target { state with wakeupTs := now.ts }
        else states

/-- The first half of `network_sched_switch`: the task that is switched out loses its chain. -/
def networkWakeupLeave (args : BpfArgs) (now : SchedNow) (states : NetworkWakeups) :
    NetworkWakeups :=
  match networkWakeupCurrent args now states with
  | (states, none) => states
  | (states, some state) => states.put now.current.tid (networkWakeupClear state)

def networkSchedSwitch (args : BpfArgs) (now : SchedNow) (prev next : UInt32)
    (states : NetworkWakeups) : NetworkWakeups :=
  if !args.watchesWakeups then states
  else
    let states := if prev = now.current.tid then networkWakeupLeave args now states else states
    match states next with
    | none => states
    | some state => states.put next { state with runStartTs := now.ts, runCpu := now.cpu }

/-- `wakeup_status` of `network_syscall_event_t`. -/
inductive WakeupStatus where
  | disabled | unknown | observed | runWithoutWake
  deriving DecidableEq, Repr, Inhabited

/-- The part of `network_syscall_event_t` that describes a wakeup. -/
structure SyscallWakeup where
  status : WakeupStatus
  wakingTs : UInt64
  wakeupTs : UInt64
  runStartTs : UInt64
  wakerStartTime : UInt64
  wakerTid : UInt32
  wakerTgid : UInt32
  wakingCpu : UInt32
  runCpu : UInt32
  wakingPreemptCount : UInt32
  wakingContext : UInt8
  wakerTask : List UInt8
  deriving DecidableEq, Repr, Inhabited

/-- The part as `memset` leaves it, with a status. -/
def SyscallWakeup.blank (status : WakeupStatus) : SyscallWakeup :=
  ⟨status, 0, 0, 0, 0, 0, 0, 0, 0, 0, 0, []⟩

def networkWakeupSnapshot (args : BpfArgs) (now : SchedNow) (startTs : UInt64)
    (states : NetworkWakeups) : NetworkWakeups × SyscallWakeup :=
  if !args.watchesWakeups then (states, .blank .disabled)
  else
    match networkWakeupCurrent args now states with
    | (states, none) => (states, .blank .unknown)
    | (states, some state) =>
        if state.runStartTs = 0 ∨ startTs < state.runStartTs then (states, .blank .unknown)
        else
          let ran := { SyscallWakeup.blank .runWithoutWake with
            runStartTs := state.runStartTs, runCpu := state.runCpu }
          if state.wakingTs = 0 ∨ state.wakeupTs < state.wakingTs ∨
              state.runStartTs < state.wakeupTs then (states, ran)
          else
            (states,
              { ran with
                status := .observed
                wakingTs := state.wakingTs
                wakeupTs := state.wakeupTs
                wakerStartTime := state.wakerStartTime
                wakerTid := state.wakerTid
                wakerTgid := state.wakerTgid
                wakingCpu := state.wakingCpu
                wakingContext := state.wakingContext
                wakingPreemptCount := state.wakingPreemptCount
                wakerTask := state.wakerTask })

/-- The wakeup `network_sys_enter` reports for a network call, whose record starts at the time the
snapshot is taken. -/
def networkSysEnter (args : BpfArgs) (now : SchedNow) (states : NetworkWakeups) :
    NetworkWakeups × Option SyscallWakeup :=
  if !args.ready || !args.perfetto ||
      !perfettoCurrentMatches args now.current.tid now.current.uid then (states, none)
  else
    let (states, wakeup) := networkWakeupSnapshot args now now.ts states
    (states, some wakeup)

end Anettrace.Probes
