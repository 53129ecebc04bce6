import Anettrace.Export.CallTracks
import Anettrace.Probes.CallContexts

/-!
# The records of system calls

The probes on the beginning and the end of system calls send the records of a thread in order: the
ENTER record of a call, its END record, and then those of later calls. An END record is of the call
whose end sent it, with the result of that end.
-/

namespace Anettrace.Probes

open Library Export

theorem Task.pidTgid_toNat (task : Task) :
    task.pidTgid.toNat = task.tgid.toNat * 2 ^ 32 + task.tid.toNat := by
  have htgid := task.tgid.toNat_lt
  have htid := task.tid.toNat_lt
  unfold Task.pidTgid
  rw [UInt64.toNat_or, UInt64.toNat_shiftLeft]
  have hshift : task.tgid.toUInt64.toNat <<< (UInt64.toNat 32 % 64) % 2 ^ 64 =
      task.tgid.toNat <<< 32 := by
    rw [UInt32.toNat_toUInt64]
    change task.tgid.toNat <<< 32 % 2 ^ 64 = _
    rw [Nat.shiftLeft_eq]
    omega
  rw [hshift, UInt32.toNat_toUInt64, ← Nat.shiftLeft_add_eq_or_of_lt (by omega), Nat.shiftLeft_eq]

/-- A thread has one key in the maps. -/
theorem Task.pidTgid_inj {first second : Task} :
    first.pidTgid = second.pidTgid ↔ first.tgid = second.tgid ∧ first.tid = second.tid := by
  constructor
  · intro h
    have hnat := congrArg UInt64.toNat h
    rw [Task.pidTgid_toNat, Task.pidTgid_toNat] at hnat
    have hfirst := first.tid.toNat_lt
    have hsecond := second.tid.toNat_lt
    exact ⟨UInt32.toNat_inj.mp (by omega), UInt32.toNat_inj.mp (by omega)⟩
  · rintro ⟨htgid, htid⟩
    unfold Task.pidTgid
    rw [htgid, htid]

/-- `tgid` and `tid` of a task. -/
def Task.thread (task : Task) : UInt32 × UInt32 :=
  (task.tgid, task.tid)

theorem Task.thread_eq_iff {first second : Task} :
    first.thread = second.thread ↔ first.pidTgid = second.pidTgid := by
  rw [Task.pidTgid_inj]
  exact Prod.mk.injEq ..▸ Iff.rfl

/-! ## What the probes send -/

/-- The records of system calls that a step sends. -/
def CallStep.sent (args : CallArgs) (maps : CallMaps) : CallStep → List SyscallEvent
  | .sysEnter entry => (maps.networkSysEnter args entry).2
  | .sysExit exit => (maps.networkSysExit args exit).2
  | _ => []

/-- The records of system calls that a run sends. -/
def sentCalls (args : CallArgs) (steps : List CallStep) : List SyscallEvent :=
  Run.observations (CallStep.apply args) (CallStep.sent args) .init steps

/-- A record of a thread is of an earlier call than another one, or the other one ends its call. -/
def Precedes (first second : SyscallEvent) : Prop :=
  first.startTs < second.startTs ∨
    first.startTs = second.startTs ∧ first.finished = false ∧ second.finished = true

/-- The records of each thread are in order. -/
def CallsInOrder (calls : List SyscallEvent) : Prop :=
  calls.Pairwise fun first second => first.thread = second.thread → Precedes first second

/-- The clock advances from one system call of a thread to its next. -/
def EntriesAdvance (steps : List CallStep) : Prop :=
  steps.Pairwise fun first second => ∀ entry later, first = .sysEnter entry →
    second = .sysEnter later → entry.current.pidTgid = later.current.pidTgid → entry.ts < later.ts

/-- A record is of the system call that a thread began in a run and has not ended. -/
def Began (args : CallArgs) (steps : List CallStep) (task : UInt64) (record : SyscallRecord) :
    Prop :=
  ∃ before entry since call, steps = before ++ .sysEnter entry :: since ∧
    entry.current.pidTgid = task ∧ (∀ step ∈ since, step.bounds args task = false) ∧
    CallMaps.Bound (entry.record args call) record

/-- A record ends a system call of a run: no other one of its thread began or ended between the
beginning and the end it is of, and the result is that of the end. -/
def Ended (args : CallArgs) (steps : List CallStep) (ending : SyscallEvent) : Prop :=
  ∃ before entry since exit later record call,
    steps = before ++ .sysEnter entry :: since ++ .sysExit exit :: later ∧
    entry.current.pidTgid = exit.current.pidTgid ∧
    (∀ step ∈ since, step.bounds args entry.current.pidTgid = false) ∧
    CallMaps.Bound (entry.record args call) record ∧
    record.syscallNr.toUInt64 = exit.nr.toUInt64 ∧ ending = (record.finish exit).toSyscallEvent

theorem Began.concat {args : CallArgs} {steps : List CallStep} {step : CallStep} {task : UInt64}
    {old new : SyscallRecord} (h : Began args steps task old) (hbound : CallMaps.Bound old new)
    (hquiet : step.bounds args task = false) : Began args (steps ++ [step]) task new := by
  obtain ⟨before, entry, since, call, rfl, htask, hsince, hrecord⟩ := h
  refine ⟨before, entry, since ++ [step], call, by simp, htask, fun other hother => ?_,
    hrecord.trans hbound⟩
  obtain hother | hother := List.mem_append.mp hother
  · exact hsince other hother
  · exact List.mem_singleton.mp hother ▸ hquiet

theorem Ended.concat {args : CallArgs} {steps : List CallStep} {ending : SyscallEvent}
    (h : Ended args steps ending) (step : CallStep) : Ended args (steps ++ [step]) ending := by
  obtain ⟨before, entry, since, exit, later, record, call, rfl, h⟩ := h
  exact ⟨before, entry, since, exit, later ++ [step], record, call, by simp, h⟩

/-! ## The invariant -/

/-- The records that a run sent, and those that the maps track. -/
structure CallLedger (args : CallArgs) (steps : List CallStep) (sent : List SyscallEvent)
    (maps : CallMaps) : Prop where
  order : CallsInOrder sent
  /-- A record that was sent is of a call that a step began. -/
  timed : ∀ call ∈ sent, ∃ entry, CallStep.sysEnter entry ∈ steps ∧
    entry.current.thread = call.thread ∧ entry.ts = call.startTs
  ended : ∀ call ∈ sent, call.finished = true → Ended args steps call
  /-- A call that is tracked is in progress. -/
  tracked : ∀ task record, maps.syscalls task = some record → Began args steps task record
  /-- No record of its thread comes after that of a call that is tracked. -/
  latest : ∀ task record, maps.syscalls task = some record → ∀ call ∈ sent,
    call.thread = record.thread →
      call.startTs < record.startTs ∨ call.startTs = record.startTs ∧ call.finished = false

theorem Began.thread {args : CallArgs} {steps : List CallStep} {task : UInt64}
    {record : SyscallRecord} (h : Began args steps task record) :
    ∃ entry, CallStep.sysEnter entry ∈ steps ∧ entry.current.pidTgid = task ∧
      record.thread = entry.current.thread ∧ record.startTs = entry.ts := by
  obtain ⟨before, entry, since, call, rfl, htask, -, hbound⟩ := h
  refine ⟨entry, by simp, htask, ?_, hbound.startTs⟩
  rw [hbound]
  rfl

theorem CallLedger.init (args : CallArgs) : CallLedger args [] [] .init where
  order := List.Pairwise.nil
  timed := fun _ h => by cases h
  ended := fun _ h => by cases h
  tracked := fun _ _ h => by cases h
  latest := fun _ _ h => by cases h

section Ledger

variable {args : CallArgs} {steps : List CallStep} {sent : List SyscallEvent}
  {maps after : CallMaps}

/-- A step that sends nothing, and tracks no other calls than before. -/
theorem CallLedger.quiet {step : CallStep} (h : CallLedger args steps sent maps)
    (hcalls : ∀ task record, after.syscalls task = some record →
      step.bounds args task = false ∧ ∃ old, maps.syscalls task = some old ∧
        CallMaps.Bound old record) :
    CallLedger args (steps ++ [step]) sent after where
  order := h.order
  timed := by
    intro call hcall
    obtain ⟨entry, hentry, hthread, hstart⟩ := h.timed call hcall
    exact ⟨entry, List.mem_append_left _ hentry, hthread, hstart⟩
  ended := fun call hcall hfinished => (h.ended call hcall hfinished).concat step
  tracked := by
    intro task record hrecord
    obtain ⟨hquiet, old, hold, hbound⟩ := hcalls task record hrecord
    exact (h.tracked task old hold).concat hbound hquiet
  latest := by
    intro task record hrecord call hcall hthread
    obtain ⟨-, old, hold, hbound⟩ := hcalls task record hrecord
    rw [hbound.startTs]
    refine h.latest task old hold call hcall (hthread.trans ?_)
    rw [hbound]
    rfl

theorem CallLedger.enter (h : CallLedger args steps sent maps) {entry : SyscallEntry}
    {call : NetworkCall} (hlater : ∀ earlier, CallStep.sysEnter earlier ∈ steps →
      earlier.current.pidTgid = entry.current.pidTgid → earlier.ts < entry.ts)
    (hcalls : after.syscalls = maps.syscalls.put entry.current.pidTgid (entry.record args call)) :
    CallLedger args (steps ++ [.sysEnter entry])
      (sent ++ [(entry.record args call).toSyscallEvent]) after where
  order := by
    refine List.pairwise_append.mpr ⟨h.order, List.pairwise_singleton .., ?_⟩
    intro first hfirst second hsecond hthread
    obtain rfl := List.mem_singleton.mp hsecond
    obtain ⟨earlier, hmem, hof, hstart⟩ := h.timed first hfirst
    refine .inl ?_
    rw [← hstart]
    exact hlater earlier hmem (Task.thread_eq_iff.mp (hof.trans hthread))
  timed := by
    intro other hother
    obtain hother | hother := List.mem_append.mp hother
    · obtain ⟨earlier, hmem, hthread, hstart⟩ := h.timed other hother
      exact ⟨earlier, List.mem_append_left _ hmem, hthread, hstart⟩
    · obtain rfl := List.mem_singleton.mp hother
      exact ⟨entry, by simp, rfl, rfl⟩
  ended := by
    intro other hother hfinished
    obtain hother | hother := List.mem_append.mp hother
    · exact (h.ended other hother hfinished).concat _
    · obtain rfl := List.mem_singleton.mp hother
      cases hfinished
  tracked := by
    rw [hcalls]
    refine fun task record hrecord => ?_
    obtain ⟨rfl, rfl⟩ | ⟨hother, hold⟩ := Keyed.put_cases hrecord
    · refine ⟨steps, entry, [], call, rfl, rfl, ?_, CallMaps.Bound.refl _⟩
      intro step hstep
      cases hstep
    · refine (h.tracked task record hold).concat (.refl record) ?_
      simp [CallStep.bounds, Ne.symm hother]
  latest := by
    rw [hcalls]
    intro task record hrecord other hmem hthread
    obtain ⟨rfl, rfl⟩ | ⟨hother, hold⟩ := Keyed.put_cases hrecord
    · obtain hmem | hmem := List.mem_append.mp hmem
      · obtain ⟨earlier, hearlier, hof, hstart⟩ := h.timed other hmem
        refine .inl ?_
        rw [← hstart]
        exact hlater earlier hearlier (Task.thread_eq_iff.mp (hof.trans hthread))
      · obtain rfl := List.mem_singleton.mp hmem
        exact .inr ⟨rfl, rfl⟩
    · obtain hmem | hmem := List.mem_append.mp hmem
      · exact h.latest task record hold other hmem hthread
      · -- the record of another thread
        obtain rfl := List.mem_singleton.mp hmem
        obtain ⟨earlier, -, htask, hof, -⟩ := (h.tracked task record hold).thread
        exact absurd ((Task.thread_eq_iff.mp (hthread.trans hof)).trans htask).symm hother

/-- The END record of the call that is tracked. -/
theorem CallLedger.exit (h : CallLedger args steps sent maps) {exit : SyscallExit}
    {record : SyscallRecord} (hrecord : maps.syscalls exit.current.pidTgid = some record)
    (hnr : record.syscallNr.toUInt64 = exit.nr.toUInt64)
    (hcalls : after.syscalls = maps.syscalls.remove exit.current.pidTgid) :
    CallLedger args (steps ++ [.sysExit exit])
      (sent ++ [(record.finish exit).toSyscallEvent]) after where
  order := by
    refine List.pairwise_append.mpr ⟨h.order, List.pairwise_singleton .., ?_⟩
    intro first hfirst second hsecond hthread
    obtain rfl := List.mem_singleton.mp hsecond
    obtain hless | ⟨hsame, hopen⟩ := h.latest _ record hrecord first hfirst hthread
    · exact .inl hless
    · exact .inr ⟨hsame, hopen, rfl⟩
  timed := by
    intro other hother
    obtain hother | hother := List.mem_append.mp hother
    · obtain ⟨entry, hentry, hthread, hstart⟩ := h.timed other hother
      exact ⟨entry, List.mem_append_left _ hentry, hthread, hstart⟩
    · obtain rfl := List.mem_singleton.mp hother
      obtain ⟨entry, hentry, -, hthread, hstart⟩ := (h.tracked _ record hrecord).thread
      exact ⟨entry, List.mem_append_left _ hentry, hthread.symm, hstart.symm⟩
  ended := by
    intro other hother hfinished
    obtain hother | hother := List.mem_append.mp hother
    · exact (h.ended other hother hfinished).concat _
    · obtain rfl := List.mem_singleton.mp hother
      obtain ⟨before, entry, since, call, rfl, htask, hsince, hbound⟩ := h.tracked _ record hrecord
      refine ⟨before, entry, since, exit, [], record, call, rfl, htask, ?_, hbound, hnr, rfl⟩
      rw [htask]
      exact hsince
  tracked := by
    rw [hcalls]
    intro task other hother
    obtain ⟨htask, hold⟩ := Keyed.remove_cases hother
    refine (h.tracked task other hold).concat (.refl other) ?_
    simp [CallStep.bounds, Ne.symm htask]
  latest := by
    rw [hcalls]
    intro task other hother call hcall hthread
    obtain ⟨htask, hold⟩ := Keyed.remove_cases hother
    obtain hcall | hcall := List.mem_append.mp hcall
    · exact h.latest task other hold call hcall hthread
    · obtain rfl := List.mem_singleton.mp hcall
      obtain ⟨entry, -, hentry, hof, -⟩ := (h.tracked task other hold).thread
      obtain ⟨ending, -, hending, hfrom, -⟩ := (h.tracked _ record hrecord).thread
      have hsame := Task.thread_eq_iff.mp (hfrom.symm.trans (hthread.trans hof))
      exact absurd (hentry.symm.trans (hsame.symm.trans hending)) htask

theorem CallLedger.step (h : CallLedger args steps sent maps) (step : CallStep)
    (hlater : ∀ entry, step = .sysEnter entry → ∀ earlier, CallStep.sysEnter earlier ∈ steps →
      earlier.current.pidTgid = entry.current.pidTgid → earlier.ts < entry.ts) :
    CallLedger args (steps ++ [step]) (sent ++ step.sent args maps) (step.apply args maps) := by
  have hsame {after : CallMaps} {step : CallStep} (hcalls : after.syscalls = maps.syscalls)
      (hquiet : ∀ task, step.bounds args task = false) :
      CallLedger args (steps ++ [step]) (sent ++ []) after := by
    rw [List.append_nil]
    exact h.quiet fun task record hrecord => ⟨hquiet task, record, hcalls ▸ hrecord, .refl record⟩
  -- a boundary of the task's system calls after which no call of it is tracked
  have hremoved {after : CallMaps} {step : CallStep} {current : Task}
      (hcalls : after.syscalls = maps.syscalls.remove current.pidTgid)
      (hquiet : ∀ task, task ≠ current.pidTgid → step.bounds args task = false) :
      CallLedger args (steps ++ [step]) (sent ++ []) after := by
    rw [List.append_nil]
    refine h.quiet fun task record hrecord => ?_
    rw [hcalls] at hrecord
    obtain ⟨hother, hold⟩ := Keyed.remove_cases hrecord
    exact ⟨hquiet task hother, record, hold, .refl record⟩
  cases step with
  | function probe =>
      change CallLedger args _ (sent ++ []) (maps.functionProbe args probe).1
      rw [List.append_nil]
      refine h.quiet fun task record hrecord => ⟨rfl, ?_⟩
      have hbound := maps.functionProbe_bound args probe task
      rw [hrecord] at hbound
      cases hold : maps.syscalls task with
      | none => rw [hold] at hbound; cases hbound
      | some old =>
          rw [hold] at hbound
          cases hbound with
          | some hbound => exact ⟨old, rfl, hbound⟩
  | returned current func ret =>
      obtain ⟨io, returns, hexit⟩ := maps.handleExit_eq args current func ret
      have hcalls := congrArg CallMaps.syscalls hexit
      exact hsame hcalls fun _ => rfl
  | sysEnter entry =>
      change CallLedger args _ (sent ++ (maps.networkSysEnter args entry).2)
        (maps.networkSysEnter args entry).1
      cases hwatched : CallMaps.watches args entry.current with
      | false =>
          rw [maps.networkSysEnter_unwatched hwatched]
          exact hsame rfl fun task => by simp [CallStep.bounds, hwatched]
      | true =>
          obtain ⟨-, ⟨hcalls, hsent⟩ | ⟨call, hcalls, hsent⟩⟩ :=
            maps.networkSysEnter_cases args entry hwatched
          · rw [hsent]
            exact hremoved hcalls fun task htask => by simp [CallStep.bounds, Ne.symm htask]
          · rw [hsent]
            exact h.enter (hlater entry rfl) hcalls
  | sysExit exit =>
      change CallLedger args _ (sent ++ (maps.networkSysExit args exit).2)
        (maps.networkSysExit args exit).1
      cases hwatched : args.ready && args.perfetto with
      | false =>
          rw [maps.networkSysExit_unwatched hwatched]
          exact hsame rfl fun task => by simp [CallStep.bounds, hwatched]
      | true =>
          obtain ⟨-, hcalls, hsent⟩ := maps.networkSysExit_eq args exit hwatched
          have hquiet (task : UInt64) (htask : task ≠ exit.current.pidTgid) :
              (CallStep.sysExit exit).bounds args task = false := by
            simp [CallStep.bounds, Ne.symm htask]
          have hnone := hremoved hcalls hquiet
          rw [hsent]
          unfold CallMaps.endOf
          split
          case h_1 => exact hnone
          case h_2 record hrecord =>
            split
            case isTrue hnr => exact h.exit hrecord hnr hcalls
            case isFalse => exact hnone
  | evictSyscall task =>
      change CallLedger args _ (sent ++ []) _
      rw [List.append_nil]
      exact h.quiet fun other record hrecord =>
        ⟨rfl, record, (Keyed.remove_cases hrecord).2, .refl record⟩
  | sockets | evictIo | evictPacket | evictReturn => exact hsame rfl fun _ => rfl

end Ledger

/-! ## Runs -/

/-- The records that a run sent, and those that are tracked after it. -/
theorem call_ledger (args : CallArgs) (steps : List CallStep) (hclock : EntriesAdvance steps) :
    CallLedger args steps (sentCalls args steps) (callMapsAfter args steps) := by
  induction steps using List.reverseRecOn with
  | nil => exact .init args
  | append_singleton history step ih =>
      obtain ⟨hhistory, -, hlast⟩ := List.pairwise_append.mp hclock
      have hstep := (ih hhistory).step step fun entry hentry earlier hmem hthread =>
        hlast _ hmem step (List.mem_singleton_self step) earlier entry rfl hentry hthread
      rw [callMapsAfter_concat]
      unfold sentCalls at hstep ⊢
      rw [Run.observations_concat]
      exact hstep

/-- The records of each thread are sent in order, a call at a time, and an END record is of the
system call whose end sent it: no other system call of its thread began or ended in between. -/
theorem sent_calls (args : CallArgs) (steps : List CallStep) (hclock : EntriesAdvance steps) :
    CallsInOrder (sentCalls args steps) ∧
      ∀ ending ∈ sentCalls args steps, ending.finished = true → Ended args steps ending :=
  have hledger := call_ledger args steps hclock
  ⟨hledger.order, hledger.ended⟩

/-- A `sendto` that returns, and one that is in progress. -/
def twoSends : List CallStep :=
  sendingSteps ++ [.sysExit ⟨20, sendingTask, 206, 20⟩,
    .sysEnter ⟨30, sendingTask, 206, 0, 3, 40, 0, none, none, default, true, true⟩]

theorem sent_calls_two :
    (sentCalls sendingArgs twoSends).map (fun call => (call.startTs, call.finished, call.result)) =
        [(10, false, 0), (10, true, 20), (30, false, 0)] ∧
      CallsInOrder (sentCalls sendingArgs twoSends) := by
  have hclock : EntriesAdvance twoSends := by
    simp [EntriesAdvance, twoSends, sendingSteps]
  exact ⟨by decide +kernel, (sent_calls sendingArgs twoSends hclock).1⟩

end Anettrace.Probes
