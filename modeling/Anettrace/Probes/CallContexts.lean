import Anettrace.Probes.SubmissionLemmas

/-!
# Contexts of calls

A context in `m_perfetto_io` is of a call that its task has entered and not yet left, in the system
call the task is in: it was opened by a probe on a protocol function, no boundary of a system call
of the task came since, and every return since is of a call that was entered since. An event in
whose context a call is reported was therefore handled during that call, as long as no return is
missed, and in any case during its system call.
-/

namespace Anettrace.Probes

open Library

/-- The step begins or ends a system call of a task, as far as the probes look at it. -/
def CallStep.bounds (args : CallArgs) (task : UInt64) : CallStep → Bool
  | .sysEnter entry => CallMaps.watches args entry.current && entry.current.pidTgid = task
  | .sysExit exit => args.ready && args.perfetto && exit.current.pidTgid = task
  | _ => false

/-- A protocol function is entered, or returns. -/
inductive CallTurn where
  | entered | returned
  deriving DecidableEq, Repr

def CallStep.turns (args : CallArgs) (task : UInt64) (maps : CallMaps) : CallStep → List CallTurn
  | .function probe =>
      if !perfettoSocketIo probe.func || probe.current.pidTgid ≠ task ||
          CallMaps.rejects args probe then []
      else
        match (maps.functionProbe args probe).2 with
        | none => if probe.isReturn then [.returned] else []
        | some _ =>
            if !probe.identified then [] else if probe.isReturn then [.returned] else [.entered]
  | .returned current func ret =>
      if perfettoSocketIo func && current.pidTgid = task && args.perfetto &&
          (maps.handleExit args current func ret).2 then [.returned]
      else []
  | _ => []

def turnsFrom (args : CallArgs) (task : UInt64) (start : CallMaps) (steps : List CallStep) :
    List CallTurn :=
  Run.observations (CallStep.apply args) (CallStep.turns args task) start steps

/-- A call that was in progress before these turns is in progress after them. -/
def Unreturned (turns : List CallTurn) : Prop :=
  ∀ first later, turns = first ++ later → first.count .returned ≤ first.count .entered

theorem Unreturned.nil : Unreturned [] := by
  intro first later h
  rw [(List.append_eq_nil_iff.mp h.symm).1]
  exact Nat.le_refl _

theorem Unreturned.concat {turns : List CallTurn} {turn : CallTurn} (h : Unreturned turns)
    (hcount : (turns ++ [turn]).count .returned ≤ (turns ++ [turn]).count .entered) :
    Unreturned (turns ++ [turn]) := by
  intro first later heq
  obtain rfl | ⟨init, last, rfl⟩ := List.eq_nil_or_concat later
  · rw [List.append_nil] at heq
    exact heq ▸ hcount
  · rw [List.concat_eq_append, ← List.append_assoc] at heq
    exact h first init (List.append_inj' heq rfl).1

/-! ## What a step does to the context of a task -/

/-- What a step does to the context of a task. -/
inductive ContextStep (args : CallArgs) (task : UInt64) (maps : CallMaps) (step : CallStep) :
    Prop where
  | lost (hio : (step.apply args maps).io task = none)
  | kept (hio : (step.apply args maps).io task = maps.io task)
      (hturns : step.turns args task maps = []) (hbounds : step.bounds args task = false)
  | opened (probe : CallProbe) (io : PerfettoIo) (hstep : step = .function probe)
      (hturns : step.turns args task maps = [.entered])
      (hio : (step.apply args maps).io task = some io)
      (hstart : io.startTs = probe.ts) (hsocket : io.socketKey = maps.eventSocket probe)
      (hfunc : io.func = probe.func) (htx : io.tx = probe.status.tx) (hdepth : io.depth = 1)
      (hcall : io.syscallStartTs = ((maps.syscalls task).map fun call => call.startTs).getD 0)
  | deepened (io : PerfettoIo) (hturns : step.turns args task maps = [.entered])
      (hbounds : step.bounds args task = false) (hio : maps.io task = some io)
      (hafter : (step.apply args maps).io task = some { io with depth := io.depth + 1 })
  | left (io : PerfettoIo) (hturns : step.turns args task maps = [.returned])
      (hbounds : step.bounds args task = false) (hio : maps.io task = some io)
      (hdeep : 1 < io.depth)
      (hafter : (step.apply args maps).io task = some { io with depth := io.depth - 1 })

section Step

variable {args : CallArgs} {task : UInt64} {maps : CallMaps} {step : CallStep}

/-- A return takes the context of its task one call up, or ends it. -/
theorem CallMaps.perfettoIoExit_cases (maps : CallMaps) (task : UInt64) {func : ProbeFunc}
    (hfunc : perfettoSocketIo func = true) :
    (maps.perfettoIoExit func task).io task = none ∨
      ∃ io, maps.io task = some io ∧ 1 < io.depth ∧
        (maps.perfettoIoExit func task).io task = some { io with depth := io.depth - 1 } := by
  unfold perfettoIoExit
  rw [hfunc]
  cases hio : maps.io task with
  | none => exact .inl hio
  | some io =>
      by_cases hdeep : 1 < io.depth
      · refine .inr ⟨io, rfl, hdeep, ?_⟩
        simp [hdeep]
      · refine .inl ?_
        simp [hdeep]

/-- No other task's context is touched. -/
theorem CallMaps.perfettoIoExit_other (func : ProbeFunc) {current : UInt64} (h : task ≠ current) :
    (maps.perfettoIoExit func current).io task = maps.io task := by
  unfold perfettoIoExit
  split
  case isTrue => rfl
  case isFalse =>
    cases maps.io current with
    | none => rfl
    | some io =>
        dsimp only
        split
        case isTrue => exact Keyed.put_other _ h _
        case isFalse => exact Keyed.remove_other _ h

theorem CallMaps.perfettoIoExit_plain {func : ProbeFunc} (hfunc : perfettoSocketIo func = false)
    (current : UInt64) : maps.perfettoIoExit func current = maps := by
  unfold perfettoIoExit
  rw [hfunc]
  rfl

/-- An entry opens a context, or goes deeper into the one there is. -/
theorem CallMaps.perfettoIoEnter_cases (maps : CallMaps) (sk : UInt64) (probe : CallProbe) :
    (∃ io, maps.io probe.current.pidTgid = some io ∧
      (maps.perfettoIoEnter sk probe).io =
        maps.io.put probe.current.pidTgid { io with depth := io.depth + 1 }) ∨
    ∃ io, (maps.perfettoIoEnter sk probe).io = maps.io.put probe.current.pidTgid io ∧
      io.startTs = probe.ts ∧ io.socketKey = sk ∧ io.func = probe.func ∧ io.tx = probe.status.tx ∧
      io.depth = 1 ∧ io.syscallStartTs =
        ((maps.syscalls probe.current.pidTgid).map fun call => call.startTs).getD 0 := by
  unfold perfettoIoEnter
  dsimp only
  cases maps.io probe.current.pidTgid with
  | none => exact .inr ⟨_, rfl, rfl, rfl, rfl, rfl, rfl, rfl⟩
  | some io =>
      dsimp only
      split
      case isTrue => exact .inl ⟨io, rfl, rfl⟩
      case isFalse => exact .inr ⟨_, rfl, rfl, rfl, rfl, rfl, rfl, rfl⟩

/-- What a return does to the contexts depends on these alone. -/
theorem CallMaps.perfettoIoExit_congr {other : CallMaps} (h : other.io = maps.io) (func : ProbeFunc)
    (current : UInt64) :
    (other.perfettoIoExit func current).io = (maps.perfettoIoExit func current).io := by
  unfold perfettoIoExit
  rw [h]
  split
  case isTrue => exact h
  case isFalse =>
    cases maps.io current with
    | none => exact h
    | some io =>
        dsimp only
        split
        case isTrue => rfl
        case isFalse => rfl

/-- What the probe on a function does to the contexts of calls. -/
inductive CallProbe.OnContexts (probe : CallProbe) (maps after : CallMaps) : Prop where
  | none (hio : after.io = maps.io) (hentry : probe.isReturn = false)
      (hturn : perfettoSocketIo probe.func = false)
  | left (hio : after.io = (maps.perfettoIoExit probe.func probe.current.pidTgid).io)
      (hreturn : probe.isReturn = true)
  | entered (before : CallMaps) (hbefore : before.io = maps.io)
      (hcalls : ∀ thread, (before.syscalls thread).map (fun call => call.startTs) =
        (maps.syscalls thread).map fun call => call.startTs)
      (hio : after.io = (before.perfettoIoEnter (maps.eventSocket probe) probe).io)
      (hentry : probe.isReturn = false) (hfunc : perfettoSocketIo probe.func = true)

theorem CallMaps.leaveCall_io (probe : CallProbe) {before : CallMaps} (h : maps.io = before.io) :
    (maps.leaveCall probe).io =
      if probe.isReturn then (before.perfettoIoExit probe.func probe.current.pidTgid).io
      else before.io := by
  unfold leaveCall
  split
  case isTrue => exact perfettoIoExit_congr h ..
  case isFalse => exact h

theorem CallMaps.handleEntryErr_io (probe : CallProbe) {before : CallMaps}
    (h : maps.io = before.io) :
    (maps.handleEntryErr probe).io =
      if probe.isReturn then (before.perfettoIoExit probe.func probe.current.pidTgid).io
      else before.io := by
  obtain ⟨packets, hretired⟩ := maps.retireFreed_eq probe
  unfold handleEntryErr
  rw [hretired]
  exact leaveCall_io probe h

section

variable (sk : UInt64) (owner : Option PerfettoOwner) (direction : PacketDirection)
  (probe : CallProbe)

theorem CallMaps.perfettoRecordIdentity_plain (h : probe.identified = false) :
    (maps.perfettoRecordIdentity sk owner direction probe).1.io = maps.io := by
  obtain ⟨packets, counter, hpacket⟩ := maps.packetIdentity_eq probe false
  unfold perfettoRecordIdentity
  simp only [h, Bool.not_false, if_true, hpacket]

theorem CallMaps.perfettoRecordIdentity_contexts {before : CallMaps}
    (hsk : sk = before.eventSocket probe) (hio : maps.io = before.io)
    (hcalls : ∀ thread, (maps.syscalls thread).map (fun call => call.startTs) =
    (before.syscalls thread).map fun call => call.startTs) (h : probe.identified = true) :
    probe.OnContexts before (maps.perfettoRecordIdentity sk owner direction probe).1 := by
  subst hsk
  have hidentified : (maps.perfettoRecordIdentity (before.eventSocket probe) owner direction
      probe).1.io = (((maps.enterCall (before.eventSocket probe) probe).packetIdentity probe
        (probe.func = .skbConsumeUdp)).1.leaveCall probe).io := by
    unfold perfettoRecordIdentity
    simp only [h, Bool.not_true, Bool.false_eq_true, if_false]
  obtain ⟨packets, counter, hpacket⟩ :=
    (maps.enterCall (before.eventSocket probe) probe).packetIdentity_eq probe
      (probe.func = .skbConsumeUdp)
  have hleft : (((maps.enterCall (before.eventSocket probe) probe).packetIdentity probe
      (probe.func = .skbConsumeUdp)).1.leaveCall probe).io =
        ((maps.enterCall (before.eventSocket probe) probe).leaveCall probe).io := by
    rw [hpacket]
    unfold leaveCall
    split
    case isTrue => exact perfettoIoExit_congr (by rfl) ..
    case isFalse => rfl
  rw [hleft] at hidentified
  by_cases hreturn : probe.isReturn = true
  case pos =>
    refine .left ?_ hreturn
    rw [hidentified]
    have hentered : maps.enterCall (before.eventSocket probe) probe = maps := by
      simp [enterCall, hreturn]
    rw [hentered, leaveCall_io probe hio, if_pos hreturn]
  case neg =>
    rw [Bool.not_eq_true] at hreturn
    have hstays (other : CallMaps) : other.leaveCall probe = other := by simp [leaveCall, hreturn]
    rw [hstays] at hidentified
    by_cases hfunc : perfettoSocketIo probe.func = true
    case pos =>
      refine .entered maps hio hcalls ?_ hreturn hfunc
      rw [hidentified]
      simp [enterCall, hfunc, hreturn]
    case neg =>
      rw [Bool.not_eq_true] at hfunc
      refine .none ?_ hreturn hfunc
      rw [hidentified]
      simpa [enterCall, hfunc] using hio

end

theorem CallMaps.eventSocket_congr {other : CallMaps} (h : other.io = maps.io) (probe : CallProbe) :
    other.eventSocket probe = maps.eventSocket probe := by
  unfold eventSocket
  rw [h]

theorem CallMaps.handleEntryOut_contexts (args : CallArgs) (sk : UInt64)
    (owner : Option PerfettoOwner) (direction : PacketDirection) (probe : CallProbe)
    {before : CallMaps} (hsk : sk = before.eventSocket probe) (hio : maps.io = before.io)
    (hcalls : maps.syscalls = before.syscalls) :
    if probe.identified then
      probe.OnContexts before (maps.handleEntryOut args sk owner direction probe).1
    else (maps.handleEntryOut args sk owner direction probe).1.io = before.io := by
  obtain ⟨sockets, syscalls, hbind⟩ := maps.networkSyscallBind_eq sk probe
  have hbound : (maps.networkSyscallBind sk probe).io = before.io := by
    rw [hbind]
    exact hio
  have hafter : (maps.handleEntryOut args sk owner direction probe).1.io =
      ((maps.networkSyscallBind sk probe).perfettoRecordIdentity sk owner direction
        probe).1.io := by
    unfold handleEntryOut
    dsimp only
    split
    case isTrue => rfl
    case isFalse =>
      obtain ⟨returns, hret⟩ := getRet_eq probe _
      rw [hret]
  by_cases hidentified : probe.identified = true
  case neg =>
    rw [if_neg hidentified, hafter, perfettoRecordIdentity_plain _ _ _ _
      (by simpa using hidentified)]
    exact hbound
  case pos =>
    rw [if_pos hidentified]
    have hcontexts := perfettoRecordIdentity_contexts sk owner direction probe hsk hbound
      (fun thread => hcalls ▸ Bound.starts (maps.networkSyscallBind_bound sk probe thread))
        hidentified
    cases hcontexts with
    | none hio hentry hturn => exact .none (hafter.trans hio) hentry hturn
    | left hio hreturn => exact .left (hafter.trans hio) hreturn
    | entered middle hmiddle hcalls hio hentry hfunc =>
        exact .entered middle hmiddle hcalls (hafter.trans hio) hentry hfunc

theorem CallMaps.functionProbe_contexts (maps : CallMaps) (probe : CallProbe)
    (hadmitted : rejects args probe = false) :
    match (maps.functionProbe args probe).2 with
    | none => (maps.functionProbe args probe).1.io =
        if probe.isReturn then (maps.perfettoIoExit probe.func probe.current.pidTgid).io
          else maps.io
    | some _ =>
        if probe.identified then probe.OnContexts maps (maps.functionProbe args probe).1
        else (maps.functionProbe args probe).1.io = maps.io := by
  obtain ⟨packets, counter, hsubmitted⟩ := maps.perfettoRecordSubmission_eq args probe
  obtain ⟨retired, hretired⟩ := (maps.perfettoRecordSubmission args probe).retireFreed_eq probe
  rw [functionProbe_admitted maps hadmitted]
  -- the maps that `handle_entry` finds
  generalize (maps.perfettoRecordSubmission args probe).retireFreed probe = found at hretired ⊢
  have hio : found.io = maps.io := by rw [hretired, hsubmitted]
  have hcalls : found.syscalls = maps.syscalls := by rw [hretired, hsubmitted]
  have hsocket := eventSocket_congr hio probe
  obtain ⟨sockets, hfailed⟩ | ⟨sockets, owner, direction, hout⟩ :=
    found.handleEntry_cases args probe
  case inl =>
    rw [hfailed]
    obtain ⟨packets, hfinish⟩ := handleEntryFinish_eq probe
      ({ found with sockets := sockets }.handleEntryErr probe)
    dsimp only
    rw [hfinish]
    exact handleEntryErr_io probe hio
  case inr =>
    rw [hout]
    dsimp only
    generalize hmaps : { found with sockets := sockets } = current
    have hcontexts := current.handleEntryOut_contexts args (found.eventSocket probe) owner direction
      probe hsocket (hmaps ▸ hio) (hmaps ▸ hcalls)
    obtain ⟨packets, hfinish⟩ := handleEntryFinish_eq probe
      (current.handleEntryOut args (found.eventSocket probe) owner direction probe).1
    rw [hfinish]
    split at hcontexts
    case isFalse h => rwa [if_neg h]
    case isTrue h =>
      rw [if_pos h]
      cases hcontexts with
      | none hio hentry hturn => exact .none hio hentry hturn
      | left hio hreturn => exact .left hio hreturn
      | entered middle hmiddle hcalls hio hentry hfunc =>
          exact .entered middle hmiddle hcalls hio hentry hfunc

theorem CallProbe.OnContexts.other {probe : CallProbe} {after : CallMaps}
    (h : probe.OnContexts maps after)
    (hother : perfettoSocketIo probe.func = false ∨ task ≠ probe.current.pidTgid) :
    after.io task = maps.io task := by
  cases h with
  | none hio => rw [hio]
  | left hio =>
      rw [hio]
      obtain hfunc | htask := hother
      · rw [CallMaps.perfettoIoExit_plain hfunc]
      · exact CallMaps.perfettoIoExit_other _ htask
  | entered before hbefore hcalls hio hentry hfunc =>
      have htask := hother.resolve_left (by rw [hfunc]; exact Bool.noConfusion)
      rw [hio, ← hbefore]
      obtain ⟨io, -, hput⟩ | ⟨io, hput, -⟩ :=
        before.perfettoIoEnter_cases (maps.eventSocket probe) probe
      · rw [hput, Keyed.put_other _ htask]
      · rw [hput, Keyed.put_other _ htask]

theorem CallMaps.functionProbe_other (probe : CallProbe)
    (hother : perfettoSocketIo probe.func = false ∨ task ≠ probe.current.pidTgid ∨
      rejects args probe = true) :
    (maps.functionProbe args probe).1.io task = maps.io task := by
  cases hrejects : rejects args probe with
  | true =>
      obtain ⟨packets, counter, hsubmitted⟩ := maps.perfettoRecordSubmission_eq args probe
      rw [functionProbe_rejected maps hrejects, hsubmitted]
  | false =>
      replace hother : perfettoSocketIo probe.func = false ∨ task ≠ probe.current.pidTgid := by
        obtain hfunc | htask | hcontra := hother
        · exact .inl hfunc
        · exact .inr htask
        · rw [hrejects] at hcontra
          cases hcontra
      have hcontexts := functionProbe_contexts maps probe hrejects
      split at hcontexts
      case h_1 =>
        rw [hcontexts]
        split
        case isFalse => rfl
        case isTrue =>
          obtain hfunc | htask := hother
          · rw [perfettoIoExit_plain hfunc]
          · exact perfettoIoExit_other _ htask
      case h_2 =>
        split at hcontexts
        case isTrue => exact hcontexts.other hother
        case isFalse => rw [hcontexts]

theorem ContextStep.function (probe : CallProbe) (hfunc : perfettoSocketIo probe.func = true)
    (htask : probe.current.pidTgid = task) (hrejects : CallMaps.rejects args probe = false) :
    ContextStep args task maps (.function probe) := by
  have hcontexts := CallMaps.functionProbe_contexts maps probe hrejects
  have hturns : CallStep.turns args task maps (.function probe) =
      match (maps.functionProbe args probe).2 with
      | none => if probe.isReturn then [.returned] else []
      | some _ =>
          if !probe.identified then [] else if probe.isReturn then [.returned] else [.entered] := by
    unfold CallStep.turns
    simp [hfunc, htask, hrejects]
  -- the context after a return
  have hleft (hreturn : CallStep.turns args task maps (.function probe) = [.returned])
      (hio : (maps.functionProbe args probe).1.io =
        (maps.perfettoIoExit probe.func probe.current.pidTgid).io) :
      ContextStep args task maps (.function probe) := by
    rw [htask] at hio
    obtain hlost | ⟨io, hbefore, hdeep, hafter⟩ :=
      maps.perfettoIoExit_cases task hfunc
    · exact .lost ((congrArg (fun io => io.lookup task) hio).trans hlost)
    · exact .left io hreturn rfl hbefore hdeep
        ((congrArg (fun io => io.lookup task) hio).trans hafter)
  cases hreport : (maps.functionProbe args probe).2 with
  | none =>
      rw [hreport] at hcontexts hturns
      cases hreturn : probe.isReturn with
      | true => exact hleft (by simpa [hreturn] using hturns) (by simpa [hreturn] using hcontexts)
      | false =>
          rw [hreturn] at hcontexts hturns
          exact .kept (congrArg (fun io => io.lookup task) hcontexts) hturns rfl
  | some report =>
      rw [hreport] at hcontexts hturns
      dsimp only at hcontexts hturns
      cases hidentified : probe.identified with
      | false =>
          rw [hidentified] at hcontexts hturns
          exact .kept (congrArg (fun io => io.lookup task) hcontexts) hturns rfl
      | true =>
          rw [if_pos hidentified] at hcontexts
          rw [hidentified] at hturns
          cases hcontexts with
          | none hio hentry hturn => rw [hfunc] at hturn; cases hturn
          | left hio hreturn => exact hleft (by simpa [hreturn] using hturns) hio
          | entered before hbefore hcalls hio hentry hfunc =>
              have hentered : CallStep.turns args task maps (.function probe) = [.entered] := by
                simpa [hentry] using hturns
              obtain ⟨io, hdeep, hput⟩ | ⟨io, hput, hstart, hsocket, hof, htx, hdepth, hcall⟩ :=
                before.perfettoIoEnter_cases (maps.eventSocket probe) probe
              · refine .deepened io hentered rfl (htask ▸ hbefore ▸ hdeep) ?_
                change (maps.functionProbe args probe).1.io task = _
                rw [hio, hput, htask, Keyed.put_same]
              · refine .opened probe io rfl hentered ?_ hstart hsocket hof htx hdepth
                  (hcall.trans (by rw [hcalls, htask]))
                change (maps.functionProbe args probe).1.io task = _
                rw [hio, hput, htask, Keyed.put_same]

/-- A return that a kretprobe reports leaves the call. -/
theorem CallMaps.handleExit_io (args : CallArgs) (maps : CallMaps) (current : Task)
    (func : ProbeFunc) (ret : Bool) :
    (maps.handleExit args current func ret).1.io =
      if args.perfetto && (maps.handleExit args current func ret).2 then
        (maps.perfettoIoExit func current.pidTgid).io
      else maps.io := by
  obtain ⟨returns, hput⟩ := maps.putRet_eq current func ret
  unfold handleExit
  generalize maps.putRet current func ret = found at hput ⊢
  obtain ⟨rest, skipped⟩ := found
  dsimp only at hput ⊢
  subst hput
  cases args.ready with
  | false => simp
  | true =>
      cases skipped with
      | true => simp
      | false =>
          cases args.perfetto with
          | false => simp
          | true =>
              simp only [Bool.not_true, Bool.false_eq_true, if_false, if_true, Bool.and_self]
              exact perfettoIoExit_congr (by rfl) ..

/-- The step of a return that a kretprobe sees. -/
theorem ContextStep.returned (current : Task) (func : ProbeFunc) (ret : Bool) :
    ContextStep args task maps (.returned current func ret) := by
  have hafter := congrArg (fun io => io.lookup task) (maps.handleExit_io args current func ret)
  have hturns : CallStep.turns args task maps (.returned current func ret) =
      if perfettoSocketIo func && current.pidTgid = task && args.perfetto &&
        (maps.handleExit args current func ret).2 then [.returned] else [] := rfl
  cases hfunc : perfettoSocketIo func with
  | false =>
      rw [hfunc] at hturns
      refine .kept (hafter.trans ?_) hturns rfl
      rw [CallMaps.perfettoIoExit_plain hfunc, ite_self]
  | true =>
      by_cases htask : current.pidTgid = task
      case neg =>
        refine .kept (hafter.trans ?_) (by simpa [htask] using hturns) rfl
        split
        case isTrue => exact CallMaps.perfettoIoExit_other func (Ne.symm htask)
        case isFalse => rfl
      case pos =>
        subst htask
        cases hreport : args.perfetto && (maps.handleExit args current func ret).2 with
        | false =>
            rw [hreport] at hafter
            refine .kept hafter ?_ rfl
            rw [hturns, Bool.and_assoc, hreport, Bool.and_false]
            rfl
        | true =>
            rw [hreport] at hafter
            obtain hlost | ⟨io, hbefore, hdeep, hexit⟩ :=
              maps.perfettoIoExit_cases current.pidTgid hfunc
            · exact .lost (hafter.trans hlost)
            · refine .left io ?_ rfl hbefore hdeep (hafter.trans hexit)
              rw [hturns, Bool.and_assoc, hreport]
              simp [hfunc]

/-- The beginning of a system call ends the context of its task. -/
theorem CallMaps.networkSysEnter_io (args : CallArgs) (maps : CallMaps) (entry : SyscallEntry) :
    (maps.networkSysEnter args entry).1.io =
      if watches args entry.current then maps.io.remove entry.current.pidTgid else maps.io := by
  cases h : watches args entry.current with
  | true => exact (networkSysEnter_cases args entry maps h).1
  | false => rw [networkSysEnter_unwatched maps h]; rfl

/-- So does its end. -/
theorem CallMaps.networkSysExit_io (args : CallArgs) (maps : CallMaps) (exit : SyscallExit) :
    (maps.networkSysExit args exit).1.io =
      if args.ready && args.perfetto then maps.io.remove exit.current.pidTgid else maps.io := by
  cases h : args.ready && args.perfetto with
  | true => exact (networkSysExit_eq args exit maps h).1
  | false => rw [networkSysExit_unwatched maps h]; rfl

theorem CallMaps.remove_bound {current : Task} {bound : Bool} (maps : CallMaps) (task : UInt64) :
    (if bound then maps.io.remove current.pidTgid else maps.io) task =
      if bound && current.pidTgid = task then none else maps.io task := by
  cases bound with
  | false => rfl
  | true =>
      by_cases htask : current.pidTgid = task
      · simp [htask]
      · simp [htask, Keyed.remove_other _ (Ne.symm htask)]

theorem ContextStep.any (args : CallArgs) (task : UInt64) (maps : CallMaps) (step : CallStep) :
    ContextStep args task maps step := by
  cases step with
  | function probe =>
      by_cases hother : perfettoSocketIo probe.func = false ∨ task ≠ probe.current.pidTgid ∨
          CallMaps.rejects args probe = true
      case neg =>
        simp only [not_or, Bool.not_eq_false, not_not, Bool.not_eq_true] at hother
        exact .function probe hother.1 hother.2.1.symm hother.2.2
      case pos =>
        refine .kept (CallMaps.functionProbe_other probe hother) ?_ rfl
        unfold CallStep.turns
        obtain hfunc | htask | hrejects := hother
        · simp [hfunc]
        · simp [Ne.symm htask]
        · simp [hrejects]
  | returned current func ret => exact .returned current func ret
  | sysEnter entry =>
      have hio := (congrArg (fun io => io.lookup task) (maps.networkSysEnter_io args entry)).trans
        (maps.remove_bound task)
      cases hbounds : CallStep.bounds args task (.sysEnter entry) with
      | true => exact .lost (hio.trans (if_pos hbounds))
      | false => exact .kept (hio.trans (if_neg (ne_true_of_eq_false hbounds))) rfl hbounds
  | sysExit exit =>
      have hio := (congrArg (fun io => io.lookup task) (maps.networkSysExit_io args exit)).trans
        (maps.remove_bound task)
      cases hbounds : CallStep.bounds args task (.sysExit exit) with
      | true => exact .lost (hio.trans (if_pos hbounds))
      | false => exact .kept (hio.trans (if_neg (ne_true_of_eq_false hbounds))) rfl hbounds
  | evictIo thread =>
      by_cases hthread : task = thread
      · exact .lost (by subst hthread; exact Keyed.remove_same _ _)
      · exact .kept (Keyed.remove_other _ hthread) rfl rfl
  | sockets | evictSyscall | evictPacket | evictReturn => exact .kept rfl rfl rfl

end Step

/-! ## Runs -/

def turnsSince (args : CallArgs) (task : UInt64) (before : List CallStep) (opening : CallProbe)
    (since : List CallStep) : List CallTurn :=
  turnsFrom args task (callMapsAfter args (before ++ [.function opening])) since

/-- A probe opened a context of a task, and the task has not left it since. -/
structure InCall (args : CallArgs) (task : UInt64) (io : PerfettoIo) (before : List CallStep)
    (opening : CallProbe) (since : List CallStep) : Prop where
  entered : CallStep.turns args task (callMapsAfter args before) (.function opening) = [.entered]
  startTs : io.startTs = opening.ts
  socket : io.socketKey = (callMapsAfter args before).eventSocket opening
  func : io.func = opening.func
  tx : io.tx = opening.status.tx
  /-- The system call is the one that is tracked for the task, if any. -/
  syscall : io.syscallStartTs =
    (((callMapsAfter args before).syscalls task).map fun call => call.startTs).getD 0
  /-- No system call of the task began or ended since. -/
  unbounded : ∀ step ∈ since, step.bounds args task = false
  /-- The call that opened the context has not returned. -/
  unreturned : Unreturned (turnsSince args task before opening since)

section Runs

variable {args : CallArgs} {task : UInt64}

theorem callMapsAfter_concat (args : CallArgs) (steps : List CallStep) (step : CallStep) :
    callMapsAfter args (steps ++ [step]) = step.apply args (callMapsAfter args steps) :=
  Run.run_concat ..

theorem turnsFrom_concat (args : CallArgs) (task : UInt64) (before since : List CallStep)
    (step : CallStep) :
    turnsFrom args task (callMapsAfter args before) (since ++ [step]) =
      turnsFrom args task (callMapsAfter args before) since ++
        step.turns args task (callMapsAfter args (before ++ since)) := by
  unfold turnsFrom callMapsAfter
  rw [Run.observations_concat, Run.run_append]

/-- Another step that leaves the context in place. -/
theorem InCall.concat {io : PerfettoIo} {before since : List CallStep} {opening : CallProbe}
    {step : CallStep} {turns : List CallTurn} (h : InCall args task io before opening since)
    (hturns : step.turns args task (callMapsAfter args (before ++ .function opening :: since)) =
      turns)
    (hbounds : step.bounds args task = false)
    (hunreturned : Unreturned (turnsSince args task before opening since ++ turns))
    (depth : UInt32) :
    InCall args task { io with depth := depth } before opening (since ++ [step]) where
  entered := h.entered
  startTs := h.startTs
  socket := h.socket
  func := h.func
  tx := h.tx
  syscall := h.syscall
  unbounded := by
    intro other hmem
    obtain hold | hnew := List.mem_append.mp hmem
    · exact h.unbounded other hold
    · rwa [List.mem_singleton.mp hnew]
  unreturned := by
    unfold turnsSince
    rw [turnsFrom_concat, List.append_assoc]
    exact hturns.symm ▸ hunreturned

def ContextOf (args : CallArgs) (task : UInt64) (steps : List CallStep) (io : PerfettoIo) : Prop :=
  ∃ before opening since, steps = before ++ .function opening :: since ∧
    InCall args task io before opening since ∧
    io.depth.toNat + (turnsSince args task before opening since).count .returned ≤
      1 + (turnsSince args task before opening since).count .entered

theorem context_of (args : CallArgs) (task : UInt64) (steps : List CallStep) :
    ∀ io, (callMapsAfter args steps).io task = some io → ContextOf args task steps io := by
  refine @Run.run_history _ _ _ _
    (fun steps (maps : CallMaps) => ∀ io, maps.io task = some io → ContextOf args task steps io)
    ?_ ?_ steps
  · intro io h
    cases h
  intro history step ih io hio
  change (step.apply args (callMapsAfter args history)).io task = some io at hio
  have hconcat {before since : List CallStep} {opening : CallProbe} {turns : List CallTurn}
      (hhistory : history = before ++ .function opening :: since)
      (hturns : step.turns args task (callMapsAfter args history) = turns) :
      turnsSince args task before opening (since ++ [step]) =
        turnsSince args task before opening since ++ turns := by
    subst hhistory
    rw [← hturns]
    refine (turnsFrom_concat ..).trans ?_
    rw [List.append_assoc]
    rfl
  cases ContextStep.any args task (callMapsAfter args history) step with
  | lost hlost =>
      rw [hlost] at hio
      cases hio
  | kept hkept hturns hbounds =>
      rw [hkept] at hio
      obtain ⟨before, opening, since, hhistory, hcall, hdepth⟩ := ih io hio
      refine ⟨before, opening, since ++ [step], by simp [hhistory], ?_, ?_⟩
      · exact hcall.concat (hhistory ▸ hturns) hbounds (by simpa using hcall.unreturned) io.depth
      · rwa [hconcat hhistory hturns, List.append_nil]
  | opened probe opened hstep hturns hafter hstart hsocket hfunc htx hdepth hcall =>
      obtain rfl := Option.some.inj (hafter.symm.trans hio)
      subst hstep
      refine ⟨history, probe, [], rfl, ?_, ?_⟩
      · exact ⟨hturns, hstart, hsocket, hfunc, htx, hcall, fun _ h => (by cases h), Unreturned.nil⟩
      · rw [hdepth]
        exact Nat.le_refl _
  | deepened inner hturns hbounds hinner hafter =>
      obtain rfl := Option.some.inj (hafter.symm.trans hio)
      obtain ⟨before, opening, since, hhistory, hcall, hdepth⟩ := ih inner hinner
      have hturn := hconcat hhistory hturns
      have hsum : (inner.depth + 1).toNat ≤ inner.depth.toNat + 1 := by
        rw [UInt32.toNat_add]
        exact Nat.mod_le ..
      refine ⟨before, opening, since ++ [step], by simp [hhistory], ?_, ?_⟩
      · refine hcall.concat (hhistory ▸ hturns) hbounds (hcall.unreturned.concat ?_) _
        have hcount := hcall.unreturned _ [] (List.append_nil _).symm
        simp only [List.count_append, List.count_singleton]
        simp
        omega
      · rw [hturn]
        simp only [List.count_append, List.count_singleton]
        simp
        omega
  | left inner hturns hbounds hinner hdeep hafter =>
      obtain rfl := Option.some.inj (hafter.symm.trans hio)
      obtain ⟨before, opening, since, hhistory, hcall, hdepth⟩ := ih inner hinner
      have hturn := hconcat hhistory hturns
      have hone : 1 < inner.depth.toNat := UInt32.lt_iff_toNat_lt.mp hdeep
      have hless : (inner.depth - 1).toNat = inner.depth.toNat - 1 :=
        UInt32.toNat_sub_of_le _ _ (UInt32.le_of_lt hdeep)
      refine ⟨before, opening, since ++ [step], by simp [hhistory], ?_, ?_⟩
      · refine hcall.concat (hhistory ▸ hturns) hbounds (hcall.unreturned.concat ?_) _
        simp only [List.count_append, List.count_singleton]
        simp
        omega
      · rw [hturn]
        simp only [List.count_append, List.count_singleton]
        simp
        omega

/-- A call that is tracked for a task after a step is the one before it, unless the step begins or
ends a system call of the task. -/
theorem CallStep.syscalls_cases {args : CallArgs} {maps : CallMaps} {step : CallStep}
    {task : UInt64} {call : SyscallRecord} (h : (step.apply args maps).syscalls task = some call) :
    step.bounds args task = true ∨
      ∃ old, maps.syscalls task = some old ∧ old.startTs = call.startTs := by
  have hkept {after : CallMaps} (hsame : after.syscalls = maps.syscalls)
      (hcall : after.syscalls task = some call) :
      ∃ old, maps.syscalls task = some old ∧ old.startTs = call.startTs :=
    ⟨call, hsame ▸ hcall, rfl⟩
  cases step with
  | function probe =>
      have hstart := CallMaps.Bound.starts (maps.functionProbe_bound args probe task)
      rw [show (maps.functionProbe args probe).1.syscalls task = some call from h] at hstart
      exact .inr (Option.map_eq_some_iff.mp hstart.symm)
  | returned current func ret =>
      obtain ⟨io, returns, hexit⟩ := maps.handleExit_eq args current func ret
      have hsame := congrArg CallMaps.syscalls hexit
      exact .inr (hkept hsame h)
  | sysEnter entry =>
      cases hwatched : CallMaps.watches args entry.current with
      | false => exact .inr (hkept (congrArg (fun found => found.1.syscalls)
          (maps.networkSysEnter_unwatched hwatched)) h)
      | true =>
          by_cases htask : entry.current.pidTgid = task
          · exact .inl (by simp [CallStep.bounds, hwatched, htask])
          · obtain ⟨-, ⟨hcalls, -⟩ | ⟨record, hcalls, -⟩⟩ :=
              maps.networkSysEnter_cases args entry hwatched
            all_goals
              replace h := (congrArg (fun calls => calls.lookup task) hcalls).symm.trans h
            · exact .inr ⟨call, (Keyed.remove_other _ (Ne.symm htask)).symm.trans h, rfl⟩
            · exact .inr ⟨call, (Keyed.put_other _ (Ne.symm htask) _).symm.trans h, rfl⟩
  | sysExit exit =>
      cases hwatched : args.ready && args.perfetto with
      | false => exact .inr (hkept (congrArg (fun found => found.1.syscalls)
          (maps.networkSysExit_unwatched hwatched)) h)
      | true =>
          by_cases htask : exit.current.pidTgid = task
          · exact .inl (by simp [CallStep.bounds, hwatched, htask])
          · replace h := (congrArg (fun calls => calls.lookup task)
              (maps.networkSysExit_eq args exit hwatched).2.1).symm.trans h
            exact .inr ⟨call, (Keyed.remove_other _ (Ne.symm htask)).symm.trans h, rfl⟩
  | evictSyscall thread => exact .inr ⟨call, (Keyed.remove_cases h).2, rfl⟩
  | sockets | evictIo | evictPacket | evictReturn => exact .inr ⟨call, h, rfl⟩

/-- The context of a task names the system call that is tracked for the task. -/
theorem context_syscall (args : CallArgs) (steps : List CallStep) :
    ∀ task io call, (callMapsAfter args steps).io task = some io →
      (callMapsAfter args steps).syscalls task = some call → io.syscallStartTs = call.startTs := by
  refine @Run.run_invariant _ _ _ _ (fun (maps : CallMaps) => ∀ task io call,
    maps.io task = some io → maps.syscalls task = some call → io.syscallStartTs = call.startTs)
    (fun _ _ _ h => (by cases h)) ?_ steps
  intro maps step ih task io call hio hcall
  have hcases := CallStep.syscalls_cases hcall
  cases ContextStep.any args task maps step with
  | lost hlost => rw [hlost] at hio; cases hio
  | kept hkept hturns hbounds =>
      obtain ⟨old, hold, hstart⟩ := hcases.resolve_left (ne_true_of_eq_false hbounds)
      rw [← hstart]
      exact ih task io old (hkept ▸ hio) hold
  | opened probe opened hstep hturns hafter hstart hsocket hfunc htx hdepth hopened =>
      obtain rfl := Option.some.inj (hafter.symm.trans hio)
      obtain ⟨old, hold, hstart⟩ := hcases.resolve_left (by rw [hstep]; exact Bool.false_ne_true)
      rw [hopened, hold]
      exact hstart
  | deepened inner hturns hbounds hinner hafter =>
      obtain ⟨old, hold, hstart⟩ := hcases.resolve_left (ne_true_of_eq_false hbounds)
      rw [← Option.some.inj (hafter.symm.trans hio), ← hstart]
      exact ih task inner old hinner hold
  | left inner hturns hbounds hinner hdeep hafter =>
      obtain ⟨old, hold, hstart⟩ := hcases.resolve_left (ne_true_of_eq_false hbounds)
      rw [← Option.some.inj (hafter.symm.trans hio), ← hstart]
      exact ih task inner old hinner hold

end Runs

/-! ## What events report -/

section Reports

variable {args : CallArgs} {maps : CallMaps} {probe : CallProbe} {report : CallReport}

/-- The packet's evidence takes the place of the task's own only where the two are of one call. -/
theorem PacketInstance.applySubmission_own (packet : PacketInstance) (detail : CallEvidence)
    (hstart : (packet.applySubmission detail).ioStartTs ≠ 0)
    (hrole : (packet.applySubmission detail).ioRole ≠ 4) :
    (packet.applySubmission detail).ioStartTs = detail.ioStartTs ∧
      (packet.applySubmission detail).ioTid = detail.ioTid ∧
      (packet.applySubmission detail).ioTgid = detail.ioTgid := by
  unfold applySubmission at hstart hrole ⊢
  split at hstart
  case isTrue => exact absurd rfl hstart
  case isFalse hsingle =>
    rw [if_neg hsingle] at hrole ⊢
    split at hstart
    case isTrue hunknown =>
      rw [if_pos hunknown]
      exact ⟨rfl, rfl, rfl⟩
    case isFalse hknown =>
      rw [if_neg hknown] at hrole ⊢
      dsimp only at hrole ⊢
      split at hrole
      case isTrue => exact absurd rfl hrole
      case isFalse hsame =>
        simp only [not_or, not_not] at hsame
        exact ⟨hsame.1.symm, hsame.2.1.symm, hsame.2.2.symm⟩

theorem CallMaps.perfettoRecordIdentity_evidence (sk : UInt64) (owner : Option PerfettoOwner)
    (direction : PacketDirection) (h : probe.identified = true) :
    let entered := maps.enterCall sk probe
    let own := entered.ownEvidence sk ((owner.map PerfettoOwner.socketKey).getD 0) direction probe
    let found := entered.packetIdentity probe (probe.func = .skbConsumeUdp)
    (maps.perfettoRecordIdentity sk owner direction probe).2.2 =
      if probe.skb = 0 then own
      else found.1.packetEvidence ((owner.map PerfettoOwner.socketKey).getD 0)
        ((owner.map PerfettoOwner.socketGeneration).getD 0) direction found.2 probe own := by
  unfold perfettoRecordIdentity
  simp only [h, Bool.not_true, Bool.false_eq_true, if_false]

/-- The evidence of the task's own context is nothing, or names the context. -/
theorem CallMaps.ownEvidence_cases (maps : CallMaps) (sk owner : UInt64)
    (direction : PacketDirection) (probe : CallProbe) :
    maps.ownEvidence sk owner direction probe = .none ∨
      ∃ io, maps.io probe.current.pidTgid = some io ∧ ∃ role, role ≤ 3 ∧
        maps.ownEvidence sk owner direction probe =
          ⟨io.startTs, io.syscallStartTs, probe.current.tid, probe.current.tgid, role, false⟩ := by
  unfold ownEvidence
  split
  case h_1 => exact .inl rfl
  case h_2 io hio =>
    dsimp only
    split
    case isTrue =>
      refine .inr ⟨io, hio, _, ?_, rfl⟩
      split
      case isTrue => decide
      case isFalse =>
        split
        case isTrue => decide
        case isFalse => split <;> decide
    case isFalse => exact .inl rfl

/-- The context that the task's own evidence is of is there before the probe or after it. -/
theorem CallMaps.perfettoRecordIdentity_io (sk : UInt64) (owner : Option PerfettoOwner)
    (direction : PacketDirection) (h : probe.identified = true) :
    (maps.enterCall sk probe).io = maps.io ∨
      (maps.enterCall sk probe).io =
        (maps.perfettoRecordIdentity sk owner direction probe).1.io := by
  cases hreturn : probe.isReturn with
  | true => exact .inl (by simp [enterCall, hreturn])
  | false =>
      right
      obtain ⟨packets, counter, hpacket⟩ :=
        (maps.enterCall sk probe).packetIdentity_eq probe (probe.func = .skbConsumeUdp)
      unfold perfettoRecordIdentity
      simp only [h, Bool.not_true, Bool.false_eq_true, if_false]
      simp [leaveCall, hreturn, hpacket]

/-- What the task of an event is doing itself: nothing that is known, or the context that it had
before the probe or got by it. -/
def OwnEvidence (args : CallArgs) (maps : CallMaps) (probe : CallProbe) (own : CallEvidence) :
    Prop :=
  own = .none ∨ ∃ io, (maps.io probe.current.pidTgid = some io ∨
      (maps.functionProbe args probe).1.io probe.current.pidTgid = some io) ∧
    ∃ role, role ≤ 3 ∧
      own = ⟨io.startTs, io.syscallStartTs, probe.current.tid, probe.current.tgid, role, false⟩

/-- The socket that a packet was submitted on is that of its owner, or the owner is not known. -/
def PacketInstance.OwnedBy (packet : PacketInstance) (owner : Option PerfettoOwner) : Prop :=
  (owner.map PerfettoOwner.socketKey).getD 0 = 0 ∨
    packet.ioSocketKey = (owner.map PerfettoOwner.socketKey).getD 0 ∧
      packet.ioSocketGeneration = (owner.map PerfettoOwner.socketGeneration).getD 0

instance (packet : PacketInstance) (owner : Option PerfettoOwner) :
    Decidable (packet.OwnedBy owner) :=
  inferInstanceAs (Decidable (_ ∨ _))

/-- An event of TCP or UDP reports what its task is doing, and what the record of a sent packet
says. -/
theorem CallMaps.functionProbe_evidence (h : (maps.functionProbe args probe).2 = some report)
    (hidentified : probe.identified = true) :
    ∃ own, OwnEvidence args maps probe own ∧ (probe.skb = 0 → report.evidence = own) ∧
      (probe.skb ≠ 0 → ∃ packet : PacketInstance,
        (maps.functionProbe args probe).1.packets probe.skb = some packet ∧
        packet.generation = report.keyGeneration ∧
        report.evidence = if report.direction = .tx ∧ packet.OwnedBy report.owner then
          packet.applySubmission own else own) := by
  obtain ⟨-, found, hio, -, -, identity, hidentity, hafter, hpackets, -, hgeneration,
    hevidence, -⟩ :=
    functionProbe_report h
  have hwhole := found.perfettoRecordIdentity_evidence (maps.eventSocket probe) report.owner
    report.direction hidentified
  have hown := (found.enterCall (maps.eventSocket probe) probe).ownEvidence_cases
    (maps.eventSocket probe) ((report.owner.map PerfettoOwner.socketKey).getD 0) report.direction
    probe
  dsimp only at hwhole
  rw [← hidentity, ← hevidence] at hwhole
  generalize (found.enterCall (maps.eventSocket probe) probe).ownEvidence (maps.eventSocket probe)
    ((report.owner.map PerfettoOwner.socketKey).getD 0) report.direction probe = own at hwhole hown
  refine ⟨own, ?_, fun hskb => hwhole.trans (if_pos hskb), fun hskb => ?_⟩
  · obtain hnone | ⟨io, hentered, role, hrole, hown⟩ := hown
    · exact .inl hnone
    · refine .inr ⟨io, ?_, role, hrole, hown⟩
      obtain hbefore | hlater :=
        found.perfettoRecordIdentity_io (maps.eventSocket probe) report.owner
        report.direction hidentified
      · rw [hbefore, hio] at hentered
        exact .inl hentered
      · rw [hlater, ← hidentity, ← hafter] at hentered
        exact .inr hentered
  · rw [if_neg hskb] at hwhole
    -- the record that the packet has when its generation is known
    have hidentity' : identity.1.packets = ((found.enterCall (maps.eventSocket probe)
        probe).packetIdentity probe (probe.func = .skbConsumeUdp)).1.packets ∧
        identity.2.1 = ((found.enterCall (maps.eventSocket probe)
          probe).packetIdentity probe (probe.func = .skbConsumeUdp)).2 := by
      rw [hidentity]
      unfold perfettoRecordIdentity
      simp only [hidentified, Bool.not_true, Bool.false_eq_true, if_false]
      obtain ⟨io, hleft⟩ := ((found.enterCall (maps.eventSocket probe) probe).packetIdentity probe
        (probe.func = .skbConsumeUdp)).1.leaveCall_eq probe
      refine ⟨?_, trivial⟩
      rw [hleft]
    generalize found.enterCall (maps.eventSocket probe) probe = entered at hwhole hidentity'
    have hfound : entered.packetIdentity probe (probe.func = .skbConsumeUdp) =
        entered.perfettoPacketGeneration probe.skb probe.head probe.users probe.status.free
          (probe.func = .skbConsumeUdp) := if_neg hskb
    obtain ⟨packet, hpacket, hnumber⟩ :=
      entered.perfettoPacketGeneration_packet probe.skb probe.head
      probe.users probe.status.free (probe.func = .skbConsumeUdp)
    rw [← hfound] at hpacket hnumber
    rw [← hidentity'.1] at hpacket
    obtain ⟨released, hfinished⟩ := handleEntryFinish_packet probe hpacket
    refine ⟨{ packet with released := released }, hpackets ▸ hfinished,
      hnumber.trans (hidentity'.2.symm.trans (hgeneration hskb).symm), ?_⟩
    rw [hwhole]
    unfold packetEvidence
    rw [← hidentity'.1, hpacket]
    by_cases hsent : report.direction = .tx
    · simp only [hsent, hnumber, ne_eq, not_true_eq_false, if_false, true_and]
      rfl
    · simp only [hsent, ne_eq, not_false_eq_true, if_true, false_and, if_false]

/-- An event that reports a call it ran in, not one that its packet came from, reports the context
of its task. -/
theorem CallMaps.functionProbe_own (h : (maps.functionProbe args probe).2 = some report)
    (hstart : report.evidence.ioStartTs ≠ 0) (hrole : report.evidence.ioRole ≠ 4) :
    report.evidence.ioTid = probe.current.tid ∧ report.evidence.ioTgid = probe.current.tgid ∧
      ∃ io, (maps.io probe.current.pidTgid = some io ∨
          (maps.functionProbe args probe).1.io probe.current.pidTgid = some io) ∧
        report.evidence.ioStartTs = io.startTs ∧
        (probe.skb = 0 → report.evidence.syscallStartTs = io.syscallStartTs) := by
  cases hidentified : probe.identified with
  | false =>
      exfalso
      obtain ⟨-, found, -, -, -, identity, hidentity, -, -, -, -, hevidence, -⟩ :=
        functionProbe_report h
      rw [hevidence, hidentity] at hstart
      unfold perfettoRecordIdentity at hstart
      simp only [hidentified, Bool.not_false, if_true] at hstart
      exact hstart rfl
  | true =>
      obtain ⟨own, hown, hplain, hstored⟩ := functionProbe_evidence h hidentified
      have hsame : report.evidence.ioStartTs = own.ioStartTs ∧ report.evidence.ioTid = own.ioTid ∧
          report.evidence.ioTgid = own.ioTgid := by
        by_cases hskb : probe.skb = 0
        · rw [hplain hskb]
          exact ⟨rfl, rfl, rfl⟩
        · obtain ⟨packet, -, -, hshown⟩ := hstored hskb
          split at hshown
          case isTrue =>
            rw [hshown] at hstart hrole ⊢
            exact packet.applySubmission_own own hstart hrole
          case isFalse =>
            rw [hshown]
            exact ⟨rfl, rfl, rfl⟩
      obtain ⟨hts, htid, htgid⟩ := hsame
      rw [hts] at hstart
      obtain rfl | ⟨io, hio, role, -, rfl⟩ := hown
      · exact absurd rfl hstart
      · exact ⟨htid, htgid, io, hio, hts,
          fun hskb => congrArg CallEvidence.syscallStartTs (hplain hskb)⟩

/-- An event that reports a call it ran in was handled during that call: the task of the event
entered a protocol function in a step before, or in this one; since then no system call of the task
began or ended, and every return of a protocol function was of one entered since. The system call
that is reported is the one tracked for the task. -/
theorem reported_call_in_progress (args : CallArgs) (steps : List CallStep) (probe : CallProbe)
    (report : CallReport) (h : ((callMapsAfter args steps).functionProbe args probe).2 =
      some report) (hstart : report.evidence.ioStartTs ≠ 0) (hrole : report.evidence.ioRole ≠ 4) :
    report.evidence.ioTid = probe.current.tid ∧ report.evidence.ioTgid = probe.current.tgid ∧
      ∃ run io before opening since, (run = steps ∨ run = steps ++ [.function probe]) ∧
        run = before ++ .function opening :: since ∧
        InCall args probe.current.pidTgid io before opening since ∧
        report.evidence.ioStartTs = opening.ts ∧
        (probe.skb = 0 → report.evidence.syscallStartTs = io.syscallStartTs) ∧
        ∀ call, (callMapsAfter args run).syscalls probe.current.pidTgid = some call →
          io.syscallStartTs = call.startTs := by
  obtain ⟨htid, htgid, io, hio, hts, hsyscall⟩ := CallMaps.functionProbe_own h hstart hrole
  refine ⟨htid, htgid, ?_⟩
  obtain ⟨run, hrun, hcontext⟩ : ∃ run, (run = steps ∨ run = steps ++ [.function probe]) ∧
      (callMapsAfter args run).io probe.current.pidTgid = some io := by
    obtain hbefore | hafter := hio
    · exact ⟨steps, .inl rfl, hbefore⟩
    · refine ⟨steps ++ [.function probe], .inr rfl, ?_⟩
      rw [callMapsAfter_concat]
      exact hafter
  obtain ⟨before, opening, since, hsplit, hcall, -⟩ := context_of args _ run io hcontext
  exact ⟨run, io, before, opening, since, hrun, hsplit, hcall, hts.trans hcall.startTs, hsyscall,
    fun call hcurrent => context_syscall args run _ io call hcontext hcurrent⟩

/-- A capture without filters, whose only network call is `sendto` with number 206. -/
def sendingArgs : CallArgs where
  toBpfArgs := ⟨true, true, false, false, false, 0, false, 0⟩
  arch := .other
  networkSyscallNr := fun kind => if kind = .sendto then 206 else 0xffffffff
  compatNetworkSyscallNr := fun _ => 0xffffffff
  networkSocketFilter := false
  tracing := false

def sendingTask : Task :=
  ⟨7, 7, 0, 1, []⟩

def sendingProbe (func : ProbeFunc) (current : Task) (ts skb : UInt64) : CallProbe where
  func := func
  status := ⟨false, skb = 0, false, true, perfettoSocketIo func⟩
  current := current
  ts := ts
  sk := 100
  skb := skb
  skbSk := 100
  head := 900
  users := 1
  skUid := fun _ => 0
  packet := ⟨true, true, false, ⟨[10, 0, 0, 2], [10, 0, 0, 1], 40000, 443, 0x800, 6, 1⟩, false⟩
  socketSupported := true
  requestedBytes := 20
  isReturn := false
  destroys := false
  admitted := true
  passes := true

/-- The task is in `sendto`, `tcp_sendmsg` and `tcp_skb_entail`. -/
def sendingSteps : List CallStep :=
  [.sysEnter ⟨10, sendingTask, 206, 0, 3, 20, 0, none, none, default, true, true⟩,
    .function (sendingProbe .tcpSendmsg sendingTask 11 0),
    .function (sendingProbe .tcpSkbEntail sendingTask 12 500)]

/-- The packet is sent while its task is in the call. -/
theorem reported_call_in_progress_sending :
    ∃ report, ((callMapsAfter sendingArgs sendingSteps).functionProbe sendingArgs
        (sendingProbe (.other 1) sendingTask 13 500)).2 = some report ∧
      report.evidence = ⟨11, 10, 7, 7, 1, false⟩ ∧
      ∃ run io before opening since,
        (run = sendingSteps ∨
          run = sendingSteps ++ [.function (sendingProbe (.other 1) sendingTask 13 500)]) ∧
        run = before ++ .function opening :: since ∧
        InCall sendingArgs sendingTask.pidTgid io before opening since ∧ opening.ts = 11 := by
  refine ⟨_, rfl, by decide +kernel, ?_⟩
  obtain ⟨-, -, run, io, before, opening, since, hrun, hsplit, hcall, hstart, -⟩ :=
    reported_call_in_progress sendingArgs sendingSteps
      (sendingProbe (.other 1) sendingTask 13 500) _ rfl
      (by decide +kernel) (by decide +kernel)
  exact ⟨run, io, before, opening, since, hrun, hsplit, hcall,
    hstart.symm.trans (by decide +kernel)⟩

end Reports

end Anettrace.Probes
