import Anettrace.Probes.Wakeup
import Anettrace.Library.Run

/-!
# Evidence of a wakeup

A reported chain is one of the reporting task: a waking, a wakeup after it and a switching in after
that, none of them followed by another waking of the task or by its switching out. The scheduler's
probes run in any order over any tasks; thread ids are used again, each by one task at a time.
-/

namespace Anettrace.Probes

open Library

/-- What tells tasks apart. -/
structure TaskId where
  tid : UInt32
  startTime : UInt64
  deriving DecidableEq, Repr, Inhabited

def Task.id (task : Task) : TaskId :=
  ⟨task.tid, task.startTime⟩

/-- A step of the kernel: a scheduler probe fires, a network call is entered, or the map drops an
entry. The task that is switched out is the one its probe interrupts. -/
inductive SchedStep where
  | waking (now : SchedNow) (target : Task)
  | wakeup (now : SchedNow) (target : Task)
  | switch (now : SchedNow) (next : Task)
  | sysEnter (now : SchedNow)
  | evict (tid : UInt32)

def SchedStep.tasks : SchedStep → List Task
  | .waking _ target | .wakeup _ target => [target]
  | .switch now next => [now.current, next]
  | .sysEnter now => [now.current]
  | .evict _ => []

/-- The map after a step. -/
def SchedStep.apply (args : BpfArgs) (states : NetworkWakeups) : SchedStep → NetworkWakeups
  | .waking now target => networkSchedWaking args now target.tid states
  | .wakeup now target => networkSchedWakeup args now target.tid states
  | .switch now next => networkSchedSwitch args now now.current.tid next.tid states
  | .sysEnter now => (networkSysEnter args now states).1
  | .evict tid => states.remove tid

/-- The tasks of a run, in order. -/
def mentioned (steps : List SchedStep) : List Task :=
  steps.flatMap SchedStep.tasks

/-- A task keeps its user and its thread group. -/
def TasksConstant (steps : List SchedStep) : Prop :=
  ∀ first ∈ mentioned steps, ∀ second ∈ mentioned steps, first.id = second.id →
    first.uid = second.uid ∧ first.tgid = second.tgid

def SchedStep.Ends (task : TaskId) : SchedStep → Prop
  | .waking _ target => target.id = task
  | .switch now _ => now.current.id = task
  | .wakeup .. | .sysEnter _ | .evict _ => False

section Handlers

variable {args : BpfArgs} {now : SchedNow} {states : NetworkWakeups}

theorem wokenBy_chain (state : NetworkWakeupState) (now : SchedNow) :
    (state.wokenBy now).taskStartTime = state.taskStartTime ∧
      (state.wokenBy now).tgid = state.tgid ∧
      (state.wokenBy now).wakingTs = state.wakingTs ∧
      (state.wokenBy now).wakeupTs = state.wakeupTs ∧
      (state.wokenBy now).runStartTs = state.runStartTs := by
  unfold NetworkWakeupState.wokenBy
  dsimp only
  split
  case isTrue => exact ⟨rfl, rfl, rfl, rfl, rfl⟩
  case isFalse => split <;> exact ⟨rfl, rfl, rfl, rfl, rfl⟩

def Recordable (args : BpfArgs) (task : Task) : Prop :=
  perfettoCurrentMatches args task.tid task.uid = true ∧ task.tid ≠ 0 ∧ task.startTime ≠ 0

def NetworkWakeupState.Of (state : NetworkWakeupState) (task : Task) : Prop :=
  state.taskStartTime = task.startTime ∧ state.tgid = task.tgid

theorem networkWakeupCurrent_cases (args : BpfArgs) (now : SchedNow) (states : NetworkWakeups) :
    (∃ state, networkWakeupCurrent args now states = (states, some state) ∧
      states now.current.tid = some state ∧ Recordable args now.current ∧
      state.Of now.current) ∨
    (∃ state, networkWakeupCurrent args now states =
        (states.put now.current.tid state, some state) ∧
      Recordable args now.current ∧
      state = .fresh now.current.startTime now.current.tgid) ∨
    (networkWakeupCurrent args now states = (states, none) ∧
      (Recordable args now.current →
        ∀ state, states now.current.tid = some state → ¬state.Of now.current)) := by
  -- where the record is of another task, or there is none, a fresh one is stored if it can be
  have hbegin (hrecordable : Recordable args now.current)
      (heq : networkWakeupCurrent args now states = networkWakeupBegin now states)
      (hother : ∀ state, states now.current.tid = some state → ¬state.Of now.current) :
      (∃ state, networkWakeupCurrent args now states =
          (states.put now.current.tid state, some state) ∧
        Recordable args now.current ∧
        state = .fresh now.current.startTime now.current.tgid) ∨
      (networkWakeupCurrent args now states = (states, none) ∧
        (Recordable args now.current →
          ∀ state, states now.current.tid = some state → ¬state.Of now.current)) := by
    rw [heq]
    by_cases hstored : now.stored = true
    case pos => exact .inl ⟨_, if_pos hstored, hrecordable, rfl⟩
    case neg => exact .inr ⟨if_neg hstored, fun _ => hother⟩
  by_cases hrecordable : Recordable args now.current
  case neg =>
    refine .inr (.inr ⟨?_, fun h => absurd h hrecordable⟩)
    unfold networkWakeupCurrent
    dsimp only
    split
    case isTrue => rfl
    case isFalse hmatch =>
      refine if_pos (Classical.byContradiction fun hnonzero => hrecordable ⟨?_, not_or.mp hnonzero⟩)
      simpa using hmatch
  case pos =>
    have hmatch : ¬(!perfettoCurrentMatches args now.current.tid now.current.uid) = true := by
      simp [hrecordable.1]
    have hzero : ¬(now.current.tid = 0 ∨ now.current.startTime = 0) := not_or.mpr hrecordable.2
    by_cases hfound : ∃ state, states now.current.tid = some state ∧ state.Of now.current
    case pos =>
      obtain ⟨state, hstate, hof⟩ := hfound
      refine .inl ⟨state, ?_, hstate, hrecordable, hof⟩
      unfold networkWakeupCurrent
      dsimp only
      rw [if_neg hmatch, if_neg hzero, hstate]
      exact if_neg (not_or.mpr ⟨not_not.mpr hof.1, not_not.mpr hof.2⟩)
    case neg =>
      refine .inr (hbegin hrecordable ?_ fun state hstate hof => hfound ⟨state, hstate, hof⟩)
      unfold networkWakeupCurrent
      dsimp only
      rw [if_neg hmatch, if_neg hzero]
      split
      case h_1 => rfl
      case h_2 state hstate =>
        exact if_pos (Classical.not_and_iff_not_or_not.mp fun hof => hfound ⟨state, hstate, hof⟩)

/-- Only finding the current task's record changes the map in a snapshot. -/
theorem networkWakeupSnapshot_states (args : BpfArgs) (now : SchedNow) (startTs : UInt64)
    (states : NetworkWakeups) :
    (networkWakeupSnapshot args now startTs states).1 =
      if args.watchesWakeups then (networkWakeupCurrent args now states).1 else states := by
  unfold networkWakeupSnapshot
  cases args.watchesWakeups with
  | false => rfl
  | true =>
      simp only [Bool.not_true, Bool.false_eq_true, if_false, if_true]
      split
      case h_1 hcurrent => rw [hcurrent]
      case h_2 hcurrent =>
        rw [hcurrent]
        split
        case isTrue => rfl
        case isFalse => split <;> rfl

end Handlers

/-! ## Chains -/

def SchedStep.Disturbs (task : TaskId) : SchedStep → Prop
  | .waking _ target => target.tid = task.tid
  | .switch now _ => now.current.id = task
  | .wakeup .. | .sysEnter _ | .evict _ => False

/-- What the times in a record of a task stand for: the steps since the record was begun, by thread
id. A time that is not there is zero. -/
inductive Evidence (task : TaskId) : List SchedStep → UInt64 → UInt64 → UInt64 → Prop
  | waked {since : List SchedStep} (now : SchedNow) (target : Task) (htid : target.tid = task.tid) :
      Evidence task (since ++ [.waking now target]) now.ts 0 0
  | woken {since : List SchedStep} {waking wakeup : UInt64}
      (h : Evidence task since waking wakeup 0)
      (now : SchedNow) (target : Task) (htid : target.tid = task.tid) :
      Evidence task (since ++ [.wakeup now target]) waking now.ts 0
  | ran {since : List SchedStep} {waking wakeup run : UInt64}
      (h : Evidence task since waking wakeup run) (now : SchedNow) (next : Task)
      (htid : next.tid = task.tid) (hstays : now.current.id ≠ task) :
      Evidence task (since ++ [.switch now next]) waking wakeup now.ts
  | quiet {since : List SchedStep} {waking wakeup run : UInt64}
      (h : Evidence task since waking wakeup run) (step : SchedStep)
        (hquiet : ¬step.Disturbs task) :
      Evidence task (since ++ [step]) waking wakeup run

/-- The switching in at a time, in a list of steps; none where the time is zero. -/
def RanIn (task : TaskId) (steps : List SchedStep) (run : UInt64) : Prop :=
  run ≠ 0 → ∃ woken running now next, steps = woken ++ .switch now next :: running ∧
    next.tid = task.tid ∧ now.ts = run

def WokenIn (task : TaskId) (steps : List SchedStep) (wakeup run : UInt64) : Prop :=
  wakeup ≠ 0 → ∃ waked rest now woke, steps = waked ++ .wakeup now woke :: rest ∧
    woke.tid = task.tid ∧ now.ts = wakeup ∧ RanIn task rest run

variable {task : TaskId} {steps : List SchedStep} {wakingTs wakeupTs runStartTs : UInt64}

theorem RanIn.concat (h : RanIn task steps runStartTs) (step : SchedStep) :
    RanIn task (steps ++ [step]) runStartTs := by
  intro hrun
  obtain ⟨woken, running, now, next, rfl, htid, hts⟩ := h hrun
  exact ⟨woken, running ++ [step], now, next, by simp, htid, hts⟩

theorem WokenIn.concat (h : WokenIn task steps wakeupTs runStartTs) (step : SchedStep) :
    WokenIn task (steps ++ [step]) wakeupTs runStartTs := by
  intro hwakeup
  obtain ⟨waked, rest, now, woke, rfl, htid, hts, hran⟩ := h hwakeup
  exact ⟨waked, rest ++ [step], now, woke, by simp, htid, hts, hran.concat step⟩

/-- The steps behind the times of a record, in their places. The induction is on the evidence, and
the last step is the newest of a chain or leaves the places as they are. -/
theorem Evidence.places (h : Evidence task steps wakingTs wakeupTs runStartTs) :
    ∃ before rest now target, steps = before ++ .waking now target :: rest ∧
      target.tid = task.tid ∧ now.ts = wakingTs ∧ (∀ step ∈ rest, ¬step.Disturbs task) ∧
      WokenIn task rest wakeupTs runStartTs := by
  induction h with
  | @waked since now target htid =>
      exact ⟨since, [], now, target, rfl, htid, rfl, by simp, fun hwakeup => absurd rfl hwakeup⟩
  | @woken since waking wakeup _ now target htid ih =>
      obtain ⟨before, rest, first, woke, rfl, hfirst, hts, hquiet, -⟩ := ih
      refine ⟨before, rest ++ [.wakeup now target], first, woke, by simp, hfirst, hts, ?_, ?_⟩
      · rintro step hstep hdisturbs
        rcases List.mem_append.mp hstep with hold | hnew
        · exact hquiet step hold hdisturbs
        · rw [List.mem_singleton.mp hnew] at hdisturbs
          exact hdisturbs
      · exact fun _ => ⟨rest, [], now, target, rfl, htid, rfl, fun hrun => absurd rfl hrun⟩
  | @ran since waking wakeup run _ now next htid hstays ih =>
      obtain ⟨before, rest, first, woke, rfl, hfirst, hts, hquiet, hwoken⟩ := ih
      refine ⟨before, rest ++ [.switch now next], first, woke, by simp, hfirst, hts, ?_, ?_⟩
      · rintro step hstep hdisturbs
        rcases List.mem_append.mp hstep with hold | hnew
        · exact hquiet step hold hdisturbs
        · rw [List.mem_singleton.mp hnew] at hdisturbs
          exact hstays hdisturbs
      · -- the newest switching in replaces an older one
        intro hwakeup
        obtain ⟨waked, later, second, other, rfl, hsecond, hsts, -⟩ := hwoken hwakeup
        exact ⟨waked, later ++ [.switch now next], second, other, by simp, hsecond, hsts,
          fun _ => ⟨later, [], now, next, rfl, htid, rfl⟩⟩
  | @quiet since waking wakeup run _ step hstep ih =>
      obtain ⟨before, rest, first, woke, rfl, hfirst, hts, hquiet, hwoken⟩ := ih
      refine ⟨before, rest ++ [step], first, woke, by simp, hfirst, hts, ?_, hwoken.concat step⟩
      rintro other hother
      rcases List.mem_append.mp hother with hold | hnew
      · exact hquiet other hold
      · rw [List.mem_singleton.mp hnew]
        exact hstep

/-! ## Records -/

/-- A record of a thread id is of a task that was seen, and its times have their evidence in the
steps since then. -/
def Tracked (args : BpfArgs) (history : List SchedStep) (tid : UInt32)
    (state : NetworkWakeupState) : Prop :=
  ∃ before since, history = before ++ since ∧
    (∃ creator ∈ mentioned before, creator.tid = tid ∧ state.Of creator ∧
      Recordable args creator) ∧
    (state.wakingTs ≠ 0 →
      Evidence ⟨tid, state.taskStartTime⟩ since state.wakingTs state.wakeupTs state.runStartTs)

variable {args : BpfArgs} {history : List SchedStep} {tid : UInt32} {state : NetworkWakeupState}

theorem Tracked.quiet (h : Tracked args history tid state) {step : SchedStep}
    (hquiet : ¬step.Disturbs ⟨tid, state.taskStartTime⟩) :
    Tracked args (history ++ [step]) tid state := by
  obtain ⟨before, since, rfl, hcreator, hevidence⟩ := h
  exact ⟨before, since ++ [step], by
    simp, hcreator, fun hwaking => (hevidence hwaking).quiet step hquiet⟩

theorem Tracked.cleared {creator : Task} (hcreator : creator ∈ mentioned history)
    (htid : creator.tid = tid) (hof : state.Of creator) (hrecordable : Recordable args creator)
    (hclear : state.wakingTs = 0) : Tracked args history tid state :=
  ⟨history, [], (List.append_nil _).symm, ⟨creator, hcreator, htid, hof, hrecordable⟩,
    fun hwaking => absurd hclear hwaking⟩

theorem mem_mentioned_concat {step : SchedStep} {task : Task} (h : task ∈ step.tasks) :
    task ∈ mentioned (history ++ [step]) := by
  unfold mentioned
  rw [List.flatMap_append]
  exact List.mem_append_right _ (by simpa using h)

/-- Every record of a map is one of a task that was seen. -/
def AllTracked (args : BpfArgs) (history : List SchedStep) (states : NetworkWakeups) : Prop :=
  ∀ tid state, states tid = some state → Tracked args history tid state

variable {now : SchedNow} {states : NetworkWakeups}

/-- An entry that a map has after a change is tracked if the one that was put is, and the others
outlast the step. -/
theorem AllTracked.put (h : AllTracked args history states) {step : SchedStep} {place : UInt32}
    {new : NetworkWakeupState} (hnew : Tracked args (history ++ [step]) place new)
    (hquiet : ∀ tid state, tid ≠ place → states tid = some state →
      ¬step.Disturbs ⟨tid, state.taskStartTime⟩) :
    AllTracked args (history ++ [step]) (states.put place new) := by
  intro tid state hstate
  obtain ⟨rfl, rfl⟩ | ⟨hne, hold⟩ := Keyed.put_cases hstate
  · exact hnew
  · exact (h tid state hold).quiet (hquiet tid state hne hold)

theorem AllTracked.quiet (h : AllTracked args history states) {step : SchedStep}
    (hquiet : ∀ tid state, states tid = some state →
      ¬step.Disturbs ⟨tid, state.taskStartTime⟩) :
    AllTracked args (history ++ [step]) states :=
  fun tid state hstate => (h tid state hstate).quiet (hquiet tid state hstate)

/-- A waking begins a chain. -/
theorem AllTracked.waking (h : AllTracked args history states)
    (hwatches : args.watchesWakeups = true) (target : Task) :
    AllTracked args (history ++ [.waking now target])
      (networkSchedWaking args now target.tid states) := by
  unfold networkSchedWaking
  rw [if_neg (by simp [hwatches])]
  cases hold : states target.tid with
  | none =>
      refine h.quiet fun tid state hstate hsame => ?_
      rw [show target.tid = tid from hsame, hstate] at hold
      cases hold
  | some old =>
      refine h.put ?_ fun tid state hne _ hsame => hne hsame.symm
      obtain ⟨before, since, rfl, hcreator, -⟩ := h target.tid old hold
      obtain ⟨hbirth, htgid, hwaking, hwakeup, hrun⟩ := wokenBy_chain
        { networkWakeupClear old with wakingTs := now.ts, wakingCpu := now.cpu } now
      refine ⟨before, since ++ [.waking now target], by simp, ?_, fun _ => ?_⟩
      · unfold NetworkWakeupState.Of
        rw [hbirth, htgid]
        exact hcreator
      · rw [hwaking, hwakeup, hrun]
        exact .waked now target rfl

/-- A wakeup goes on with a chain that has not run yet. -/
theorem AllTracked.wakeup (h : AllTracked args history states)
    (hwatches : args.watchesWakeups = true) (target : Task) :
    AllTracked args (history ++ [.wakeup now target])
      (networkSchedWakeup args now target.tid states) := by
  unfold networkSchedWakeup
  rw [if_neg (by simp [hwatches])]
  cases hold : states target.tid with
  | none => exact h.quiet fun _ _ _ hdisturbs => hdisturbs
  | some old =>
      dsimp only
      split
      case isFalse => exact h.quiet fun _ _ _ hdisturbs => hdisturbs
      case isTrue hwaked =>
        refine h.put ?_ fun _ _ _ _ hdisturbs => hdisturbs
        obtain ⟨before, since, rfl, hcreator, hevidence⟩ := h target.tid old hold
        refine ⟨before, since ++ [.wakeup now target], by simp, hcreator, fun hwaking => ?_⟩
        have hwoken := hevidence hwaking
        rw [hwaked.2] at hwoken
        show Evidence _ _ old.wakingTs now.ts old.runStartTs
        rw [hwaked.2]
        exact hwoken.woken now target rfl

/-- A call leaves the record of its task as it is or begins it afresh. -/
theorem AllTracked.sysEnter (h : AllTracked args history states) :
    AllTracked args (history ++ [.sysEnter now]) (networkSysEnter args now states).1 := by
  have hkeep : AllTracked args (history ++ [.sysEnter now]) states :=
    h.quiet fun _ _ _ hdisturbs => hdisturbs
  have hcurrent : AllTracked args (history ++ [.sysEnter now])
      (networkWakeupCurrent args now states).1 := by
    obtain ⟨state, heq, -⟩ | ⟨state, heq, hrecordable, rfl⟩ | ⟨heq, -⟩ :=
      networkWakeupCurrent_cases args now states
    · rw [heq]
      exact hkeep
    · rw [heq]
      refine h.put ?_ fun _ _ _ _ hdisturbs => hdisturbs
      exact Tracked.cleared (mem_mentioned_concat (List.mem_singleton_self now.current)) rfl
        ⟨rfl, rfl⟩ hrecordable rfl
    · rw [heq]
      exact hkeep
  unfold networkSysEnter
  split
  case isTrue => exact hkeep
  case isFalse =>
    show AllTracked args _ (networkWakeupSnapshot args now now.ts states).1
    rw [networkWakeupSnapshot_states]
    split
    case isTrue => exact hcurrent
    case isFalse => exact hkeep

/-- A dropped entry leaves the others. -/
theorem AllTracked.evict (h : AllTracked args history states) (tid : UInt32) :
    AllTracked args (history ++ [.evict tid]) (states.remove tid) := by
  intro other state hstate
  exact (h other state (Keyed.remove_cases hstate).2).quiet fun hdisturbs => hdisturbs

theorem networkWakeupLeave_cases (h : AllTracked args history states)
    {next : Task} (hconstant : TasksConstant (history ++ [.switch now next]))
    (hstate : networkWakeupLeave args now states tid = some state) :
    (states tid = some state ∧ now.current.id ≠ ⟨tid, state.taskStartTime⟩) ∨
      (state.wakingTs = 0 ∧ now.current.tid = tid ∧ state.Of now.current ∧
        Recordable args now.current) := by
  unfold networkWakeupLeave at hstate
  obtain ⟨found, heq, -, hrecordable, hof⟩ | ⟨found, heq, hrecordable, rfl⟩ | ⟨heq, hnone⟩ :=
    networkWakeupCurrent_cases args now states
  · -- the record is cleared
    rw [heq] at hstate
    obtain ⟨rfl, rfl⟩ | ⟨hne, hold⟩ := Keyed.put_cases hstate
    · exact .inr ⟨rfl, rfl, hof, hrecordable⟩
    · exact .inl ⟨hold, fun hsame => hne (congrArg TaskId.tid hsame).symm⟩
  · rw [heq] at hstate
    obtain ⟨rfl, rfl⟩ | ⟨hne, hold⟩ := Keyed.put_cases hstate
    · exact .inr ⟨rfl, rfl, ⟨rfl, rfl⟩, hrecordable⟩
    · have hold := (states.put_other hne _).symm.trans hold
      exact .inl ⟨hold, fun hsame => hne (congrArg TaskId.tid hsame).symm⟩
  · -- a task that has a record is one that `network_wakeup_current` finds
    rw [heq] at hstate
    refine .inl ⟨hstate, fun hsame => ?_⟩
    obtain ⟨before, since, rfl, ⟨creator, hcreator, htid, hof, hrecordable⟩, -⟩ :=
      h tid state hstate
    have hid : creator.id = now.current.id := by
      rw [hsame, hof.1, ← htid]
      rfl
    obtain ⟨huid, htgid⟩ := hconstant creator
      (by unfold mentioned at hcreator ⊢; simp [hcreator]) now.current
      (mem_mentioned_concat List.mem_cons_self) hid
    have htids : creator.tid = now.current.tid := congrArg TaskId.tid hid
    have hstarts : creator.startTime = now.current.startTime := congrArg TaskId.startTime hid
    refine hnone ?_ state (htids ▸ htid ▸ hstate) ⟨hof.1.trans hstarts, hof.2.trans htgid⟩
    unfold Recordable at hrecordable ⊢
    rw [← huid, ← htids, ← hstarts]
    exact hrecordable

theorem AllTracked.switch (h : AllTracked args history states)
    (hwatches : args.watchesWakeups = true) (next : Task)
    (hconstant : TasksConstant (history ++ [.switch now next])) :
    AllTracked args (history ++ [.switch now next])
      (networkSchedSwitch args now now.current.tid next.tid states) := by
  have hmentioned : now.current ∈ mentioned (history ++ [.switch now next]) :=
    mem_mentioned_concat List.mem_cons_self
  have hleft : AllTracked args (history ++ [.switch now next])
      (networkWakeupLeave args now states) := by
    intro tid state hstate
    obtain ⟨hold, hother⟩ | ⟨hclear, htid, hof, hrecordable⟩ :=
      networkWakeupLeave_cases h hconstant hstate
    · exact (h tid state hold).quiet hother
    · exact .cleared hmentioned htid hof hrecordable hclear
  unfold networkSchedSwitch
  rw [if_neg (by simp [hwatches]), if_pos rfl]
  cases hrun : networkWakeupLeave args now states next.tid with
  | none =>
      dsimp only
      rw [hrun]
      exact hleft
  | some state =>
      dsimp only
      rw [hrun]
      intro other found hfound
      obtain ⟨rfl, rfl⟩ | ⟨hne, hold⟩ := Keyed.put_cases hfound
      case inr => exact hleft other found hold
      obtain ⟨hold, hother⟩ | ⟨hclear, htid, hof, hrecordable⟩ :=
        networkWakeupLeave_cases h hconstant hrun
      · obtain ⟨before, since, rfl, hcreator, hevidence⟩ := h next.tid state hold
        exact ⟨before, since ++ [.switch now next], by simp, hcreator, fun hwaking =>
          (hevidence hwaking).ran now next rfl hother⟩
      · exact .cleared hmentioned htid hof hrecordable hclear

/-! ## Runs -/

theorem TasksConstant.before {steps later : List SchedStep} (h : TasksConstant (steps ++ later)) :
    TasksConstant steps := by
  have hmem {task : Task} (htask : task ∈ mentioned steps) : task ∈ mentioned (steps ++ later) := by
    unfold mentioned at htask ⊢
    rw [List.flatMap_append]
    exact List.mem_append_left _ htask
  exact fun first hfirst second hsecond => h first (hmem hfirst) second (hmem hsecond)

end Anettrace.Probes
