import Mathlib.Data.List.Nodup
import Mathlib.Logic.Function.Basic
import Anettrace.Selection.Ready

/-!
# Attached programs

`trace_pre_load` of `src/trace.c` and `probe_trace_attach` of `src/trace_probe.c`. Some programs are
attached by hand, the others by the skeleton; if the skeleton fails, its links are dropped and the
rest is attached by hand too. What libbpf does is a parameter. Names of kernel functions and
messages are left out.
-/

namespace Anettrace.Selection

/-- A program of the object: `__trace_x`, or `ret__trace_x`. -/
structure Program where
  define : String
  ret : Bool
  deriving DecidableEq, Repr

def Trace.program (trace : Trace) (ret : Bool) : Program :=
  ⟨trace.define, ret⟩

def switchOff (flags : Program → Bool) (program : Program) : Program → Bool :=
  Function.update flags program false

/-- The end of the body of the loop of `trace_pre_load`. -/
def preLoadRet (flags : Program → Bool) (trace : Trace) : Program → Bool :=
  if !trace.isFunc || (trace.ret && trace.isUsable) then flags
  else switchOff flags (trace.program true)

/-- The body of the loop of `trace_pre_load`. -/
def preLoadTrace (programs : List Program) (flags : Program → Bool) (trace : Trace) :
    Program → Bool :=
  if trace.isUsable && !trace.retOnly then preLoadRet flags trace
  else if trace.program false ∈ programs then
    preLoadRet (switchOff flags (trace.program false)) trace
  else flags

def tracePreLoad (programs : List Program) (traces : List Trace) : Program → Bool :=
  traces.foldl (preLoadTrace programs) fun _ => true

/-- The ways to attach a program by hand. -/
inductive AttachKind where
  | perf | legacy | tracepoint
  deriving DecidableEq, Repr

/-- What libbpf and the kernel do. -/
structure Libbpf where
  /-- The programs of the object, in their order. -/
  programs : List Program
  /-- `kprobe_type` exists. -/
  perf : Bool
  /-- An attempt to attach a program by hand succeeds. -/
  attach : AttachKind → Nat → Program → Bool
  /-- `kprobe__attach`: of the programs that it is to attach, those that it attaches, and whether it
  fails. -/
  attachSkeleton : List Program → List Program × Bool

/-- What is known of libbpf: a program that is not loaded is not attached, and the skeleton attaches
all that it is to attach, or fails. -/
structure Libbpf.Lawful (libbpf : Libbpf) (loaded : Program → Bool) : Prop where
  attach : ∀ kind attempt program, libbpf.attach kind attempt program = true → loaded program = true
  complete : ∀ programs, (libbpf.attachSkeleton programs).2 = false →
    (libbpf.attachSkeleton programs).1 = programs

/-- The links of the process, and the programs that the skeleton is to attach. -/
structure Attached where
  autoattach : Program → Bool := fun _ => true
  manual : List Program := []
  skeleton : List Program := []
  attempts : Nat := 0

def Attached.links (state : Attached) : List Program :=
  state.manual ++ state.skeleton

/-- The two names that `sscanf` finds in a tracepoint. -/
def parseTracepoint (tp : List UInt8) : Option (List UInt8 × List UInt8) :=
  let category := tp.takeWhile (· ≠ 0x2f)
  match tp.dropWhile (· ≠ 0x2f) with
  | [] => none
  | _ :: rest =>
      let event := ((rest.dropWhile isSpace).takeWhile fun byte => !isSpace byte).take 63
      if category = [] || 63 < category.length || event = [] then none else some (category, event)

/-- An attempt of `probe_trace_attach_manual`, with the second one for a function. -/
def Libbpf.attempt (libbpf : Libbpf) (trace : Trace) (program : Program) (attempts : Nat) : Bool :=
  if !trace.isFunc then
    (parseTracepoint trace.tp).isSome && libbpf.attach .tracepoint attempts program
  else (libbpf.perf && libbpf.attach .perf attempts program) ||
    libbpf.attach .legacy attempts program

def probeTraceAttachManual (libbpf : Libbpf) (trace : Trace) (program : Program)
    (state : Attached) :
    Attached × Bool :=
  if program ∉ libbpf.programs then (state, false)
  else
    let tried := { state with
      autoattach := switchOff state.autoattach program
      attempts := state.attempts + 1 }
    if libbpf.attempt trace program state.attempts then
      ({ tried with manual := tried.manual ++ [program] }, true)
    else (tried, false)

def probeWakeupRequired (ctx : Context) (trace : Trace) : Bool :=
  ctx.bpf.wakeupChain && trace.define ∈ schedTraces ++ syscallTraces

/-- A diagnosis of connections needs the trace. -/
def connectRequires (ctx : Context) (trace : Trace) : Bool :=
  ctx.args.connectDiagnostics && trace.connectRequired

/-- The body of the loop of `probe_trace_attach`. -/
def attachTrace (libbpf : Libbpf) (ctx : Context) (autoAttach : Bool) (state : Attached)
    (trace : Trace) :
    Option Attached :=
  if !trace.isUsable || trace.attachManual = autoAttach then some state
  else
    let entry := probeTraceAttachManual libbpf trace (trace.program false) state
    if !entry.2 && (connectRequires ctx trace || probeWakeupRequired ctx trace) then none
    else if !trace.ret then some entry.1
    else
      let ret := probeTraceAttachManual libbpf trace (trace.program true) entry.1
      if !ret.2 && connectRequires ctx trace then none else some ret.1

/-- What the skeleton is to attach. -/
def Libbpf.eligible (libbpf : Libbpf) (traces : List Trace) (state : Attached) : List Program :=
  libbpf.programs.filter fun program =>
    tracePreLoad libbpf.programs traces program && state.autoattach program

def probeTraceAttach (libbpf : Libbpf) (ctx : Context) : Option Attached := do
  let manual ← ctx.traces.foldlM (attachTrace libbpf ctx false) {}
  let skeleton := libbpf.attachSkeleton (libbpf.eligible ctx.traces manual)
  if skeleton.2 then
    -- what the skeleton did attach is detached
    ctx.traces.foldlM (attachTrace libbpf ctx true) { manual with skeleton := [] }
  else some { manual with skeleton := skeleton.1 }

/-! ## What is loaded -/

@[simp] theorem switchOff_apply (flags : Program → Bool) (program other : Program) :
    switchOff flags program other = (flags other && decide (other ≠ program)) := by
  unfold switchOff
  by_cases hsame : other = program
  · subst hsame
    simp
  · simp [hsame]

/-- What a program asks of its trace. -/
def Trace.runs (trace : Trace) (ret : Bool) : Bool :=
  trace.isUsable && if ret then trace.ret else !trace.retOnly

/-- A program stays on before the load unless it is one of the trace and the trace does not run
it. -/
theorem preLoadTrace_apply {programs : List Program} {program : Program} (flags : Program → Bool)
    (trace : Trace) (hentry : ⟨program.define, false⟩ ∈ programs) :
    preLoadTrace programs flags trace program =
      (flags program && (program.define ≠ trace.define || (program.ret && !trace.isFunc) ||
        trace.runs program.ret)) := by
  obtain ⟨define, ret⟩ := program
  unfold preLoadTrace preLoadRet Trace.runs
  by_cases hdefine : define = trace.define
  · have hthere : trace.program false ∈ programs := by
      unfold Trace.program
      rw [← hdefine]
      exact hentry
    rw [if_pos hthere]
    cases ret <;> cases trace.isUsable <;> cases trace.isFunc <;> cases trace.ret <;>
      cases trace.retOnly <;> simp [Trace.program, hdefine]
  · have hother (ret other : Bool) : (⟨define, ret⟩ : Program) ≠ trace.program other :=
      fun h => hdefine (congrArg Program.define h)
    split
    · split <;> simp [hother, hdefine]
    · split
      · split <;> simp [hother, hdefine]
      · simp [hdefine]

/-- A program is loaded exactly if each of its traces runs it. -/
theorem tracePreLoad_iff {programs : List Program} (traces : List Trace) {program : Program}
    (hentry : ⟨program.define, false⟩ ∈ programs) :
    tracePreLoad programs traces program = true ↔
      ∀ trace ∈ traces, trace.define = program.define → (program.ret = true → trace.isFunc = true) →
        trace.runs program.ret = true := by
  have hfold (flags : Program → Bool) : traces.foldl (preLoadTrace programs) flags program = true ↔
      flags program = true ∧ ∀ trace ∈ traces, trace.define = program.define →
        (program.ret = true → trace.isFunc = true) → trace.runs program.ret = true := by
    induction traces generalizing flags with
    | nil => simp
    | cons trace rest ih =>
        rw [List.foldl_cons, ih, preLoadTrace_apply flags trace hentry, List.forall_mem_cons,
          Bool.and_eq_true, and_assoc]
        refine and_congr_right fun _ => and_congr_left fun _ => ?_
        by_cases hdefine : program.define = trace.define
        · cases hret : program.ret <;> cases hfunc : trace.isFunc <;> simp [hdefine]
        · simp [hdefine, Ne.symm hdefine]
  unfold tracePreLoad
  rw [hfold]
  exact and_iff_right rfl

/-! ## A pass over the traces -/

def Trace.attachedIn (autoAttach : Bool) (trace : Trace) : Bool :=
  trace.isUsable && (trace.attachManual != autoAttach)

def Trace.owns (libbpf : Libbpf) (loaded : Program → Bool) (trace : Trace) (program : Program) :
    Prop :=
  trace.define = program.define ∧ program ∈ libbpf.programs ∧ loaded program = true ∧
    (program.ret = true → trace.ret = true)

/-- What a pass over some traces does. -/
structure Attached.Pass (libbpf : Libbpf) (loaded : Program → Bool) (ctx : Context)
    (autoAttach : Bool)
    (traces : List Trace) (old new : Attached) (added : List Program) : Prop where
  manual : new.manual = old.manual ++ added
  nodup : (traces.map Trace.define).Nodup → added.Nodup
  owned : ∀ program ∈ added, ∃ trace ∈ traces, trace.attachedIn autoAttach = true ∧
    trace.owns libbpf loaded program
  skeleton : new.skeleton = old.skeleton
  off : ∀ program ∈ added, new.autoattach program = false
  stays : ∀ program, old.autoattach program = false → new.autoattach program = false
  kept : ∀ program, (∀ trace ∈ traces, trace.attachedIn autoAttach = true →
    trace.define ≠ program.define) →
    new.autoattach program = old.autoattach program
  connects : ∀ trace ∈ traces, trace.attachedIn autoAttach = true →
    connectRequires ctx trace = true →
    trace.program false ∈ added ∧ (trace.ret = true → trace.program true ∈ added)
  wakes : ∀ trace ∈ traces, trace.attachedIn autoAttach = true →
    probeWakeupRequired ctx trace = true →
    trace.program false ∈ added

namespace Attached.Pass

variable {libbpf : Libbpf} {loaded : Program → Bool} {ctx : Context} {autoAttach : Bool}
  {first second : List Trace} {old middle new : Attached} {added more : List Program}

/-- Going over no trace changes nothing. -/
theorem nil (state : Attached) : Pass libbpf loaded ctx autoAttach [] state state [] where
  manual := (List.append_nil _).symm
  nodup := fun _ => List.nodup_nil
  owned := by simp
  skeleton := rfl
  off := by simp
  stays := fun _ => id
  kept := fun _ _ => rfl
  connects := by simp
  wakes := by simp

/-- Two lists of traces are gone over one after the other. -/
theorem append (hfirst : Pass libbpf loaded ctx autoAttach first old middle added)
    (hsecond : Pass libbpf loaded ctx autoAttach second middle new more) :
    Pass libbpf loaded ctx autoAttach (first ++ second) old new (added ++ more) where
  manual := by rw [hsecond.manual, hfirst.manual, List.append_assoc]
  nodup := by
    intro hnodup
    rw [List.map_append] at hnodup
    obtain ⟨hone, hother, hapart⟩ := List.nodup_append.mp hnodup
    refine List.nodup_append.mpr ⟨hfirst.nodup hone, hsecond.nodup hother, ?_⟩
    rintro program hadded _ hmore rfl
    obtain ⟨trace, htrace, -, hdefine, -⟩ := hfirst.owned program hadded
    obtain ⟨other, hmem, -, hsame, -⟩ := hsecond.owned program hmore
    exact hapart _ (List.mem_map_of_mem htrace) _ (List.mem_map_of_mem hmem)
      (hdefine.trans hsame.symm)
  owned := by
    intro program hmem
    obtain hmem | hmem := List.mem_append.mp hmem
    · obtain ⟨trace, htrace, howns⟩ := hfirst.owned program hmem
      exact ⟨trace, List.mem_append_left _ htrace, howns⟩
    · obtain ⟨trace, htrace, howns⟩ := hsecond.owned program hmem
      exact ⟨trace, List.mem_append_right _ htrace, howns⟩
  skeleton := hsecond.skeleton.trans hfirst.skeleton
  off := by
    intro program hmem
    obtain hmem | hmem := List.mem_append.mp hmem
    · exact hsecond.stays program (hfirst.off program hmem)
    · exact hsecond.off program hmem
  stays := fun program hoff => hsecond.stays program (hfirst.stays program hoff)
  kept := by
    intro program hnone
    rw [hsecond.kept program fun trace htrace => hnone trace (List.mem_append_right _ htrace)]
    exact hfirst.kept program fun trace htrace => hnone trace (List.mem_append_left _ htrace)
  connects := by
    intro trace htrace hattached hrequired
    obtain htrace | htrace := List.mem_append.mp htrace
    · obtain ⟨hentry, hret⟩ := hfirst.connects trace htrace hattached hrequired
      exact ⟨List.mem_append_left _ hentry, fun h => List.mem_append_left _ (hret h)⟩
    · obtain ⟨hentry, hret⟩ := hsecond.connects trace htrace hattached hrequired
      exact ⟨List.mem_append_right _ hentry, fun h => List.mem_append_right _ (hret h)⟩
  wakes := by
    intro trace htrace hattached hrequired
    obtain htrace | htrace := List.mem_append.mp htrace
    · exact List.mem_append_left _ (hfirst.wakes trace htrace hattached hrequired)
    · exact List.mem_append_right _ (hsecond.wakes trace htrace hattached hrequired)

end Attached.Pass

/-- What attempts to attach some programs do. -/
structure Attached.Tried (libbpf : Libbpf) (loaded : Program → Bool) (tried : List Program)
    (old new : Attached) (added : List Program) : Prop where
  manual : new.manual = old.manual ++ added
  sublist : added.Sublist tried
  there : ∀ program ∈ added, program ∈ libbpf.programs ∧ loaded program = true
  skeleton : new.skeleton = old.skeleton
  off : ∀ program ∈ added, new.autoattach program = false
  stays : ∀ program, old.autoattach program = false → new.autoattach program = false
  kept : ∀ program ∉ tried, new.autoattach program = old.autoattach program

namespace Attached.Tried

variable {libbpf : Libbpf} {loaded : Program → Bool} {first second tried : List Program}
  {old middle new : Attached} {added more : List Program}

/-- Two lists of programs are tried one after the other. -/
theorem append (hfirst : Tried libbpf loaded first old middle added)
    (hsecond : Tried libbpf loaded second middle new more) :
    Tried libbpf loaded (first ++ second) old new (added ++ more) where
  manual := by rw [hsecond.manual, hfirst.manual, List.append_assoc]
  sublist := hfirst.sublist.append hsecond.sublist
  there := List.forall_mem_append.mpr ⟨hfirst.there, hsecond.there⟩
  skeleton := hsecond.skeleton.trans hfirst.skeleton
  off := List.forall_mem_append.mpr
    ⟨fun program hmem => hsecond.stays program (hfirst.off program hmem), hsecond.off⟩
  stays := fun program hoff => hsecond.stays program (hfirst.stays program hoff)
  kept := fun program hnone =>
    (hsecond.kept program fun h => hnone (List.mem_append_right _ h)).trans
      (hfirst.kept program fun h => hnone (List.mem_append_left _ h))

/-- Attempts to attach programs of one trace. -/
theorem pass {ctx : Context} {autoAttach : Bool} {trace : Trace}
    (h : Tried libbpf loaded tried old new added) (hin : trace.attachedIn autoAttach = true)
    (hnodup : tried.Nodup) (htried : ∀ program ∈ tried, trace.define = program.define ∧
      (program.ret = true → trace.ret = true)) (hconnects : connectRequires ctx trace = true →
      trace.program false ∈ added ∧ (trace.ret = true → trace.program true ∈ added))
    (hwakes : probeWakeupRequired ctx trace = true → trace.program false ∈ added) :
    old.Pass libbpf loaded ctx autoAttach [trace] new added where
  manual := h.manual
  nodup := fun _ => hnodup.sublist h.sublist
  owned := by
    intro program hmem
    obtain ⟨hthere, hloaded⟩ := h.there program hmem
    obtain ⟨hdefine, hret⟩ := htried program (h.sublist.subset hmem)
    exact ⟨trace, List.mem_singleton_self trace, hin, hdefine, hthere, hloaded, hret⟩
  skeleton := h.skeleton
  off := h.off
  stays := h.stays
  kept := fun program hnone => h.kept program fun hmem =>
    hnone trace (List.mem_singleton_self trace) hin (htried program hmem).1
  connects := List.forall_mem_singleton.mpr fun _ => hconnects
  wakes := List.forall_mem_singleton.mpr fun _ => hwakes

end Attached.Tried

/-- What an attempt to attach a program does. -/
theorem probeTraceAttachManual_tried {libbpf : Libbpf} {loaded : Program → Bool}
    (hlawful : libbpf.Lawful loaded) (trace : Trace) (program : Program) (old : Attached) :
    let result := probeTraceAttachManual libbpf trace program old
    old.Tried libbpf loaded [program] result.1 (if result.2 then [program] else []) := by
  dsimp only
  unfold probeTraceAttachManual
  split
  case isTrue =>
    exact ⟨(List.append_nil _).symm, List.nil_sublist _, by simp, rfl, by
      simp, fun _ => id, fun _ _ => rfl⟩
  case isFalse hthere =>
    have hstays (other : Program) (hoff : old.autoattach other = false) :
        switchOff old.autoattach program other = false := by simp [hoff]
    have hkept (other : Program) (hother : other ∉ [program]) :
        switchOff old.autoattach program other = old.autoattach other := by
      simp [List.mem_singleton.not.mp hother]
    dsimp only
    split
    case isTrue hattempt =>
      refine ⟨rfl, .refl _, List.forall_mem_singleton.mpr ⟨not_not.mp hthere, ?_⟩, rfl, ?_,
        hstays, hkept⟩
      · unfold Libbpf.attempt at hattempt
        split at hattempt
        · exact hlawful.attach _ _ _ (Bool.and_eq_true _ _ ▸ hattempt).2
        · obtain hperf | hlegacy := Bool.or_eq_true _ _ ▸ hattempt
          · exact hlawful.attach _ _ _ (Bool.and_eq_true _ _ ▸ hperf).2
          · exact hlawful.attach _ _ _ hlegacy
      · exact List.forall_mem_singleton.mpr (by simp)
    case isFalse =>
      exact ⟨(List.append_nil _).symm, List.nil_sublist _, by simp, rfl, by simp, hstays, hkept⟩

section

variable {libbpf : Libbpf} {loaded : Program → Bool} {ctx : Context} {autoAttach : Bool}
  {old new : Attached}

theorem attachTrace_pass {trace : Trace} (hlawful : libbpf.Lawful loaded)
    (h : attachTrace libbpf ctx autoAttach old trace = some new) :
    ∃ added, old.Pass libbpf loaded ctx autoAttach [trace] new added := by
  unfold attachTrace at h
  split at h
  case isTrue hskipped =>
    obtain rfl := Option.some.inj h
    have hnot : trace.attachedIn autoAttach = false := by
      unfold Trace.attachedIn
      obtain hunused | hmanual := Bool.or_eq_true _ _ ▸ hskipped
      · rw [(Bool.not_eq_true' _).mp hunused, Bool.false_and]
      · simp [of_decide_eq_true hmanual]
    refine ⟨[], (List.append_nil _).symm, fun _ =>
      List.nodup_nil, by simp, rfl, by simp, fun _ => id,
      fun _ _ => rfl, ?_, ?_⟩ <;>
    · refine List.forall_mem_singleton.mpr fun hattached => ?_
      exact absurd (hattached.symm.trans hnot) nofun
  case isFalse hattached =>
    have hin : trace.attachedIn autoAttach = true := by
      unfold Trace.attachedIn
      rw [Bool.or_eq_true, not_or, Bool.not_eq_true', Bool.not_eq_false, decide_eq_true_eq]
        at hattached
      simp [hattached.1, hattached.2]
    have hentry := probeTraceAttachManual_tried hlawful trace (trace.program false) old
    dsimp only at h hentry
    generalize probeTraceAttachManual libbpf trace (trace.program false) old = entry at h hentry
    split at h
    case isTrue => cases h
    case isFalse hneeded =>
      have hrequired (hneeds : connectRequires ctx trace = true ∨
          probeWakeupRequired ctx trace = true) :
          entry.2 = true := by
        by_contra hfailed
        exact hneeded (by simp [hfailed, hneeds])
      split at h
      case isTrue hnoret =>
        obtain rfl := Option.some.inj h
        refine ⟨_, hentry.pass hin (List.nodup_singleton _)
          (List.forall_mem_singleton.mpr ⟨rfl, nofun⟩) (fun hconnect => ?_) fun hwake => ?_⟩
        · rw [hrequired (.inl hconnect), if_pos rfl]
          refine ⟨List.mem_singleton_self _, fun hret => ?_⟩
          rw [hret] at hnoret
          cases hnoret
        · rw [hrequired (.inr hwake), if_pos rfl]
          exact List.mem_singleton_self _
      case isFalse hret =>
        rw [Bool.not_eq_true', Bool.not_eq_false] at hret
        have hlast := probeTraceAttachManual_tried hlawful trace (trace.program true) entry.1
        dsimp only at h hlast
        generalize probeTraceAttachManual libbpf trace (trace.program true) entry.1 =
          last at h hlast
        split at h
        case isTrue => cases h
        case isFalse hneededRet =>
          obtain rfl := Option.some.inj h
          refine ⟨_, (hentry.append hlast).pass hin (by simp [Trace.program])
            (by simp [Trace.program, hret])
            (fun hconnect => ?_) fun hwake => ?_⟩
          · have hreturned : last.2 = true := by
              by_contra hfailed
              exact hneededRet (by simp [hfailed, hconnect])
            rw [hrequired (.inl hconnect), hreturned, if_pos rfl, if_pos rfl]
            simp
          · rw [hrequired (.inr hwake), if_pos rfl]
            exact List.mem_append_left _ (List.mem_singleton_self _)

/-- The loop over the traces is a pass, if it ends. -/
theorem attachTraces_pass {traces : List Trace} (hlawful : libbpf.Lawful loaded)
    (h : traces.foldlM (attachTrace libbpf ctx autoAttach) old = some new) :
    ∃ added, old.Pass libbpf loaded ctx autoAttach traces new added := by
  induction traces generalizing old with
  | nil =>
      obtain rfl := Option.some.inj h
      exact ⟨[], .nil old⟩
  | cons trace rest ih =>
      rw [List.foldlM_cons] at h
      obtain ⟨middle, hmiddle, hrest⟩ := Option.bind_eq_some_iff.mp h
      obtain ⟨added, hadded⟩ := attachTrace_pass hlawful hmiddle
      obtain ⟨more, hmore⟩ := ih hrest
      exact ⟨added ++ more, hadded.append hmore⟩

end

/-! ## All passes -/

/-- The programs of the object belong to the traces. -/
structure Libbpf.Serves (libbpf : Libbpf) (traces : List Trace) : Prop where
  nodup : libbpf.programs.Nodup
  defines : (traces.map Trace.define).Nodup
  owned : ∀ program ∈ libbpf.programs, ∃ trace ∈ traces, trace.define = program.define ∧
    (program.ret = true → trace.isFunc = true)
  entry : ∀ program ∈ libbpf.programs, ⟨program.define, false⟩ ∈ libbpf.programs

namespace Libbpf.Serves

variable {libbpf : Libbpf} {traces : List Trace}

/-- Programs tell traces apart. -/
theorem unique (h : libbpf.Serves traces) {trace other : Trace} (htrace : trace ∈ traces)
    (hother : other ∈ traces) (hsame : trace.define = other.define) : trace = other :=
  List.inj_on_of_nodup_map h.defines htrace hother hsame

theorem runs (h : libbpf.Serves traces) {program : Program} (hthere : program ∈ libbpf.programs)
    (hloaded : tracePreLoad libbpf.programs traces program = true) :
    ∃ trace ∈ traces, trace.define = program.define ∧ trace.runs program.ret = true := by
  obtain ⟨trace, htrace, hdefine, hfunc⟩ := h.owned program hthere
  exact ⟨trace, htrace, hdefine,
    (tracePreLoad_iff traces (h.entry program hthere)).mp hloaded trace htrace hdefine hfunc⟩

theorem loaded (h : libbpf.Serves traces) {trace : Trace} {ret : Bool} (htrace : trace ∈ traces)
    (hthere : trace.program ret ∈ libbpf.programs) (hruns : trace.runs ret = true) :
    tracePreLoad libbpf.programs traces (trace.program ret) = true := by
  refine (tracePreLoad_iff traces (h.entry _ hthere)).mpr fun other hother hsame _ => ?_
  obtain rfl := h.unique hother htrace hsame
  exact hruns

end Libbpf.Serves

/-- What is known of the links at the end. -/
structure Attached.Sound (libbpf : Libbpf) (ctx : Context) (state : Attached) : Prop where
  once : state.links.Nodup
  used : ∀ program ∈ state.links, program ∈ libbpf.programs ∧
    ∃ trace ∈ ctx.traces, trace.define = program.define ∧ trace.runs program.ret = true
  connects : ∀ trace ∈ ctx.traces, connectRequires ctx trace = true → ∀ ret, trace.runs ret = true →
    trace.program ret ∈ libbpf.programs → trace.program ret ∈ state.links
  wakes : ∀ trace ∈ ctx.traces, probeWakeupRequired ctx trace = true → trace.runs false = true →
    trace.program false ∈ libbpf.programs → trace.program false ∈ state.links

theorem Trace.isUsable_of_runs {trace : Trace} {ret : Bool} (h : trace.runs ret = true) :
    trace.isUsable = true :=
  ((Bool.and_eq_true _ _).mp h).1

/-- What is attached beside the programs of the first pass. -/
structure Attached.Rest (libbpf : Libbpf) (ctx : Context) (added rest : List Program) : Prop where
  nodup : rest.Nodup
  apart : ∀ program ∈ rest, program ∉ added
  there : ∀ program ∈ rest, program ∈ libbpf.programs ∧
    tracePreLoad libbpf.programs ctx.traces program = true
  connects : ∀ trace ∈ ctx.traces, trace.attachManual = false → connectRequires ctx trace = true →
    ∀ ret, trace.runs ret = true → trace.program ret ∈ libbpf.programs → trace.program ret ∈ rest
  wakes : ∀ trace ∈ ctx.traces, trace.attachManual = false → probeWakeupRequired ctx trace = true →
    trace.runs false = true → trace.program false ∈ libbpf.programs → trace.program false ∈ rest

/-- The links after the first pass and what follows it. -/
theorem Attached.Rest.sound {libbpf : Libbpf} {ctx : Context} {manual state : Attached}
    {added rest : List Program} (hrest : Attached.Rest libbpf ctx added rest)
    (hserves : libbpf.Serves ctx.traces)
    (hpass : Attached.Pass libbpf (tracePreLoad libbpf.programs ctx.traces) ctx false ctx.traces
      {} manual added) (hlinks : state.links = added ++ rest) : state.Sound libbpf ctx := by
  have hmanual {trace : Trace} {ret : Bool} (hruns : trace.runs ret = true)
      (hmanual : trace.attachManual = true) : trace.attachedIn false = true := by
    simp [Trace.attachedIn, Trace.isUsable_of_runs hruns, hmanual]
  refine ⟨?_, ?_, ?_, ?_⟩
  · rw [hlinks]
    refine List.nodup_append.mpr ⟨hpass.nodup hserves.defines, hrest.nodup, ?_⟩
    rintro program hadded _ hmore rfl
    exact hrest.apart program hmore hadded
  · intro program hmem
    rw [hlinks] at hmem
    have hthere : program ∈ libbpf.programs ∧
        tracePreLoad libbpf.programs ctx.traces program = true := by
      obtain hmem | hmem := List.mem_append.mp hmem
      · obtain ⟨_, _, _, _, hthere, hloaded, _⟩ := hpass.owned program hmem
        exact ⟨hthere, hloaded⟩
      · exact hrest.there program hmem
    exact ⟨hthere.1, hserves.runs hthere.1 hthere.2⟩
  · intro trace htrace hconnect ret hruns hthere
    rw [hlinks]
    cases hkind : trace.attachManual with
    | false =>
        exact List.mem_append_right _ (hrest.connects trace htrace hkind hconnect ret hruns hthere)
    | true =>
        obtain ⟨hentry, hret⟩ := hpass.connects trace htrace (hmanual hruns hkind) hconnect
        refine List.mem_append_left _ ?_
        cases ret with
        | false => exact hentry
        | true => exact hret ((Bool.and_eq_true _ _).mp hruns).2
  · intro trace htrace hwake hruns hthere
    rw [hlinks]
    cases hkind : trace.attachManual with
    | false => exact List.mem_append_right _ (hrest.wakes trace htrace hkind hwake hruns hthere)
    | true => exact List.mem_append_left _ (hpass.wakes trace htrace (hmanual hruns hkind) hwake)

/-- A second pass attaches what the first one leaves. -/
theorem rest_of_pass {libbpf : Libbpf} {ctx : Context} {old manual middle state : Attached}
    {added more : List Program} (hserves : libbpf.Serves ctx.traces)
    (hfirst : Attached.Pass libbpf (tracePreLoad libbpf.programs ctx.traces) ctx false ctx.traces
      old manual added)
    (hsecond : Attached.Pass libbpf (tracePreLoad libbpf.programs ctx.traces) ctx true ctx.traces
      middle state more) :
    Attached.Rest libbpf ctx added more := by
  have hin {trace : Trace} {ret : Bool} (hruns : trace.runs ret = true)
      (hauto : trace.attachManual = false) :
      trace.attachedIn true = true := by
    simp [Trace.attachedIn, Trace.isUsable_of_runs hruns, hauto]
  refine ⟨hsecond.nodup hserves.defines, ?_, ?_, ?_, ?_⟩
  · intro program hmore hadded
    obtain ⟨trace, htrace, hmanual, hdefine, -⟩ := hfirst.owned program hadded
    obtain ⟨other, hother, hauto, hsame, -⟩ := hsecond.owned program hmore
    obtain rfl := hserves.unique htrace hother (hdefine.trans hsame.symm)
    simp only [Trace.attachedIn, Bool.and_eq_true, bne_iff_ne, ne_eq] at hmanual hauto
    exact hauto.2 (Bool.eq_true_of_not_eq_false hmanual.2)
  · intro program hmem
    obtain ⟨_, _, _, _, hthere, hloaded, _⟩ := hsecond.owned program hmem
    exact ⟨hthere, hloaded⟩
  · intro trace htrace hauto hconnect ret hruns _
    obtain ⟨hentry, hret⟩ := hsecond.connects trace htrace (hin hruns hauto) hconnect
    cases ret with
    | false => exact hentry
    | true => exact hret ((Bool.and_eq_true _ _).mp hruns).2
  · intro trace htrace hauto hwake hruns _
    exact hsecond.wakes trace htrace (hin hruns hauto) hwake

/-- A skeleton that does not fail attaches what the first pass leaves. -/
theorem rest_of_skeleton {libbpf : Libbpf} {ctx : Context} {manual : Attached}
    {added : List Program} (hserves : libbpf.Serves ctx.traces)
    (hpass : Attached.Pass libbpf (tracePreLoad libbpf.programs ctx.traces) ctx false ctx.traces {}
      manual added) :
    Attached.Rest libbpf ctx added (libbpf.eligible ctx.traces manual) := by
  have heligible {program : Program} : program ∈ libbpf.eligible ctx.traces manual ↔
      program ∈ libbpf.programs ∧ tracePreLoad libbpf.programs ctx.traces program = true ∧
        manual.autoattach program = true := by
    unfold Libbpf.eligible
    rw [List.mem_filter, Bool.and_eq_true]
  have hlinked {trace : Trace} {ret : Bool} (htrace : trace ∈ ctx.traces)
      (hruns : trace.runs ret = true)
      (hthere : trace.program ret ∈ libbpf.programs) (hauto : trace.attachManual = false) :
      trace.program ret ∈ libbpf.eligible ctx.traces manual := by
    refine heligible.mpr ⟨hthere, hserves.loaded htrace hthere hruns, ?_⟩
    rw [hpass.kept (trace.program ret) fun other hother hattached hsame => ?_]
    obtain rfl := hserves.unique hother htrace hsame
    simp [Trace.attachedIn, hauto] at hattached
  refine ⟨hserves.nodup.filter _, ?_, ?_, ?_, ?_⟩
  · intro program hmore hadded
    exact absurd ((heligible.mp hmore).2.2.symm.trans (hpass.off program hadded)) nofun
  · intro program hmem
    exact ⟨(heligible.mp hmem).1, (heligible.mp hmem).2.1⟩
  · intro trace htrace hauto _ ret hruns hthere
    exact hlinked htrace hruns hthere hauto
  · intro trace htrace hauto _ hruns hthere
    exact hlinked htrace hruns hthere hauto

/-- Whatever attempts fail, a program that is attached in the end is attached once and is one that
its trace runs, and the programs that a diagnosis needs are attached. -/
theorem attached_once {libbpf : Libbpf} {ctx : Context} {state : Attached}
    (hserves : libbpf.Serves ctx.traces)
    (hlawful : libbpf.Lawful (tracePreLoad libbpf.programs ctx.traces))
    (h : probeTraceAttach libbpf ctx = some state) : state.Sound libbpf ctx := by
  obtain ⟨manual, hmanual, h⟩ := Option.bind_eq_some_iff.mp h
  obtain ⟨added, hpass⟩ := attachTraces_pass hlawful hmanual
  dsimp only at h
  split at h
  case isTrue =>
    obtain ⟨more, hmore⟩ := attachTraces_pass hlawful h
    refine (rest_of_pass hserves hpass hmore).sound hserves hpass ?_
    unfold Attached.links
    rw [hmore.skeleton, List.append_nil, hmore.manual]
    exact congrArg (· ++ more) hpass.manual
  case isFalse hcomplete =>
    obtain rfl := Option.some.inj h
    rw [hlawful.complete _ (Bool.eq_false_of_not_eq_true hcomplete)]
    exact (rest_of_skeleton hserves hpass).sound hserves hpass
      (congrArg (· ++ libbpf.eligible ctx.traces manual) hpass.manual)

/-- A trace that is attached by hand with its return, one that the skeleton attaches, and one that
is not used. -/
def attachedTraces : List Trace :=
  [{ packetTrace "ip_rcv_core" (literal "ip_rcv_core.isra.0") with
      enable := true, ret := true, attachManual := true },
    { packetTrace "tcp_v4_rcv" (literal "tcp_v4_rcv") with
      enable := true, connectRequired := true },
    packetTrace "ip_error" (literal "ip_error")]

/-- A context in which three traces are enabled, one of them with its return. -/
def attachedContext : Context where
  args := { connectDiagnostics := true }
  bpf := {}
  mode := .timeline
  catalogue := { root := .mk [] [] [], traces := attachedTraces }

/-- The programs of these traces. -/
def attachedPrograms : List Program :=
  attachedTraces.flatMap fun trace => [trace.program false, trace.program true]

/-- Only the old way to attach a program works, and the skeleton fails after its first program. -/
def legacyLibbpf : Libbpf where
  programs := attachedPrograms
  perf := true
  attach := fun kind _ program =>
    kind = .legacy && tracePreLoad attachedPrograms attachedTraces program
  attachSkeleton := fun programs => (programs.take 1, true)

/-- A run on a kernel that attaches by hand. -/
theorem attached_once_legacy :
    ∃ state, probeTraceAttach legacyLibbpf attachedContext = some state ∧
      state.links = [⟨"ip_rcv_core", false⟩, ⟨"ip_rcv_core", true⟩, ⟨"tcp_v4_rcv", false⟩] ∧
      state.Sound legacyLibbpf attachedContext := by
  have hserves : legacyLibbpf.Serves attachedContext.traces :=
    ⟨by decide, by decide, by decide, by decide⟩
  have hlawful : legacyLibbpf.Lawful (tracePreLoad legacyLibbpf.programs attachedContext.traces) :=
    ⟨fun _ _ _ h => ((Bool.and_eq_true _ _).mp h).2, nofun⟩
  have hlinks : (probeTraceAttach legacyLibbpf attachedContext).map Attached.links =
      some [⟨"ip_rcv_core", false⟩, ⟨"ip_rcv_core", true⟩, ⟨"tcp_v4_rcv", false⟩] := by
        decide +kernel
  obtain ⟨state, hstate, hlinks⟩ := Option.map_eq_some_iff.mp hlinks
  exact ⟨state, hstate, hlinks, attached_once hserves hlawful hstate⟩

end Anettrace.Selection
