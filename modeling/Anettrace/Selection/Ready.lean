import Anettrace.Selection.Lookup

/-!
# What is ready

The end of `trace_prepare`. Whatever the arguments and the kernel are, a trace that is left usable
was not excluded, suits the mode, and stands for one function or tracepoint that the kernel has; no
function that the user names is dropped because it is not found; and the diagnoses that need some
traces have them.
-/

namespace Anettrace.Selection

open Library Library.Fallible Symbols

/-! ## The steps after the arguments -/

theorem tracePrepareStatus_later (mode : TraceMode) (trace : Trace) :
    trace.Later (tracePrepareStatus mode trace) :=
  ⟨rfl, [], by simp [tracePrepareStatus], by simp⟩

/-- The check of the monitor mode comes after the look-up. -/
theorem probeCheckMonitor_later (mode : TraceMode) (trace : Trace) :
    trace.Later (probeCheckMonitor mode trace) := by
  unfold probeCheckMonitor
  split
  · exact .setInvalidReason trace (by decide)
  · exact .refl trace

/-- The probes of features come after the look-up. -/
theorem probeTraceFeatProbe_later (kernel : Kernel) (trace : Trace) :
    trace.Later (probeTraceFeatProbe kernel trace) := by
  unfold probeTraceFeatProbe
  split
  · exact .setInvalidReason trace (by decide)
  · exact .refl trace

/-- Without trampolines, a function that is only a monitor of its return has no program. -/
theorem probeCheckMonitor_monitor {mode : TraceMode} {trace : Trace}
    (hused : (probeCheckMonitor mode trace).isUsable = true) (hmode : mode = .monitor)
    (hfunc : trace.isFunc = true) : trace.monitor ≠ 1 := by
  intro hmonitor
  unfold probeCheckMonitor at hused
  split at hused
  · simp [Trace.isUsable, Trace.isInvalid, Trace.setInvalidReason] at hused
  · rename_i hkept
    refine hkept ?_
    simp only [Trace.isUsable, Bool.and_eq_true] at hused
    simp [hmode, hfunc, hmonitor, (Bool.not_eq_true' _).mp hused.2]

/-- A trace whose program is tried is used only if the program loads. -/
theorem probeTraceFeatProbe_loads {kernel : Kernel} {trace : Trace}
    (hused : (probeTraceFeatProbe kernel trace).isUsable = true) (hprobe : trace.probe = true) :
    kernel.loads trace.define = true := by
  unfold probeTraceFeatProbe at hused
  split at hused
  · simp [Trace.isUsable, Trace.isInvalid, Trace.setInvalidReason] at hused
  · rename_i hkept
    simpa [hprobe, hused] using hkept

theorem Trace.not_usable {trace : Trace} (h : trace.isInvalid = true) : trace.isUsable = false := by
  simp [Trace.isUsable, h]

namespace Trace.Later

variable {old new : Trace}

/-- No later change makes a trace valid again. -/
theorem isInvalid (h : old.Later new) (hinvalid : old.isInvalid = true) : new.isInvalid = true := by
  obtain ⟨added, hadded, -⟩ := h.invalid
  simp only [Trace.isInvalid, decide_eq_true_eq] at hinvalid ⊢
  simp [hadded, hinvalid]

theorem isFunc (h : old.Later new) : new.isFunc = old.isFunc :=
  (congrArg Trace.isFunc h.kept).trans rfl

theorem monitor (h : old.Later new) : new.monitor = old.monitor :=
  (congrArg Trace.monitor h.kept).trans rfl

theorem probe (h : old.Later new) : new.probe = old.probe :=
  (congrArg Trace.probe h.kept).trans rfl

theorem explicit (h : old.Later new) : new.explicit = old.explicit :=
  (congrArg Trace.explicit h.kept).trans rfl

end Trace.Later

namespace Trace.Marked

variable {old new : Trace}

theorem cond (h : old.Marked new) : new.cond = old.cond :=
  (congrArg Trace.cond h.unmarked :)

theorem isFunc (h : old.Marked new) : new.isFunc = old.isFunc :=
  (congrArg Trace.isFunc h.unmarked :)

theorem tp (h : old.Marked new) : new.tp = old.tp :=
  (congrArg Trace.tp h.unmarked :)

theorem attachManual (h : old.Marked new) : new.attachManual = old.attachManual :=
  (congrArg Trace.attachManual h.unmarked :)

end Trace.Marked

namespace Trace.Looked

variable {kernel : Kernel} {old new : Trace}

/-- The look-up makes no trace valid again. -/
theorem isInvalid (h : old.Looked kernel new) (hinvalid : old.isInvalid = true) :
    new.isInvalid = true := by
  obtain ⟨added, hadded, -⟩ := h.invalid
  simp only [Trace.isInvalid, decide_eq_true_eq] at hinvalid ⊢
  simp [hadded, hinvalid]

theorem monitor (h : old.Looked kernel new) : new.monitor = old.monitor :=
  (congrArg Trace.monitor h.unlooked :)

theorem define (h : old.Looked kernel new) : new.define = old.define :=
  (congrArg Trace.define h.unlooked :)

theorem explicit (h : old.Looked kernel new) : new.explicit = old.explicit :=
  (congrArg Trace.explicit h.unlooked :)

end Trace.Looked

/-! ## The traces that are looked up -/

/-- What the lookup leaves of a trace. -/
structure Trace.Found (kernel : Kernel) (old new : Trace) : Prop where
  looked : ∃ tested found : Trace, old.Marked tested ∧ tested.Looked kernel found ∧ found.Later new
  monitor : new.monitor = old.monitor
  condition : new.isUsable = true → old.cond.all kernel.condition = true

theorem Trace.Found.later {kernel : Kernel} {old new last : Trace} (h : old.Found kernel new)
    (hlater : new.Later last) : old.Found kernel last := by
  obtain ⟨⟨tested, found, hmarked, hlooked, hfound⟩, hmonitor, hcondition⟩ := h
  exact ⟨⟨tested, found, hmarked, hlooked, hfound.trans hlater⟩, hlater.monitor.trans hmonitor,
    fun hused => hcondition (hlater.isUsable hused)⟩

/-- What the lookup and the tests after it leave of a trace. -/
structure Trace.Settled (kernel : Kernel) (ops : TraceOps) (mode : TraceMode) (old new : Trace) :
    Prop
    extends old.Found kernel new where
  monitors : ops = .probe → mode = .monitor → new.isFunc = true → new.isUsable = true →
    new.monitor ≠ 1

theorem Trace.Settled.later {kernel : Kernel} {ops : TraceOps} {mode : TraceMode}
    {old new last : Trace} (h : old.Settled kernel ops mode new) (hlater : new.Later last) :
    old.Settled kernel ops mode last := by
  refine ⟨h.toFound.later hlater, fun hops hmode hfunc hused => ?_⟩
  rw [hlater.monitor]
  exact h.monitors hops hmode (hlater.isFunc ▸ hfunc) (hlater.isUsable hused)

/-- A mode that follows packets enables traces, and does nothing else that a monitor would see. -/
theorem enableLife_traces (mode : TraceMode) (catalogue : Catalogue) :
    List.Forall₂ (fun old new : Trace => old.Marked new ∧ new.monitor = old.monitor)
      catalogue.traces (enableLife mode catalogue).traces := by
  have hnone : List.Forall₂ (fun old new : Trace => old.Marked new ∧ new.monitor = old.monitor)
      catalogue.traces catalogue.traces :=
    List.forall₂_same.mpr fun trace _ => ⟨.refl trace, rfl⟩
  unfold enableLife
  split
  · cases hlife : catalogue.traceGroupEnable (literal "life") .enable with
    | none => exact hnone
    | some marked =>
        obtain ⟨mark, htraces, -, hmark⟩ := traceGroupEnable_traces hlife
        rw [Option.getD_some, htraces]
        refine Pointwise.map_right fun trace _ => ?_
        obtain heq | heq | heq := hmark trace
        · rw [heq]
          exact ⟨.refl trace, rfl⟩
        · rw [heq]
          exact ⟨.setEnable trace, rfl⟩
        · rw [heq]
          exact ⟨(Trace.Marked.setExplicit .enable trace).trans (.setEnable _), rfl⟩
  · exact hnone

/-- The conditions keep what the monitor mode watches. -/
theorem traceExecCond_monitor (kernel : Kernel) (trace : Trace) :
    (traceExecCond kernel trace).monitor = trace.monitor := by
  unfold traceExecCond
  split <;> rfl

theorem Trace.Found.of_prepareTrace {kernel : Kernel} {old tested found : Trace}
    (hmarked : old.Marked tested) (hmonitor : tested.monitor = old.monitor)
    (hcondition : tested.isInvalid = false → old.cond.all kernel.condition = true)
    (h : prepareTrace kernel tested = .ok found) : old.Found kernel found := by
  have hlooked := prepareTrace_looked h
  refine ⟨⟨tested, found, hmarked, hlooked, .refl found⟩, hlooked.monitor.trans hmonitor,
    fun hused => hcondition ?_⟩
  by_contra hinvalid
  rw [Bool.not_eq_false] at hinvalid
  exact absurd (hused.symm.trans (Trace.not_usable (hlooked.isInvalid hinvalid))) nofun

/-- The traces are looked up and settled, one by one. -/
theorem tracePrepareTraces_ok {kernel : Kernel} {ops : TraceOps} {ctx after : Context}
    (h : tracePrepareTraces kernel ops ctx = .ok after) :
    ∃ catalogue, after = { ctx with catalogue := catalogue } ∧
      List.Forall₂ (Trace.Settled kernel ops ctx.mode) ctx.traces catalogue.traces := by
  unfold tracePrepareTraces at h
  simp only [bind_ok, refuse_ok] at h
  obtain ⟨_, -, traces, htraces, hafter⟩ := h
  have htested : List.Forall₂ (fun old tested : Trace => old.Marked tested ∧
      tested.monitor = old.monitor ∧ (tested.isInvalid = false →
        old.cond.all kernel.condition = true))
      ctx.traces ((enableLife ctx.mode ctx.catalogue).each (traceExecCond kernel)).traces := by
    refine Pointwise.trans (fun {old enabled tested} hold hnew => ?_)
      (enableLife_traces ctx.mode ctx.catalogue)
      (Pointwise.map_right (R := fun enabled tested => tested = traceExecCond kernel enabled)
        fun _ _ => rfl)
    subst hnew
    obtain ⟨hmarked, hcond⟩ := traceExecCond_marked kernel enabled
    exact ⟨hold.1.trans hmarked, (traceExecCond_monitor kernel enabled).trans hold.2,
      fun hvalid => hold.1.cond ▸ hcond hvalid⟩
  have hfound : List.Forall₂ (Trace.Found kernel) ctx.traces traces := by
    refine Pointwise.trans (fun {old tested found} hold hnew => ?_) htested
      (Pointwise.of_mapM htraces)
    exact .of_prepareTrace hold.1 hold.2.1 hold.2.2 hnew
  have hstatus : List.Forall₂ (Trace.Found kernel) ctx.traces
      (traces.map (tracePrepareStatus ctx.mode)) :=
    Pointwise.trans (fun hold hnew => hold.later hnew) hfound
      (Pointwise.map_right (R := Trace.Later) fun trace _ =>
        tracePrepareStatus_later ctx.mode trace)
  obtain rfl := Except.ok.inj hafter
  split
  case isTrue hops =>
    refine ⟨_, rfl, ?_⟩
    refine Pointwise.trans (fun {old found new} hold hnew => ?_) hstatus
      (Pointwise.map_right (R := fun found new => new = probeCheckMonitor ctx.mode found) fun _ _ =>
        rfl)
    subst hnew
    have hchecked := probeCheckMonitor_later ctx.mode found
    refine ⟨hold.later hchecked, fun _ hmode hfunc hused => ?_⟩
    rw [hchecked.monitor]
    exact probeCheckMonitor_monitor hused hmode (hchecked.isFunc ▸ hfunc)
  case isFalse hops =>
    exact ⟨_, rfl, hstatus.imp fun old new hold => ⟨hold, fun hprobe => absurd hprobe hops⟩⟩

/-! ## The end of `trace_prepare` -/

/-- The user names a trace, and not only a group that it is in. -/
def Context.Names (ctx : Context) (trace : Trace) : Prop :=
  ∃ text ∈ ctx.args.lists, ctx.catalogue.lists text trace

/-- What is known of a trace after a preparation of `before` that ends with `after`. -/
structure Trace.Prepared (kernel : Kernel) (ops : TraceOps) (before after : Context)
    (source new : Trace) :
    Prop where
  define : new.define = source.define
  excluded : ∀ name ∈ before.catalogue.heeded before.args.traceExclude,
    before.catalogue.standsFor name source = true → new.isUsable = false
  scheduled : after.bpf.wakeupChain = false → source.define ∈ schedTraces → new.isUsable = false
  fits : after.bpf.perfetto = false → after.args.fixTrace = false → new.isUsable = true →
    source.unfit after.mode = false
  monitors : after.mode = .monitor → new.isUsable = true → new.monitor ≠ 0 ∧
    (ops = .probe → new.isFunc = true → new.monitor ≠ 1)
  condition : new.isUsable = true → source.cond.all kernel.condition = true
  function : new.isUsable = true → source.isFunc = true → source.FoundAs kernel.kallsyms new
  tracepoint : new.isUsable = true → source.isFunc = false → kernel.tracepoint source.tp = true
  loads : ops = .probe → new.isUsable = true → new.probe = true → kernel.loads source.define = true
  named : before.Names source → new.explicit = true
  explicit : source.invalid = [] → new.explicit = true → source.isFunc = true →
    ∀ reason ∈ new.invalid, reason ∈ earlyReasons ++ lateReasons

/-- What is known of all of them. -/
structure Context.Prepared (kernel : Kernel) (ops : TraceOps) (before after : Context) : Prop where
  traces : List.Forall₂ (Trace.Prepared kernel ops before after) before.traces after.traces
  backups : after.catalogue.Single
  required : after.args.connectDiagnostics = true → ∀ trace ∈ after.traces,
    trace.connectRequired = true → trace.isUsable = true
  wakeups : after.bpf.wakeupChain = true → ∀ define ∈ schedTraces ++ syscallTraces,
    (after.catalogue.find define).any Trace.isUsable = true
  narrowed : after.bpf.perfetto = true → Narrowed after
  forced : traceCheckForce after = false

theorem Trace.Prepared.of_settled {kernel : Kernel} {ops : TraceOps} {before chosen after : Context}
    {source old new : Trace} (hchosen : source.Chosen chosen before.args.lists before.catalogue old)
    (hsettled : old.Settled kernel ops chosen.mode new)
    (hloads : ops = .probe → new.isUsable = true → new.probe = true →
      kernel.loads new.define = true)
    (hexclude : chosen.args.traceExclude = before.args.traceExclude)
    (hsame : after = { chosen with catalogue := after.catalogue }) :
    source.Prepared kernel ops before after new := by
  have hargs : after.args = chosen.args := (congrArg Context.args hsame).trans rfl
  have hbpf : after.bpf = chosen.bpf := (congrArg Context.bpf hsame).trans rfl
  have hmode : after.mode = chosen.mode := (congrArg Context.mode hsame).trans rfl
  obtain ⟨⟨⟨tested, found, hmarked, hlooked, hlater⟩, hsameMonitor, hcondition⟩, hmonitors⟩ :=
    hsettled
  have hall := hchosen.marked.trans hmarked
  have hgone (hinvalid : old.isInvalid = true) : new.isUsable = false :=
    Trace.not_usable (hlater.isInvalid (hlooked.isInvalid (hmarked.isInvalid hinvalid)))
  have hvalid (hused : new.isUsable = true) : old.isInvalid = false := by
    by_contra hinvalid
    rw [Bool.not_eq_false] at hinvalid
    exact absurd (hused.symm.trans (hgone hinvalid)) nofun
  refine ⟨?_, ?_, ?_, ?_, ?_, ?_, ?_, ?_, ?_, ?_, ?_⟩
  · rw [hlater.define, hlooked.define, hall.define]
  · intro name hname hstands
    exact hgone (hchosen.excluded name (hexclude ▸ hname) hstands)
  · intro hoff hmem
    rw [hbpf] at hoff
    exact hgone (hchosen.scheduled hoff hmem)
  · intro hperfetto hfix hused
    rw [hbpf] at hperfetto
    rw [hargs] at hfix
    rw [hmode]
    by_contra hunfit
    rw [Bool.not_eq_false] at hunfit
    exact absurd ((hvalid hused).symm.trans (hchosen.fits hperfetto hfix hunfit)) nofun
  · intro hmonitor hused
    rw [hmode] at hmonitor
    refine ⟨fun hzero => ?_, fun hprobe hfunc => hmonitors hprobe hmonitor hfunc hused⟩
    exact absurd ((hvalid hused).symm.trans
      (hchosen.monitors hmonitor (hsameMonitor.symm.trans hzero))) nofun
  · intro hused
    rw [← hchosen.marked.cond]
    exact hcondition hused
  · intro hused hfunc
    obtain ⟨record, hname, hfinds⟩ :=
      hlooked.function (hlater.isUsable hused) (hall.isFunc.trans hfunc)
    refine ⟨record, ?_, ?_⟩
    · rw [← hname]
      exact (congrArg Trace.name hlater.kept).trans rfl
    · rw [hall.name, hall.attachManual] at hfinds
      rw [show new.attachManual = found.attachManual
        from (congrArg Trace.attachManual hlater.kept).trans rfl]
      exact hfinds
  · intro hused htp
    rw [← hall.tp]
    exact hlooked.tracepoint (hlater.isUsable hused) (hall.isFunc.trans htp)
  · intro hprobe hused htried
    have hdefine : new.define = source.define := by rw [hlater.define, hlooked.define, hall.define]
    exact hdefine ▸ hloads hprobe hused htried
  · intro ⟨text, htext, hlists⟩
    rw [hlater.explicit, hlooked.explicit]
    exact hmarked.explicit (hchosen.named text htext hlists)
  · intro hfresh hexplicit hfunc reason hreason
    obtain ⟨early, hearly, hearlyReasons⟩ := hall.invalid
    obtain ⟨lost, hlost, hnone⟩ := hlooked.invalid
    obtain ⟨late, hlate, hlateReasons⟩ := hlater.invalid
    have hno : lost = [] := by
      refine hnone ?_ (hall.isFunc.trans hfunc)
      rw [← hlooked.explicit, ← hlater.explicit]
      exact hexplicit
    rw [hlate, hlost, hearly, hfresh, hno, List.nil_append, List.append_nil] at hreason
    obtain hmem | hmem := List.mem_append.mp hreason
    · exact List.mem_append_left _ (hearlyReasons reason hmem)
    · exact List.mem_append_right _ (hlateReasons reason hmem)

/-- What was explicit before the preparation is of no account. -/
theorem Trace.Prepared.of_forgotten {kernel : Kernel} {ops : TraceOps} {before after : Context}
    {explicitTraces : Bool} {source old new : Trace}
    (h : old.Prepared kernel ops (before.forgetExplicit explicitTraces) after new)
    (hmarked : old.Marked source) : source.Prepared kernel ops before after new := by
  have hforget := forgetExplicit_marked explicitTraces before
  have hargs := forgetExplicit_args explicitTraces before
  refine ⟨h.define.trans hmarked.define.symm, ?_, ?_, ?_, h.monitors, ?_, ?_, ?_, ?_, ?_, ?_⟩
  · intro name hname hstands
    refine h.excluded name ?_ ((hforget.standsFor name hmarked).symm.trans hstands)
    rw [hargs, ← hforget.heeded]
    exact hname
  · rw [hmarked.define]
    exact h.scheduled
  · rw [hmarked.unfit]
    exact h.fits
  · rw [hmarked.cond]
    exact h.condition
  · unfold Trace.FoundAs
    rw [hmarked.isFunc, hmarked.name, hmarked.attachManual]
    exact h.function
  · rw [hmarked.isFunc, hmarked.tp]
    exact h.tracepoint
  · rw [hmarked.define]
    exact h.loads
  · intro ⟨text, htext, hlists⟩
    refine h.named ⟨text, ?_, (hforget.lists text hmarked).mp hlists⟩
    rw [hargs]
    exact htext
  · intro hfresh hexplicit hfunc
    obtain ⟨added, hadded, -⟩ := hmarked.invalid
    refine h.explicit ?_ hexplicit (hmarked.isFunc.symm.trans hfunc)
    exact (List.append_eq_nil_iff.mp (hadded.symm.trans hfresh)).1

theorem prepared_of_forgotten {kernel : Kernel} {ops : TraceOps} {before after : Context}
    (explicitTraces : Bool)
    (h : List.Forall₂ (Trace.Prepared kernel ops (before.forgetExplicit explicitTraces) after)
      (before.forgetExplicit explicitTraces).traces after.traces) :
    List.Forall₂ (Trace.Prepared kernel ops before after) before.traces after.traces :=
  Pointwise.trans (R := fun source old : Trace => old.Marked source)
    (fun hmarked hold => hold.of_forgotten hmarked)
      (forgetExplicit_marked explicitTraces before).traces.flip h

theorem traceFeatProbe_traces (kernel : Kernel) (ops : TraceOps) (catalogue : Catalogue) :
    List.Forall₂ (fun old new : Trace => old.Later new ∧
      (ops = .probe → new.isUsable = true → new.probe = true → kernel.loads new.define = true))
      catalogue.traces (traceFeatProbe kernel ops catalogue).traces := by
  unfold traceFeatProbe
  split
  case isTrue =>
    refine Pointwise.map_right fun trace _ => ?_
    have hlater := probeTraceFeatProbe_later kernel trace
    refine ⟨hlater, fun _ hused hprobe => ?_⟩
    rw [hlater.define]
    exact probeTraceFeatProbe_loads hused (hlater.probe ▸ hprobe)
  case isFalse hops =>
    exact List.forall₂_same.mpr fun trace _ => ⟨.refl trace, fun hprobe => absurd hprobe hops⟩

/-- What a preparation that succeeds leaves, whatever the arguments and the kernel are. -/
theorem tracePrepare_ready {kernel : Kernel} {ops : TraceOps} {before after : Context}
    (h : tracePrepare kernel before = .ok (.ready ops after)) :
    before.Prepared kernel ops after := by
  unfold tracePrepare at h
  simp only [bind_ok, refuse_ok] at h
  obtain ⟨_, -, chosen, hchosen, found, hfound, _, -, _, hvalidated, hready⟩ := h
  obtain ⟨hchoices, -, hforce, hexclude, hnarrowed⟩ := tracePrepareArgs_ok hchosen
  obtain ⟨catalogue, rfl, hsettled⟩ := tracePrepareTraces_ok hfound
  split at hready
  case isTrue => cases Except.ok.inj hready
  case isFalse =>
    obtain ⟨rfl, rfl⟩ := Preparation.ready.inj (Except.ok.inj hready)
    have hprobed := traceFeatProbe_traces kernel (chooseOps kernel chosen.mode) catalogue
    have hbackup := (tracePrepareBackup_later
      (traceFeatProbe kernel (chooseOps kernel chosen.mode) catalogue)).traces
    rw [Bool.or_eq_false_iff, Bool.not_eq_false', Bool.not_eq_false', validateConnectRequired,
      validateWakeupRequired, Bool.or_eq_true, Bool.or_eq_true] at hvalidated
    refine ⟨?_, tracePrepareBackup_single _, ?_, ?_, hnarrowed, hforce⟩
    · have hfound : List.Forall₂ (fun source new : Trace => ∃ old,
          source.Chosen chosen before.args.lists
            (before.forgetExplicit before.args.traces.isSome).catalogue old ∧
          old.Settled kernel (chooseOps kernel chosen.mode) chosen.mode new)
          (before.forgetExplicit before.args.traces.isSome).traces catalogue.traces :=
        Pointwise.trans (fun {source old new} hold hnew => ⟨old, hold, hnew⟩) hchoices hsettled
      have hargs := forgetExplicit_args before.args.traces.isSome before
      refine prepared_of_forgotten before.args.traces.isSome ?_
      refine Pointwise.trans (fun {source between new} hold hnew => ?_) hfound
        (Pointwise.trans (T := fun between new : Trace => between.Later new ∧
            (chooseOps kernel chosen.mode = .probe → new.isUsable = true → new.probe = true →
              kernel.loads new.define = true))
          (fun {between probed new} hold hnew => ⟨hold.1.trans hnew, fun hops hused htried => ?_⟩)
          hprobed hbackup)
      · obtain ⟨old, hchosen, hsettled⟩ := hold
        exact .of_settled (hargs.symm ▸ hchosen) (hsettled.later hnew.1) hnew.2
          (hexclude.trans (congrArg TraceArgs.traceExclude hargs).symm) rfl
      · rw [hnew.define]
        exact hold.2 hops (hnew.isUsable hused) (hnew.probe ▸ htried)
    · intro hdiagnose trace htrace hrequired
      have hall := hvalidated.1.resolve_left fun hoff => by
        rw [Bool.not_eq_true'] at hoff
        exact Bool.false_ne_true (hoff.symm.trans hdiagnose)
      have hone := List.all_eq_true.mp hall trace htrace
      rw [hrequired, Bool.not_true, Bool.false_or] at hone
      exact hone
    · intro hchain define hdefine
      have hall := hvalidated.2.resolve_left fun hoff => by
        rw [Bool.not_eq_true'] at hoff
        exact Bool.false_ne_true (hoff.symm.trans hchain)
      exact List.all_eq_true.mp hall define hdefine

def packetTrace (define : String) (name : List UInt8) : Trace where
  define := define
  name := name
  type := .function
  cond := none
  tp := []
  skb := 1
  sk := 0
  analyzer := .default
  backup := none
  isBackup := false
  probe := false
  «def» := true
  connectRequired := false
  monitor := 0

/-- Traces of which the kernel has the first under its name, the second under a longer one, and the
third and its backup under one name. -/
def receiveCatalogue : Catalogue where
  root := .mk (literal "all") [] ["ip_rcv", "ip_rcv_core", "enqueue", "enqueue_old", "ip_error"]
  traces :=
    [packetTrace "ip_rcv" (literal "ip_rcv"), packetTrace "ip_rcv_core" (literal "ip_rcv_core"),
      { packetTrace "enqueue" (literal "enqueue") with backup := some "enqueue_old" },
      { packetTrace "enqueue_old" (literal "enqueue") with isBackup := true, probe := true },
      packetTrace "ip_error" (literal "ip_error")]

/-- A kernel with the functions of reception, one of them under a local name. -/
def receiveKernel : Kernel where
  btf := true
  tracefs := true
  dropReason := true
  resetReason := false
  netns := 1
  condition := fun _ => true
  tracepoint := fun _ => true
  kallsyms := literal "ffff T ip_rcv\nfff1 t ip_rcv_core.isra.0\nfff2 T enqueue\n"
  trampolines := false
  root := true
  loads := fun _ => true

/-- All of them are asked for, but for `ip_error`. -/
def receiveContext : Context where
  args := { traces := some (literal "ip_rcv,all"), traceExclude := some (literal "ip_error") }
  bpf := { pid := 1 }
  mode := .timeline
  catalogue := receiveCatalogue

/-- The names, the flags and the log of the traces after a preparation that succeeds. -/
def Preparation.outcome : Except PrepareError Preparation → List (List UInt8 × Bool × List String)
  | .ok (.ready _ after) =>
      after.traces.map fun trace => (trace.name, trace.explicit, trace.invalid)
  | _ => []

/-- A run in which a name is found under a local name. -/
theorem tracePrepare_ready_receive :
    ∃ ops after, tracePrepare receiveKernel receiveContext = .ok (.ready ops after) ∧
      after.traces.map (fun trace => (trace.name, trace.explicit, trace.invalid)) =
        [(literal "ip_rcv", true, []), (literal "ip_rcv_core.isra.0", false, []),
          (literal "enqueue", false, []), (literal "enqueue", false, ["backup"]),
          (literal "ip_error", false, ["exclude"])] ∧
      receiveContext.Prepared receiveKernel ops after := by
  have houtcome : Preparation.outcome (tracePrepare receiveKernel receiveContext) =
      [(literal "ip_rcv", true, []), (literal "ip_rcv_core.isra.0", false, []),
        (literal "enqueue", false, []), (literal "enqueue", false, ["backup"]),
        (literal "ip_error", false, ["exclude"])] := by decide +kernel
  unfold Preparation.outcome at houtcome
  split at houtcome
  · rename_i ops after hready
    exact ⟨ops, after, hready, houtcome, tracePrepare_ready hready⟩
  · cases houtcome

end Anettrace.Selection
