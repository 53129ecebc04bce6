import Anettrace.Selection.Marks
import Anettrace.Selection.Prepare

/-!
# Prepared traces

What is known of the traces after a preparation that succeeds, whatever the arguments and the
kernel: what the user excludes is never used, and what is used is what the kernel has and the mode
can do with.
-/

namespace Anettrace.Selection

open Library Library.Fallible Symbols

/-- A check passes if its condition fails. -/
@[simp] theorem refuse_ok {condition : Bool} {error : PrepareError} {done : Unit} :
    refuse condition error = .ok done ↔ condition = false := by
  unfold refuse
  cases condition <;> simp

/-! ## The arguments -/

theorem markCapture_marked (catalogue : Catalogue) : catalogue.Marked (markCapture catalogue) :=
  ((Catalogue.Marked.on perfettoRetTraces .setRet).trans (.on perfettoRxTraces .setRx)).trans
    (.on perfettoTxTraces .setTx)

/-- The modes that stand for lists of traces only mark them. -/
theorem tracePreparePesudo_marked (ctx : Context) :
    ctx.catalogue.Marked (tracePreparePesudo ctx).catalogue := by
  unfold tracePreparePesudo prepareCapture
  split
  · exact markCapture_marked ctx.catalogue
  · exact .refl ctx.catalogue

/-- The list of `--traces`, where it chooses the traces: `?` only prints them, and the details of
round-trip times replace it. -/
def TraceArgs.listed (args : TraceArgs) : Option (List UInt8) :=
  if args.rttDetail || args.traces = some (literal "?") then none else args.traces

/-- The lists that are read after the first choice. -/
def TraceArgs.later (args : TraceArgs) : List (Option (List UInt8)) :=
  [args.traceExclude, args.traceMatcher, args.traceFree]

/-- The traces that were asked for are marked as named. -/
theorem chooseTraces_ok {ctx after : Context} (h : chooseTraces ctx = .ok after) :
    List.Forall₂ (fun old new : Trace => old.Marked new ∧
      (ctx.args.traces ≠ some (literal "?") → ctx.catalogue.lists ctx.args.traces old →
        new.explicit = true)) ctx.traces after.traces ∧
    after.catalogue.root = ctx.catalogue.root ∧ after.args.later = ctx.args.later := by
  have hnone (new : Catalogue) (hmarked : ctx.catalogue.Marked new) (hno : ctx.args.traces = none) :
      List.Forall₂ (fun old new : Trace => old.Marked new ∧
        (ctx.args.traces ≠ some (literal "?") → ctx.catalogue.lists ctx.args.traces old →
          new.explicit = true)) ctx.traces new.traces := by
    refine hmarked.traces.imp fun _ _ hmark => ⟨hmark, fun _ ⟨name, hname, _⟩ => ?_⟩
    rw [hno] at hname
    cases hname
  unfold chooseTraces at h
  split at h
  · rename_i hno
    obtain rfl := Except.ok.inj h
    split
    · exact ⟨hnone _ (.refl ctx.catalogue) hno, rfl, rfl⟩
    · refine ⟨hnone _ (.each fun trace => ?_) hno, rfl, rfl⟩
      split
      · exact .setEnable trace
      · exact .refl trace
  · rename_i traces hsome
    split at h
    · rename_i hask
      obtain rfl := Except.ok.inj h
      refine ⟨List.forall₂_same.mpr fun trace _ =>
        ⟨.refl trace, fun hnot => absurd ?_ hnot⟩, rfl, rfl⟩
      rw [hsome, hask]
    · split at h
      · cases h
      · obtain rfl := Except.ok.inj h
        have hparsed := traceParseTraces_explicit (nofun : Target.enable ≠ .exclude) ctx.catalogue
          (some traces)
        refine ⟨?_, (Catalogue.Marked.traceParseTraces ctx.catalogue _ _).root, rfl⟩
        rw [hsome]
        exact hparsed.imp fun _ _ hmark => ⟨hmark.1, fun _ => hmark.2⟩

/-- What was explicit before does not count where the user gives no list. -/
theorem forgetExplicit_marked (explicitTraces : Bool) (ctx : Context) :
    (ctx.forgetExplicit explicitTraces).catalogue.Marked ctx.catalogue := by
  unfold Context.forgetExplicit
  split
  · exact .refl ctx.catalogue
  · refine ⟨rfl, List.forall₂_map_left_iff.mpr (List.forall₂_same.mpr fun trace _ => ?_)⟩
    exact .of_eq rfl rfl rfl nofun

/-- The arguments stay when the marks of names are forgotten. -/
theorem forgetExplicit_args (explicitTraces : Bool) (ctx : Context) :
    (ctx.forgetExplicit explicitTraces).args = ctx.args := by
  unfold Context.forgetExplicit
  split <;> rfl

/-- A mode that stands for a list of traces has it in place of the names. -/
theorem tracePreparePesudo_args (ctx : Context) :
    (tracePreparePesudo ctx).args.later = ctx.args.later ∧
      ∀ text, ctx.args.listed = some text →
        (tracePreparePesudo ctx).args.traces = some text ∧ text ≠ literal "?" := by
  unfold tracePreparePesudo prepareCapture TraceArgs.listed
  split
  all_goals
    refine ⟨rfl, fun text hlisted => ?_⟩
    split at hlisted
    case isTrue => cases hlisted
    case isFalse hnot =>
      simp only [Bool.or_eq_true, decide_eq_true_eq, not_or, Bool.not_eq_true] at hnot
      simp_all

/-- The list of the user chooses what it chooses, whatever a capture adds before. -/
theorem chooseTraces_listed {ctx after : Context} {mode : TraceMode}
    (h : chooseTraces { tracePreparePesudo ctx with mode := mode } = .ok after) :
    List.Forall₂ (fun old new : Trace => old.Marked new ∧
      (ctx.catalogue.lists ctx.args.listed old → new.explicit = true)) ctx.traces after.traces ∧
    after.catalogue.root = ctx.catalogue.root ∧ after.args.later = ctx.args.later := by
  obtain ⟨hchoice, hroot, hlater⟩ := chooseTraces_ok h
  obtain ⟨hsame, hlisted⟩ := tracePreparePesudo_args ctx
  have hpesudo := tracePreparePesudo_marked ctx
  refine ⟨?_, hroot.trans hpesudo.root, hlater.trans hsame⟩
  refine Pointwise.trans (fun {old between new} hold hnew => ?_) hpesudo.traces hchoice
  refine ⟨hold.trans hnew.1, fun hlists => ?_⟩
  cases htext : ctx.args.listed with
  | none =>
      obtain ⟨name, hname, -⟩ := htext ▸ hlists
      cases hname
  | some text =>
      obtain ⟨htraces, hnot⟩ := hlisted text htext
      refine hnew.2 ?_ ?_
      · show (tracePreparePesudo ctx).args.traces ≠ _
        rw [htraces]
        exact fun heq => hnot (Option.some.inj heq)
      · show (tracePreparePesudo ctx).catalogue.lists (tracePreparePesudo ctx).args.traces between
        rw [htraces, hpesudo.lists (some text) hold, ← htext]
        exact hlists

/-- The choice of traces marks those that were named. -/
theorem prepareChoice_ok {ctx after : Context} (h : prepareChoice ctx = .ok after) :
    List.Forall₂ (fun old new : Trace => old.Marked new ∧
      ∀ text ∈ [ctx.args.listed, ctx.args.tracesStack],
        (ctx.forgetExplicit ctx.args.traces.isSome).catalogue.lists text old → new.explicit = true)
      (ctx.forgetExplicit ctx.args.traces.isSome).traces after.traces ∧
    after.catalogue.root = ctx.catalogue.root ∧ after.args.later = ctx.args.later := by
  unfold prepareChoice at h
  simp only [bind_ok, refuse_ok] at h
  obtain ⟨_, -, chosen, hchosen, hafter⟩ := h
  obtain rfl := Except.ok.inj hafter
  obtain ⟨hchoice, hroot, hlater⟩ := chooseTraces_listed hchosen
  have hforgotten : List.Forall₂ (fun old new : Trace => old.Marked new ∧
      ((ctx.forgetExplicit ctx.args.traces.isSome).catalogue.lists ctx.args.listed old →
        new.explicit = true))
      (ctx.forgetExplicit ctx.args.traces.isSome).traces
      (chosen.forgetExplicit ctx.args.traces.isSome).traces ∧
      (chosen.forgetExplicit ctx.args.traces.isSome).catalogue.root =
        (ctx.forgetExplicit ctx.args.traces.isSome).catalogue.root := by
    cases htraces : ctx.args.traces with
    | some text => exact ⟨hchoice, hroot⟩
    | none =>
        refine ⟨List.forall₂_map_left_iff.mpr (List.forall₂_map_right_iff.mpr ?_), hroot⟩
        refine hchoice.imp fun old new hmark => ⟨hmark.1.forget, fun ⟨name, hname, _⟩ => ?_⟩
        have hno : ctx.args.listed = none := by
          unfold TraceArgs.listed
          split
          · rfl
          · exact htraces
        rw [hno] at hname
        cases hname
  obtain ⟨hforgotten, hsameRoot⟩ := hforgotten
  have hmarked : (ctx.forgetExplicit ctx.args.traces.isSome).catalogue.Marked
      (chosen.forgetExplicit ctx.args.traces.isSome).catalogue :=
    ⟨hsameRoot, hforgotten.imp fun _ _ hmark => hmark.1⟩
  have hstack := traceParseTraces_explicit (nofun : Target.stack ≠ .exclude)
    (chosen.forgetExplicit ctx.args.traces.isSome).catalogue ctx.args.tracesStack
  refine ⟨?_, ?_, ?_⟩
  · refine Pointwise.trans (fun {old between new} hold hnew => ?_) hforgotten hstack
    refine ⟨hold.1.trans hnew.1, fun text htext hlists => ?_⟩
    obtain rfl | rfl : text = ctx.args.listed ∨ text = ctx.args.tracesStack := by simpa using htext
    · exact hnew.1.explicit (hold.2 hlists)
    · exact hnew.2 ((hmarked.lists _ hold.1).mpr hlists)
  · exact (Catalogue.Marked.traceParseTraces _ _ _).root.trans
      (hsameRoot.trans (forgetExplicit_marked _ ctx).root.symm)
  · show (chosen.forgetExplicit ctx.args.traces.isSome).args.later = _
    rw [forgetExplicit_args, hlater]

/-- A capture is not of everything, unless that is forced. -/
def Narrowed (ctx : Context) : Prop :=
  ctx.args.force = true ∨ traceHasPktFilter ctx.bpf.pkt = true ∨ ctx.bpf.pid ≠ 0 ∨
    ctx.bpf.uidEnabled = true ∧ ctx.bpf.uid ≠ 0

/-- The filters leave the catalogue and the arguments. -/
theorem prepareFilters_ok {kernel : Kernel} {ctx after : Context}
    (h : prepareFilters kernel ctx = .ok after) :
    after.catalogue = ctx.catalogue ∧ after.args = ctx.args ∧
      (after.bpf.perfetto = true → Narrowed after) := by
  unfold prepareFilters at h
  simp only [bind_ok, refuse_ok] at h
  obtain ⟨_, -, _, -, _, hfilter, _, hroot, hafter⟩ := h
  obtain rfl := Except.ok.inj hafter
  refine ⟨rfl, rfl, fun hperfetto => ?_⟩
  change ctx.bpf.perfetto = true at hperfetto
  simp only [Context.setFilters, hperfetto, Bool.true_and] at hfilter hroot
  change ctx.args.force = true ∨ traceHasPktFilter ctx.bpf.pkt = true ∨ ctx.bpf.pid ≠ 0 ∨
    ctx.bpf.uidEnabled = true ∧ ctx.bpf.uid ≠ 0
  cases hforce : ctx.args.force with
  | true => exact .inl rfl
  | false =>
      cases hpkt : traceHasPktFilter ctx.bpf.pkt with
      | true => exact .inr (.inl rfl)
      | false =>
          simp only [hforce, hpkt, Bool.false_or, Bool.not_false, Bool.and_true, Bool.not_eq_false',
            Bool.or_eq_true, decide_eq_true_eq, Bool.and_eq_false_imp, decide_eq_false_iff_not]
              at hfilter hroot
          by_cases hpid : ctx.bpf.pid = 0
          · have huid := hfilter.resolve_left (not_not.mpr hpid)
            exact .inr (.inr (.inr ⟨huid, fun hzero => hroot (by simp [huid, hzero]) hpid⟩))
          · exact .inr (.inr (.inl hpid))

/-- A trace that another one needs is enabled. -/
theorem require_marked (catalogue : Catalogue) (dependency : Dependency) :
    catalogue.Marked (catalogue.require dependency) := by
  unfold Catalogue.require
  split
  · exact .on dependency.enables .setEnable
  · exact .refl catalogue

/-- The needs of all traces are met by marks. -/
theorem requireAll_marked (dependencies : List Dependency) (catalogue : Catalogue) :
    catalogue.Marked (dependencies.foldl Catalogue.require catalogue) := by
  induction dependencies generalizing catalogue with
  | nil => exact .refl catalogue
  | cons dependency rest ih => exact (require_marked catalogue dependency).trans (ih _)

theorem enableOutput_marked (catalogue : Catalogue) : catalogue.Marked (enableOutput catalogue) :=
  (Catalogue.Marked.on _ .setEnable).trans (requireAll_marked outputDependencies _)

theorem markScheduled_marked (wakeupChain : Bool) (catalogue : Catalogue) :
    List.Forall₂ (fun old new : Trace => old.Marked new ∧
      (wakeupChain = false → old.define ∈ schedTraces → new.isInvalid = true))
      catalogue.traces (markScheduled wakeupChain catalogue).traces := by
  cases wakeupChain with
  | true => exact (Catalogue.Marked.on _ .setEnable).traces.imp fun _ _ hmarked => ⟨hmarked, nofun⟩
  | false =>
      refine Pointwise.map_right fun trace _ => ?_
      by_cases hmem : trace.define ∈ schedTraces
      · rw [if_pos hmem]
        exact ⟨.setInvalidReason trace (by decide), fun _ _ => by
          simp [Trace.setInvalidReason, Trace.isInvalid]⟩
      · rw [if_neg hmem]
        exact ⟨.refl trace, fun _ h => absurd h hmem⟩

/-- The traces of the scheduler are rejected in a capture without the chain of wakeups. -/
theorem traceEnablePerfettoOutput_marked (ctx : Context) :
    List.Forall₂ (fun old new : Trace => old.Marked new ∧
      (ctx.bpf.wakeupChain = false → old.define ∈ schedTraces → new.isInvalid = true))
      ctx.traces (traceEnablePerfettoOutput ctx).traces ∧
    (traceEnablePerfettoOutput ctx).catalogue.root = ctx.catalogue.root := by
  have hsched := markScheduled_marked ctx.bpf.wakeupChain ctx.catalogue
  have hroot : (markScheduled ctx.bpf.wakeupChain ctx.catalogue).root = ctx.catalogue.root := by
    unfold markScheduled
    split <;> rfl
  have hrest := enableOutput_marked (markScheduled ctx.bpf.wakeupChain ctx.catalogue)
  unfold traceEnablePerfettoOutput
  rw [Context.traces, Context.traces, ctx.mark_catalogue]
  dsimp only
  split
  · exact ⟨hsched, hroot⟩
  · refine ⟨?_, hrest.root.trans hroot⟩
    refine Pointwise.trans (fun {old between new} hold hnew => ?_) hsched hrest.traces
    exact ⟨hold.1.trans hnew, fun hchain hmem => hnew.isInvalid (hold.2 hchain hmem)⟩

/-- What is known of a trace after `prepareMarks`, where some lists of the user were read. -/
structure Trace.Kept (ctx : Context) (lists : List (Option (List UInt8))) (catalogue : Catalogue)
    (source new : Trace) : Prop where
  marked : source.Marked new
  named : ∀ text ∈ lists, catalogue.lists text source → new.explicit = true
  excluded : ∀ name ∈ catalogue.heeded ctx.args.traceExclude,
    catalogue.standsFor name source = true → new.isInvalid = true
  scheduled : ctx.bpf.wakeupChain = false → source.define ∈ schedTraces → new.isInvalid = true

section

variable {ctx : Context} {lists : List (Option (List UInt8))} {catalogue : Catalogue}
  {source old new : Trace}

theorem Trace.Kept.more (h : source.Kept ctx lists catalogue old) (hmarked : old.Marked new) :
    source.Kept ctx lists catalogue new :=
  ⟨h.marked.trans hmarked, fun text htext hlists => hmarked.explicit (h.named text htext hlists),
    fun name hname hstands => hmarked.isInvalid (h.excluded name hname hstands),
    fun hchain hmem => hmarked.isInvalid (h.scheduled hchain hmem)⟩

theorem Trace.Kept.read {text : Option (List UInt8)} (h : source.Kept ctx lists catalogue old)
    (hmarked : old.Marked new) (hread : catalogue.lists text source → new.explicit = true) :
    source.Kept ctx (text :: lists) catalogue new := by
  refine { h.more hmarked with named := fun other hother hlists => ?_ }
  obtain rfl | hother := List.mem_cons.mp hother
  · exact hread hlists
  · exact hmarked.explicit (h.named other hother hlists)

end

/-- The marks of the arguments keep what was named. -/
theorem prepareMarks_ok {ctx after : Context} (h : prepareMarks ctx = .ok after) :
    List.Forall₂ (Trace.Kept ctx [ctx.args.traceFree, ctx.args.traceMatcher] ctx.catalogue)
        ctx.traces after.traces ∧
      after.catalogue.root = ctx.catalogue.root ∧ after.args = ctx.args ∧
      after.bpf.perfetto = ctx.bpf.perfetto ∧ after.bpf.wakeupChain = ctx.bpf.wakeupChain ∧
      (Narrowed ctx → Narrowed after) := by
  unfold prepareMarks at h
  simp only [bind_ok, refuse_ok] at h
  obtain ⟨_, -, _, -, hafter⟩ := h
  obtain rfl := Except.ok.inj hafter
  obtain ⟨hsched, hroot⟩ := traceEnablePerfettoOutput_marked ctx
  have hmarked : ctx.catalogue.Marked (traceEnablePerfettoOutput ctx).catalogue :=
    ⟨hroot, hsched.imp fun _ _ h => h.1⟩
  have hexcluded : List.Forall₂ (Trace.Kept ctx [] ctx.catalogue) ctx.traces
      ((traceEnablePerfettoOutput ctx).catalogue.traceParseTraces ctx.args.traceExclude
        .exclude).traces := by
    cases htext : ctx.args.traceExclude with
    | none => exact hsched.imp fun _ _ h => ⟨h.1, nofun, by simp [Catalogue.heeded, htext], h.2⟩
    | some text =>
        refine Pointwise.trans (fun {old between new} hold hnew => ?_) hsched
          (parseNames_excluded _ (strtok text))
        refine ⟨hold.1.trans hnew.1, nofun, fun name hname hstands => ?_,
          fun hchain hmem => hnew.1.isInvalid (hold.2 hchain hmem)⟩
        rw [htext] at hname
        refine hnew.2 name ?_ ((hmarked.standsFor name hold.1).trans hstands)
        rw [← hmarked.heeded] at hname
        exact hname
  have hexclude := hmarked.trans (.traceParseTraces _ ctx.args.traceExclude .exclude)
  -- a list is read in the catalogue that the lists before it leave, whose names are the same
  have hread {catalogue : Catalogue} (lists : List (Option (List UInt8)))
      (text : Option (List UInt8))
      {target : Target} (htarget : target ≠ .exclude) (hmarked : ctx.catalogue.Marked catalogue)
      (hkept : List.Forall₂ (Trace.Kept ctx lists ctx.catalogue) ctx.traces catalogue.traces) :
      List.Forall₂ (Trace.Kept ctx (text :: lists) ctx.catalogue) ctx.traces
        (catalogue.traceParseTraces text target).traces := by
    refine Pointwise.trans (fun {source old new} hold hnew => ?_) hkept
      (traceParseTraces_explicit htarget catalogue text)
    exact hold.read hnew.1 fun hlists => hnew.2 ((hmarked.lists text hold.marked).mpr hlists)
  have hmatched :=
    hread [] ctx.args.traceMatcher (nofun : Target.matcher ≠ .exclude) hexclude hexcluded
  have hmatch := hexclude.trans (.traceParseTraces _ ctx.args.traceMatcher .matcher)
  refine ⟨hread _ ctx.args.traceFree nofun hmatch hmatched, ?_, rfl, rfl, rfl, id⟩
  exact (Catalogue.Marked.traceParseTraces _ ctx.args.traceFree .cfree).root.trans hmatch.root

theorem traceAllSetRet_marked (catalogue : Catalogue) :
    catalogue.Marked (traceAllSetRet catalogue) := by
  refine .each fun trace => ?_
  split
  · exact .setRet trace
  · exact .refl trace

/-- In monitor mode only the traces of monitors stay valid. -/
theorem markMode_marked (args : TraceArgs) (mode : TraceMode) (catalogue : Catalogue) :
    List.Forall₂ (fun old new : Trace => old.Marked new ∧
      (mode = .monitor → new.monitor = 0 → new.isInvalid = true))
      catalogue.traces (markMode args mode catalogue).traces ∧
    (markMode args mode catalogue).root = catalogue.root := by
  have hclone (catalogue : Catalogue) : catalogue.Marked (traceSkbClone args catalogue) := by
    unfold traceSkbClone
    split
    · exact .refl catalogue
    · exact .on _ .setRet
  have hstack : catalogue.Marked (traceDropStack args catalogue) := by
    unfold traceDropStack
    split
    · exact .setTarget catalogue .stack _
    · exact .refl catalogue
  have hother {new : Catalogue} (hmarked : catalogue.Marked new) (hmode : mode ≠ .monitor) :
      List.Forall₂ (fun old new : Trace => old.Marked new ∧
        (mode = .monitor → new.monitor = 0 → new.isInvalid = true)) catalogue.traces new.traces ∧
      new.root = catalogue.root :=
    ⟨hmarked.traces.imp fun _ _ h => ⟨h, fun hmonitor => absurd hmonitor hmode⟩, hmarked.root⟩
  cases mode with
  | diag => exact hother ((traceAllSetRet_marked catalogue).trans (hclone _)) nofun
  | timeline => exact hother (hclone catalogue) nofun
  | latency => exact hother (.on _ fun trace => .setInvalidReason trace (by decide)) nofun
  | drop => exact hother (hstack.trans (.on _ .setEnable)) nofun
  | basic | sock => exact hother (.refl catalogue) nofun
  | rtt => exact hother (.on _ .setEnable) nofun
  | monitor =>
      refine ⟨Pointwise.map_right fun trace _ => ⟨.prepareMonitor trace, fun _ hzero => ?_⟩, rfl⟩
      unfold Trace.prepareMonitor at hzero ⊢
      split
      · simp [Trace.setInvalidReason, Trace.isInvalid]
      · rename_i hmonitor
        rw [if_neg hmonitor] at hzero
        split at hzero <;> exact absurd hzero hmonitor

/-- The mode marks the traces, and the monitor mode rejects those it cannot watch. -/
theorem tracePrepareMode_ok {ctx after : Context} (h : tracePrepareMode ctx = .ok after) :
    List.Forall₂ (fun old new : Trace => old.Marked new ∧
      (ctx.mode = .monitor → new.monitor = 0 → new.isInvalid = true)) ctx.traces after.traces ∧
    after.catalogue.root = ctx.catalogue.root ∧ after.args = ctx.args ∧ after.bpf = ctx.bpf ∧
      after.mode = ctx.mode := by
  obtain ⟨hmarked, hroot⟩ := markMode_marked ctx.args ctx.mode ctx.catalogue
  unfold tracePrepareMode at h
  dsimp only at h
  split at h
  · obtain rfl := Except.ok.inj h
    exact ⟨hmarked, hroot, rfl, rfl, rfl⟩
  · split at h
    · cases h
    · rename_i hmode
      obtain rfl := Except.ok.inj h
      refine ⟨?_, hroot, rfl, rfl, rfl⟩
      refine Pointwise.trans (fun {old between new} hold hnew => ?_) hmarked
        (traceAllSetRet_marked _).traces
      exact ⟨hold.1.trans hnew, fun hmonitor => absurd (hmode.symm.trans hmonitor) nofun⟩
    · obtain rfl := Except.ok.inj h
      exact ⟨hmarked, hroot, rfl, rfl, rfl⟩

/-- Outside captures a trace that lacks what the mode needs is rejected. -/
theorem traceCheckSockSkb_marked (ctx : Context) :
    List.Forall₂ (fun old new : Trace => old.Marked new ∧ new.monitor = old.monitor ∧
      (ctx.bpf.perfetto = false → old.unfit ctx.mode = true → new.isInvalid = true))
      ctx.traces (traceCheckSockSkb ctx).traces := by
  unfold traceCheckSockSkb
  split
  · rename_i hperfetto
    exact List.forall₂_same.mpr fun trace _ =>
      ⟨.refl trace, rfl, fun h => absurd (hperfetto.symm.trans h) nofun⟩
  · refine Pointwise.map_right fun trace _ => ?_
    by_cases hunfit : trace.unfit ctx.mode = true
    · rw [if_pos hunfit]
      exact ⟨.setInvalidReason trace (by decide), rfl, fun _ _ => by
        simp [Trace.setInvalidReason, Trace.isInvalid]⟩
    · rw [if_neg hunfit]
      exact ⟨.refl trace, rfl, fun _ h => absurd h hunfit⟩

theorem traceHasPktFilter_preparePacket {args : TraceArgs} {pkt after : Filter.PktArgs}
    (h : preparePacket args pkt = .ok after) : traceHasPktFilter after = traceHasPktFilter pkt := by
  unfold preparePacket at h
  simp only [bind_ok] at h
  obtain ⟨_, -, _, -, hafter⟩ := h
  obtain rfl := Except.ok.inj hafter
  rfl

/-- What is known of a trace before it is looked up in the kernel. -/
structure Trace.Chosen (ctx : Context) (lists : List (Option (List UInt8))) (catalogue : Catalogue)
    (source new : Trace) : Prop extends source.Kept ctx lists catalogue new where
  fits : ctx.bpf.perfetto = false → ctx.args.fixTrace = false → source.unfit ctx.mode = true →
    new.isInvalid = true
  monitors : ctx.mode = .monitor → new.monitor = 0 → new.isInvalid = true

/-- The test of what the mode needs, where there is one. -/
theorem checked_marked (fixTrace : Bool) (ctx : Context) :
    ∃ checked, (if fixTrace then ctx else traceCheckSockSkb ctx) =
      { ctx with catalogue := checked } ∧
      checked.root = ctx.catalogue.root ∧
      List.Forall₂ (fun old new : Trace => old.Marked new ∧ new.monitor = old.monitor ∧
        (ctx.bpf.perfetto = false → fixTrace = false → old.unfit ctx.mode = true →
          new.isInvalid = true)) ctx.traces checked.traces := by
  cases fixTrace with
  | true =>
      exact ⟨ctx.catalogue, rfl, rfl,
        List.forall₂_same.mpr fun trace _ => ⟨.refl trace, rfl, fun _ => nofun⟩⟩
  | false =>
      have hmarked := traceCheckSockSkb_marked ctx
      have heq : ∃ checked, traceCheckSockSkb ctx = { ctx with catalogue := checked } ∧
          checked.root = ctx.catalogue.root := by
        unfold traceCheckSockSkb
        split
        · exact ⟨_, rfl, rfl⟩
        · exact ⟨_, rfl, rfl⟩
      obtain ⟨checked, heq, hroot⟩ := heq
      rw [heq] at hmarked
      exact ⟨checked, heq, hroot, hmarked.imp fun _ _ h =>
        ⟨h.1, h.2.1, fun hperfetto _ => h.2.2 hperfetto⟩⟩

/-- The trace of round trips only marks the catalogue. -/
theorem setRtt_marked (ctx : Context) : ctx.catalogue.Marked ctx.setRtt.catalogue := by
  unfold Context.setRtt
  split
  · exact .refl ctx.catalogue
  · exact .on _ fun _ => .of_eq rfl rfl rfl id

/-- The preparation of the mode keeps what was named. -/
theorem prepareMode_ok {kernel : Kernel} {ctx after : Context} {lists : List (Option (List UInt8))}
    {catalogue : Catalogue} {sources : List Trace} (h : prepareMode kernel ctx = .ok after)
    (hkept : List.Forall₂ (Trace.Kept ctx lists catalogue) sources ctx.traces) :
    List.Forall₂ (Trace.Chosen after lists catalogue) sources after.traces ∧
      after.catalogue.root = ctx.catalogue.root ∧ traceCheckForce after = false ∧
      after.args.traceExclude = ctx.args.traceExclude ∧
      after.bpf.perfetto = ctx.bpf.perfetto ∧ (Narrowed ctx → Narrowed after) := by
  unfold prepareMode at h
  simp only [bind_ok, refuse_ok] at h
  obtain ⟨_, -, _, -, prepared, hprepared, pkt, hpkt, _, hforce, hafter⟩ := h
  have hsetRtt := setRtt_marked ctx.setMinLatency
  have hstart : ctx.setMinLatency.catalogue = ctx.catalogue ∧
      ctx.setMinLatency.setRtt.args.fixTrace = ctx.args.fixTrace ∧
      ctx.setMinLatency.setRtt.args.force = ctx.args.force ∧
      ctx.setMinLatency.setRtt.args.traceExclude = ctx.args.traceExclude ∧
      ctx.setMinLatency.setRtt.bpf.perfetto = ctx.bpf.perfetto ∧
      ctx.setMinLatency.setRtt.bpf.wakeupChain = ctx.bpf.wakeupChain ∧
      ctx.setMinLatency.setRtt.bpf.pid = ctx.bpf.pid ∧
      ctx.setMinLatency.setRtt.bpf.uidEnabled = ctx.bpf.uidEnabled ∧
      ctx.setMinLatency.setRtt.bpf.uid = ctx.bpf.uid := by
    unfold Context.setMinLatency Context.setRtt
    split <;> split <;> exact ⟨rfl, rfl, rfl, rfl, rfl, rfl, rfl, rfl, rfl⟩
  obtain ⟨hcatalogue, hfix, hforced, hexclude, hperfetto, hchain, hpid, huidEnabled, huid⟩ := hstart
  rw [hcatalogue] at hsetRtt
  generalize ctx.setMinLatency.setRtt = started at *
  obtain ⟨hmarked, hroot, hargs, hbpf, hmode⟩ := tracePrepareMode_ok hprepared
  obtain ⟨checked, hchecked, hsame, hfit⟩ := checked_marked ctx.args.fixTrace prepared
  obtain rfl := Except.ok.inj hafter
  rw [hchecked] at hforce ⊢
  have hstarted :=
    Pointwise.trans (fun {source old new} hold hnew => hold.more hnew) hkept hsetRtt.traces
  have hmoded : List.Forall₂ (fun source old : Trace => source.Kept ctx lists catalogue old ∧
      (started.mode = .monitor → old.monitor = 0 → old.isInvalid = true)) sources prepared.traces :=
    Pointwise.trans (fun {source old new} hold hnew => ⟨hold.more hnew.1, hnew.2⟩) hstarted hmarked
  refine ⟨?_, hsame.trans (hroot.trans hsetRtt.root), hforce, ?_, ?_, ?_⟩
  · refine Pointwise.trans (fun {source old new} hold hnew => ?_) hmoded hfit
    obtain ⟨hold, hmonitor⟩ := hold
    obtain ⟨hmore, hsamely, hunfit⟩ := hnew
    have hnew := hold.more hmore
    refine ⟨⟨hnew.marked, hnew.named, ?_, ?_⟩, ?_, ?_⟩
    · change ∀ name ∈ catalogue.heeded prepared.args.traceExclude, _
      rw [hargs, hexclude]
      exact hnew.excluded
    · change prepared.bpf.wakeupChain = false → _
      rw [hbpf, hchain]
      exact hnew.scheduled
    · change prepared.bpf.perfetto = false → prepared.args.fixTrace = false →
        source.unfit prepared.mode = true → _
      rw [hargs, hfix]
      intro hperfetto hnot hsource
      exact hunfit hperfetto hnot ((hold.marked.unfit prepared.mode).trans hsource)
    · change prepared.mode = .monitor → _
      rw [hmode]
      intro hmonitoring hzero
      exact hmore.isInvalid (hmonitor hmonitoring (hsamely.symm.trans hzero))
  · change prepared.args.traceExclude = _
    rw [hargs, hexclude]
  · change prepared.bpf.perfetto = _
    rw [hbpf, hperfetto]
  · rw [Narrowed, Narrowed]
    change _ → prepared.args.force = true ∨ traceHasPktFilter pkt = true ∨ prepared.bpf.pid ≠ 0 ∨
      prepared.bpf.uidEnabled = true ∧ prepared.bpf.uid ≠ 0
    rw [traceHasPktFilter_preparePacket hpkt, hargs, hbpf, hforced, hpid, huidEnabled, huid]
    exact id

/-- The lists in which the user names traces. -/
def TraceArgs.lists (args : TraceArgs) : List (Option (List UInt8)) :=
  [args.listed, args.tracesStack, args.traceMatcher, args.traceFree]

/-- The arguments choose traces: what was named carries its mark. -/
theorem tracePrepareArgs_ok {kernel : Kernel} {ctx after : Context}
    (h : tracePrepareArgs kernel ctx = .ok after) :
    List.Forall₂
        (Trace.Chosen after ctx.args.lists (ctx.forgetExplicit ctx.args.traces.isSome).catalogue)
        (ctx.forgetExplicit ctx.args.traces.isSome).traces after.traces ∧
      after.catalogue.root = ctx.catalogue.root ∧ traceCheckForce after = false ∧
      after.args.traceExclude = ctx.args.traceExclude ∧
      (after.bpf.perfetto = true → Narrowed after) := by
  unfold tracePrepareArgs at h
  simp only [bind_ok] at h
  obtain ⟨chosen, hchosen, filtered, hfiltered, marked, hmarked, hafter⟩ := h
  obtain ⟨hchoice, hchoiceRoot, hlater⟩ := prepareChoice_ok hchosen
  obtain ⟨hcatalogue, hargs, hnarrowed⟩ := prepareFilters_ok hfiltered
  obtain ⟨hkept, hroot, hsameArgs, hperfetto, hchain, hnarrow⟩ := prepareMarks_ok hmarked
  rw [Context.traces, hcatalogue] at hkept
  have hstart : (ctx.forgetExplicit ctx.args.traces.isSome).catalogue.Marked chosen.catalogue :=
    ⟨hchoiceRoot.trans (forgetExplicit_marked _ ctx).root, hchoice.imp fun _ _ h => h.1⟩
  simp only [TraceArgs.later, List.cons.injEq, and_true] at hlater
  obtain ⟨hexclude, hmatcher, hfree⟩ := hlater
  have hall : List.Forall₂
      (Trace.Kept marked ctx.args.lists (ctx.forgetExplicit ctx.args.traces.isSome).catalogue)
      (ctx.forgetExplicit ctx.args.traces.isSome).traces marked.traces := by
    refine Pointwise.trans (fun {source old new} hold hnew => ?_) hchoice hkept
    refine ⟨hold.1.trans hnew.marked, fun text htext hlists => ?_, fun name hname hstands => ?_,
      fun hoff hmem => ?_⟩
    · obtain hearly | hlate : text ∈ [ctx.args.listed, ctx.args.tracesStack] ∨
          text ∈ [filtered.args.traceFree, filtered.args.traceMatcher] := by
        rw [hargs, hmatcher, hfree]
        simp only [TraceArgs.lists, List.mem_cons, List.not_mem_nil, or_false] at htext ⊢
        tauto
      · exact hnew.marked.explicit (hold.2 text hearly hlists)
      · exact hnew.named text hlate ((hstart.lists text hold.1).mpr hlists)
    · refine hnew.excluded name ?_ ((hstart.standsFor name hold.1).trans hstands)
      rw [hstart.heeded, ← hsameArgs]
      exact hname
    · exact hnew.scheduled (hchain.symm.trans hoff) (hold.1.define ▸ hmem)
  obtain ⟨hfinal, hlast, hforce, hsame, hstill, hmore⟩ := prepareMode_ok hafter hall
  refine ⟨hfinal, ?_, hforce, ?_, fun hon => hmore (hnarrow (hnarrowed ?_))⟩
  · rw [hlast, hroot, hcatalogue, hchoiceRoot]
  · rw [hsame, hsameArgs, hargs, hexclude]
  · rw [← hperfetto, ← hstill]
    exact hon

end Anettrace.Selection
