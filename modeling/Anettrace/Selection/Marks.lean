import Anettrace.Library.Fallible
import Anettrace.Library.Pointwise
import Anettrace.Selection.Arguments

/-!
# Marks on traces

Whatever `trace_prepare_args` does to the catalogue, it only adds marks: a trace that is invalid
stays invalid, and one that is enabled stays enabled.
-/

namespace Anettrace.Selection

open Library Library.Fallible

@[simp] theorem Context.mark_catalogue (ctx : Context) (change : Catalogue → Catalogue) :
    (ctx.mark change).catalogue = change ctx.catalogue :=
  rfl

/-- A trace without the marks that `trace_prepare_args` adds. -/
def Trace.unmarked (trace : Trace) : Trace :=
  { trace with
    monitor := 0
    enable := false
    invalid := []
    ret := false
    stack := false
    retOnly := false
    cfree := false
    explicit := false
    func := {} }

/-- Why a trace is made invalid before it is looked up in the kernel. -/
def earlyReasons : List String :=
  ["exclude", "wakeup-chain disabled", "latency", "monitor", "sock or sk mode", "cond"]

/-- Marks were added to a trace. -/
structure Trace.Marked (old new : Trace) : Prop where
  unmarked : new.unmarked = old.unmarked
  enable : old.enable = true → new.enable = true
  invalid : ∃ added, new.invalid = old.invalid ++ added ∧ ∀ reason ∈ added, reason ∈ earlyReasons
  explicit : old.explicit = true → new.explicit = true

namespace Trace.Marked

variable {old new last : Trace}

theorem refl (trace : Trace) : trace.Marked trace :=
  ⟨rfl, id, ⟨[], by simp, by simp⟩, id⟩

/-- Marks follow one another. -/
theorem trans (hfirst : old.Marked new) (hsecond : new.Marked last) : old.Marked last := by
  obtain ⟨first, hinvalid, hreasons⟩ := hfirst.invalid
  obtain ⟨second, hmore, hothers⟩ := hsecond.invalid
  refine ⟨hsecond.unmarked.trans hfirst.unmarked, fun h => hsecond.enable (hfirst.enable h),
    ⟨first ++ second, by rw [hmore, hinvalid, List.append_assoc], ?_⟩,
    fun h => hsecond.explicit (hfirst.explicit h)⟩
  intro reason hmem
  obtain hmem | hmem := List.mem_append.mp hmem
  · exact hreasons reason hmem
  · exact hothers reason hmem

/-- No mark makes a trace valid again. -/
theorem isInvalid (h : old.Marked new) (hinvalid : old.isInvalid = true) :
    new.isInvalid = true := by
  obtain ⟨added, hadded, -⟩ := h.invalid
  simp only [Trace.isInvalid, decide_eq_true_eq] at hinvalid ⊢
  simp [hadded, hinvalid]

theorem define (h : old.Marked new) : new.define = old.define :=
  (congrArg Trace.define h.unmarked :)

theorem name (h : old.Marked new) : new.name = old.name :=
  (congrArg Trace.name h.unmarked :)

theorem unfit (h : old.Marked new) (mode : TraceMode) : new.unfit mode = old.unfit mode :=
  (congrArg (Trace.unfit mode) h.unmarked :)

/-- A mark that says nothing of the log, of what is enabled, and of what a trace is. -/
theorem of_eq (hunmarked : new.unmarked = old.unmarked) (henable : new.enable = old.enable)
    (hinvalid : new.invalid = old.invalid) (hexplicit : old.explicit = true → new.explicit = true) :
    old.Marked new :=
  ⟨hunmarked, fun h => henable.trans h, ⟨[], by simp [hinvalid], by simp⟩, hexplicit⟩

theorem setEnable (trace : Trace) : trace.Marked trace.setEnable :=
  ⟨rfl, fun _ => rfl, ⟨[], by simp [Trace.setEnable], by simp⟩, id⟩

/-- A trace is rejected before the look-up. -/
theorem setInvalidReason (trace : Trace) {reason : String} (h : reason ∈ earlyReasons) :
    trace.Marked (trace.setInvalidReason reason) :=
  ⟨rfl, id, ⟨[reason], rfl, by simpa using h⟩, id⟩

theorem setRet (trace : Trace) : trace.Marked trace.setRet :=
  of_eq rfl rfl rfl id

theorem setRx (trace : Trace) : trace.Marked trace.setRx :=
  of_eq rfl rfl rfl id

theorem setTx (trace : Trace) : trace.Marked trace.setTx :=
  of_eq rfl rfl rfl id

/-- A trace that was named is marked with what it was named for. -/
theorem setTarget (target : Target) (trace : Trace) : trace.Marked (trace.setTarget target) := by
  cases target with
  | enable => exact setEnable trace
  | exclude => exact setInvalidReason trace (by decide)
  | stack | matcher | cfree => exact of_eq rfl rfl rfl id

theorem setExplicit (target : Target) (trace : Trace) :
    trace.Marked (trace.setExplicit target) := by
  unfold Trace.setExplicit
  split
  · exact refl trace
  · exact of_eq rfl rfl rfl fun _ => rfl

theorem prepareMonitor (trace : Trace) : trace.Marked trace.prepareMonitor := by
  unfold Trace.prepareMonitor
  split
  · exact setInvalidReason trace (by decide)
  · split
    · exact of_eq rfl rfl rfl id
    · exact refl trace

/-- A mark stays one where what is explicit is forgotten on both sides. -/
theorem forget (h : old.Marked new) :
    Trace.Marked { old with explicit := false } { new with explicit := false } :=
  ⟨h.unmarked, h.enable, h.invalid, id⟩

end Trace.Marked

theorem traceGroupEnable_traces {catalogue new : Catalogue} {name : List UInt8} {target : Target}
    (h : catalogue.traceGroupEnable name target = some new) :
    ∃ mark : Trace → Trace, new.traces = catalogue.traces.map mark ∧ new.root = catalogue.root ∧
      ∀ trace, mark trace = trace ∨ mark trace = trace.setTarget target ∨
        mark trace = (trace.setExplicit target).setTarget target := by
  unfold Catalogue.traceGroupEnable at h
  split at h
  case h_2 group hgroup =>
    obtain rfl := Option.some.inj h
    refine ⟨_, rfl, rfl, fun trace => ?_⟩
    split
    · exact .inr (.inl rfl)
    · exact .inl rfl
  case h_1 hgroup =>
    unfold Catalogue.traceEnable at h
    split at h
    case isFalse => cases h
    case isTrue =>
      obtain rfl := Option.some.inj h
      refine ⟨_, List.map_map, rfl, fun trace => ?_⟩
      dsimp only [Function.comp_apply]
      by_cases hname : trace.name = name
      · have hkept : (trace.setExplicit target).name = name := by
          unfold Trace.setExplicit
          split <;> exact hname
        rw [if_pos hname, if_pos (by simpa using hkept)]
        exact .inr (.inr rfl)
      · rw [if_neg hname, if_neg (by simpa using hname)]
        exact .inl rfl

/-- Marks were added to the traces of a catalogue. -/
structure Catalogue.Marked (old new : Catalogue) : Prop where
  root : new.root = old.root
  traces : List.Forall₂ Trace.Marked old.traces new.traces

/-- A name of a group, or of a trace. -/
def Catalogue.known (catalogue : Catalogue) (name : List UInt8) : Bool :=
  (catalogue.root.search name).isSome || catalogue.traces.any fun trace => trace.name = name

def Catalogue.standsFor (catalogue : Catalogue) (name : List UInt8) (trace : Trace) : Bool :=
  match catalogue.root.search name with
  | some group => trace.define ∈ group.members
  | none => trace.name = name

/-- The names of a list that have an effect: those before the first that is not known. -/
def Catalogue.heeded (catalogue : Catalogue) (text : Option (List UInt8)) : List (List UInt8) :=
  ((text.map strtok).getD []).takeWhile catalogue.known

namespace Catalogue.Marked

variable {old new last catalogue : Catalogue}

theorem refl (catalogue : Catalogue) : catalogue.Marked catalogue :=
  ⟨rfl, List.forall₂_same.mpr fun trace _ => .refl trace⟩

/-- Marks of a catalogue follow one another. -/
theorem trans (hfirst : old.Marked new) (hsecond : new.Marked last) : old.Marked last :=
  ⟨hsecond.root.trans hfirst.root,
    Pointwise.trans (fun hmark hmore => hmark.trans hmore) hfirst.traces hsecond.traces⟩

theorem each {mark : Trace → Trace} (h : ∀ trace : Trace, trace.Marked (mark trace)) :
    catalogue.Marked (catalogue.each mark) :=
  ⟨rfl, Pointwise.map_right fun trace _ => h trace⟩

theorem on {mark : Trace → Trace} (defines : List String)
    (h : ∀ trace : Trace, trace.Marked (mark trace)) :
    catalogue.Marked (catalogue.on defines mark) := by
  refine each fun trace => ?_
  split
  · exact h trace
  · exact .refl trace

theorem setTarget (catalogue : Catalogue) (target : Target) (chosen : Trace → Bool) :
    catalogue.Marked (catalogue.setTarget target chosen) := by
  refine ⟨rfl, Pointwise.map_right fun trace _ => ?_⟩
  split
  · exact .setTarget target trace
  · exact .refl trace

theorem known (h : old.Marked new) (name : List UInt8) : new.known name = old.known name := by
  unfold Catalogue.known
  rw [h.root]
  congr 1
  refine (Pointwise.any_eq h.traces fun {trace marked} hmarked => ?_).symm
  rw [hmarked.name]

theorem heeded (h : old.Marked new) (text : Option (List UInt8)) :
    new.heeded text = old.heeded text := by
  unfold Catalogue.heeded
  rw [funext h.known]

theorem standsFor (h : old.Marked new) (name : List UInt8) {trace marked : Trace}
    (hmarked : trace.Marked marked) :
    new.standsFor name marked = old.standsFor name trace := by
  unfold Catalogue.standsFor
  rw [h.root, hmarked.define, hmarked.name]

theorem traceGroupEnable {name : List UInt8} {target : Target}
    (h : catalogue.traceGroupEnable name target = some new) : catalogue.Marked new := by
  obtain ⟨mark, htraces, hroot, hmark⟩ := traceGroupEnable_traces h
  refine ⟨hroot, htraces ▸ Pointwise.map_right fun trace _ => ?_⟩
  obtain heq | heq | heq := hmark trace
  · rw [heq]
    exact .refl trace
  · rw [heq]
    exact .setTarget target trace
  · rw [heq]
    exact (Trace.Marked.setExplicit target trace).trans (.setTarget target _)

/-- Reading names only marks traces. -/
theorem parseNames (catalogue : Catalogue) (target : Target) (names : List (List UInt8)) :
    catalogue.Marked (catalogue.parseNames target names) := by
  induction names generalizing catalogue with
  | nil => exact refl catalogue
  | cons name rest ih =>
      unfold Catalogue.parseNames
      split
      · exact refl catalogue
      · exact (traceGroupEnable (by assumption)).trans (ih _)

theorem traceParseTraces (catalogue : Catalogue) (text : Option (List UInt8)) (target : Target) :
    catalogue.Marked (catalogue.traceParseTraces text target) := by
  unfold Catalogue.traceParseTraces
  split
  · exact refl catalogue
  · exact parseNames catalogue target _

end Catalogue.Marked

/-! ## Exclusions -/

/-- A name has an effect exactly if it is known. -/
theorem traceGroupEnable_isSome (catalogue : Catalogue) (name : List UInt8) (target : Target) :
    (catalogue.traceGroupEnable name target).isSome = catalogue.known name := by
  unfold Catalogue.traceGroupEnable Catalogue.known Catalogue.traceEnable
  cases catalogue.root.search name with
  | some group => rfl
  | none =>
      dsimp only
      split <;> simp_all

theorem traceGroupEnable_excluded {catalogue marked : Catalogue} {name : List UInt8}
    (h : catalogue.traceGroupEnable name .exclude = some marked) :
    List.Forall₂ (fun old new : Trace => old.Marked new ∧
      (catalogue.standsFor name old = true → new.isInvalid = true)) catalogue.traces
        marked.traces := by
  have hmark (chosen : Trace → Bool) (trace : Trace) :
      let new := if chosen trace then trace.setTarget .exclude else trace
      trace.Marked new ∧ (chosen trace = true → new.isInvalid = true) := by
    dsimp only
    split
    · exact ⟨.setTarget .exclude trace, fun _ => by
        simp [Trace.setTarget, Trace.setInvalidReason, Trace.isInvalid]⟩
    · exact ⟨.refl trace, fun hchosen => absurd hchosen (by assumption)⟩
  unfold Catalogue.traceGroupEnable at h
  split at h
  case h_2 group hgroup =>
    obtain rfl := Option.some.inj h
    refine Pointwise.map_right fun trace _ => ?_
    unfold Catalogue.standsFor
    rw [hgroup]
    exact hmark (fun trace => trace.define ∈ group.members) trace
  case h_1 hgroup =>
    unfold Catalogue.traceEnable at h
    split at h
    case isFalse => cases h
    case isTrue =>
      obtain rfl := Option.some.inj h
      unfold Catalogue.standsFor
      rw [hgroup]
      change List.Forall₂ _ _ ((catalogue.traces.map _).map _)
      rw [List.map_map]
      refine Pointwise.map_right fun trace _ => ?_
      have htold : (if trace.name = name then trace.setExplicit .exclude else trace) = trace :=
        ite_id trace
      dsimp only [Function.comp_apply]
      rw [htold]
      exact hmark (fun trace => trace.name = name) trace

/-- If each name of a list marks the traces that it stands for, and no later mark takes that back,
all the names that are heeded do. -/
theorem parseNames_heeded {target : Target} {P : Trace → Prop}
    {S : Catalogue → List UInt8 → Trace → Prop}
    (hkept : ∀ {old new : Trace}, old.Marked new → P old → P new)
    (hstands : ∀ {old new : Catalogue} {trace marked : Trace} {name : List UInt8},
      old.Marked new → trace.Marked marked → S old name trace → S new name marked)
    (hname : ∀ {catalogue marked : Catalogue} {name : List UInt8},
      catalogue.traceGroupEnable name target = some marked →
      List.Forall₂ (fun old new : Trace => old.Marked new ∧ (S catalogue name old → P new))
        catalogue.traces marked.traces) (catalogue : Catalogue) (names : List (List UInt8)) :
    List.Forall₂ (fun old new : Trace => old.Marked new ∧
      ∀ name ∈ names.takeWhile catalogue.known, S catalogue name old → P new)
      catalogue.traces (catalogue.parseNames target names).traces := by
  induction names generalizing catalogue with
  | nil => exact List.forall₂_same.mpr fun trace _ => ⟨.refl trace, by simp⟩
  | cons name rest ih =>
      have hsome := traceGroupEnable_isSome catalogue name target
      unfold Catalogue.parseNames
      cases hmarked : catalogue.traceGroupEnable name target with
      | none =>
          rw [hmarked, Option.isSome_none] at hsome
          refine List.forall₂_same.mpr fun trace _ => ⟨.refl trace, ?_⟩
          rw [List.takeWhile_cons, ← hsome]
          simp
      | some marked =>
          rw [hmarked, Option.isSome_some] at hsome
          have hmark := Catalogue.Marked.traceGroupEnable hmarked
          have hknown : marked.known = catalogue.known := funext hmark.known
          rw [List.takeWhile_cons_of_pos hsome.symm]
          refine Pointwise.trans (fun {old between new} hold hnew => ?_) (hname hmarked) (ih marked)
          refine ⟨hold.1.trans hnew.1, fun other hother htold => ?_⟩
          obtain rfl | hother := List.mem_cons.mp hother
          · exact hkept hnew.1 (hold.2 htold)
          · exact hnew.2 other (hknown ▸ hother) (hstands hmark hold.1 htold)

theorem parseNames_excluded (catalogue : Catalogue) (names : List (List UInt8)) :
    List.Forall₂ (fun old new : Trace => old.Marked new ∧
      ∀ name ∈ names.takeWhile catalogue.known, catalogue.standsFor name old = true →
        new.isInvalid = true) catalogue.traces (catalogue.parseNames .exclude names).traces :=
  parseNames_heeded (P := fun trace => trace.isInvalid = true)
    (S := fun catalogue name trace => catalogue.standsFor name trace = true)
    (fun hmarked => hmarked.isInvalid)
    (fun hmark hmarked hstands => (hmark.standsFor _ hmarked).trans hstands)
    traceGroupEnable_excluded catalogue names

/-! ## Names of traces -/

def Catalogue.names (catalogue : Catalogue) (name : List UInt8) (trace : Trace) : Prop :=
  catalogue.root.search name = none ∧ trace.name = name

/-- A list names a trace itself, before any name that is not known. -/
def Catalogue.lists (catalogue : Catalogue) (text : Option (List UInt8)) (trace : Trace) : Prop :=
  ∃ name ∈ catalogue.heeded text, catalogue.names name trace

theorem Catalogue.Marked.names {old new : Catalogue} (h : old.Marked new) (name : List UInt8)
    {trace marked : Trace} (hmarked : trace.Marked marked) :
    new.names name marked ↔ old.names name trace := by
  unfold Catalogue.names
  rw [h.root, hmarked.name]

theorem Catalogue.Marked.lists {old new : Catalogue} (h : old.Marked new)
    (text : Option (List UInt8)) {trace marked : Trace} (hmarked : trace.Marked marked) :
    new.lists text marked ↔ old.lists text trace := by
  unfold Catalogue.lists
  rw [h.heeded]
  exact exists_congr fun name => and_congr_right fun _ => h.names name hmarked

theorem Trace.setTarget_explicit (target : Target) (trace : Trace) :
    (trace.setTarget target).explicit = trace.explicit := by
  cases target <;> rfl

/-- The traces that a name is given to are explicit, unless they are excluded. -/
theorem traceGroupEnable_explicit {catalogue marked : Catalogue} {name : List UInt8}
    {target : Target}
    (htarget : target ≠ .exclude) (h : catalogue.traceGroupEnable name target = some marked) :
    List.Forall₂ (fun old new : Trace => old.Marked new ∧
      (catalogue.names name old → new.explicit = true)) catalogue.traces marked.traces := by
  unfold Catalogue.traceGroupEnable at h
  split at h
  case h_2 group hgroup =>
    obtain rfl := Option.some.inj h
    exact (Catalogue.Marked.setTarget catalogue target _).traces.imp fun _ _ hmarked =>
      ⟨hmarked, fun hnames => absurd (hgroup.symm.trans hnames.1) nofun⟩
  case h_1 hgroup =>
    unfold Catalogue.traceEnable at h
    split at h
    case isFalse => cases h
    case isTrue =>
      obtain rfl := Option.some.inj h
      show List.Forall₂ _ _ ((catalogue.traces.map _).map _)
      rw [List.map_map]
      refine Pointwise.map_right fun trace _ => ?_
      dsimp only [Function.comp_apply]
      have hset : (trace.setExplicit target).name = trace.name := by
        unfold Trace.setExplicit
        split <;> rfl
      by_cases hname : trace.name = name
      · rw [if_pos hname, if_pos (by simpa [hset] using hname)]
        refine ⟨(Trace.Marked.setExplicit target trace).trans (.setTarget target _), fun _ => ?_⟩
        rw [Trace.setTarget_explicit, Trace.setExplicit, if_neg htarget]
      · rw [if_neg hname, if_neg (by simpa using hname)]
        exact ⟨.refl trace, fun hnames => absurd hnames.2 hname⟩

/-- Every trace that a heeded name of a list is given to is explicit. -/
theorem traceParseTraces_explicit {target : Target} (htarget : target ≠ .exclude)
    (catalogue : Catalogue) (text : Option (List UInt8)) :
    List.Forall₂ (fun old new : Trace => old.Marked new ∧
      (catalogue.lists text old → new.explicit = true))
      catalogue.traces (catalogue.traceParseTraces text target).traces := by
  unfold Catalogue.traceParseTraces Catalogue.lists Catalogue.heeded
  cases text with
  | none => exact List.forall₂_same.mpr fun trace _ => ⟨.refl trace, by simp⟩
  | some text =>
      have hnames :=
        parseNames_heeded (P := fun trace => trace.explicit = true) (S := Catalogue.names)
        (fun hmarked => hmarked.explicit) (fun hmark hmarked => (hmark.names _ hmarked).mpr)
        (traceGroupEnable_explicit htarget) catalogue (strtok text)
      exact hnames.imp fun _ _ h => ⟨h.1, fun ⟨name, hname, hgiven⟩ => h.2 name hname hgiven⟩

end Anettrace.Selection
