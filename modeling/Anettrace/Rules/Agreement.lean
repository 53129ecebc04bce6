import Anettrace.Rules.Model

/-!
# The exit filter and the rules

What the exit program lets through of a return value, in terms of the rules of the function. The
array has eight slots and the switch of the exit program has no case for a range, so that the two
readers agree as long as the rules fit into the slots, and on the values for which a rule in front
of the first range decides.
-/

namespace Anettrace.Rules

def kept (rules : List Rule) : List Rule := rules.filter (·.level ≠ .info)

@[simp] theorem mem_kept {rules : List Rule} {rule : Rule} :
    rule ∈ kept rules ↔ rule ∈ rules ∧ rule.level ≠ .info := by
  simp [kept]

/-- Values in the first slots, and zeros behind them. -/
def Filled (slots : Fin maxRuleCount → Int32) (values : List Int32) : Prop :=
  ∀ i, slots i = (values[i.val]?).getD 0

theorem Filled.update {slots : Fin maxRuleCount → Int32} {values : List Int32}
    (h : Filled slots values) (hroom : values.length < maxRuleCount) (value : Int32) :
    Filled (Function.update slots ⟨values.length, hroom⟩ value) (values ++ [value]) := by
  intro i
  by_cases hi : i = ⟨values.length, hroom⟩
  · subst hi
    simp
  · have hne : i.val ≠ values.length := fun heq => hi (Fin.ext heq)
    rw [Function.update_of_ne hi, h i]
    rcases Nat.lt_or_gt_of_ne hne with hlt | hgt
    · rw [List.getElem?_append_left hlt]
    · rw [List.getElem?_eq_none (by omega), List.getElem?_eq_none (by simp; omega)]

/-- The slots hold a list of rules. -/
structure Holds (slots : RulesRet) (rules : List Rule) : Prop where
  op : Filled slots.op (rules.map (·.type.code))
  expected : Filled slots.expected (rules.map (·.expected))

theorem holds_zero : Holds RulesRet.zero [] := ⟨fun _ => rfl, fun _ => rfl⟩

theorem Holds.store {slots : RulesRet} {rules : List Rule} (h : Holds slots rules) (rule : Rule)
    (hroom : rules.length < maxRuleCount) :
    ∃ after, slots.store rules.length rule.expected rule.type.code = some after ∧
      Holds after (rules ++ [rule]) := by
  refine ⟨_, dif_pos hroom, ?_, ?_⟩
  · have hop := h.op.update (by simpa using hroom) rule.type.code
    simpa using hop
  · have hexpected := h.expected.update (by simpa using hroom) rule.expected
    simpa using hexpected

/-- The loop over the rules stores those that are not informative, and runs out of the slots exactly
where these are too many. -/
theorem loadRules_spec {slots : RulesRet} {before : List Rule} (h : Holds slots before)
    (hfits : before.length ≤ maxRuleCount) (rules : List Rule) :
    (before.length + (kept rules).length ≤ maxRuleCount →
      ∃ after, loadRules slots before.length rules =
          some (after, before.length + (kept rules).length) ∧
        Holds after (before ++ kept rules)) ∧
    (maxRuleCount < before.length + (kept rules).length →
      loadRules slots before.length rules = none) := by
  induction rules generalizing slots before with
  | nil =>
      refine ⟨fun _ => ⟨slots, rfl, by simpa [kept] using h⟩, fun hmany => ?_⟩
      simp [kept] at hmany
      omega
  | cons rule rest ih =>
      unfold loadRules
      by_cases hinfo : rule.level = .info
      · have hkept : kept (rule :: rest) = kept rest := by simp [kept, hinfo]
        rw [if_pos hinfo, hkept]
        exact ih h hfits
      · have hkept : kept (rule :: rest) = rule :: kept rest := by simp [kept, hinfo]
        rw [if_neg hinfo, hkept]
        by_cases hroom : before.length < maxRuleCount
        · obtain ⟨after, hstore, hholds⟩ := h.store rule hroom
          obtain ⟨hload, hfail⟩ := ih hholds (by rw [List.length_append]; exact hroom)
          simp only [List.length_append, List.length_cons, List.length_nil,
            List.append_assoc, List.singleton_append] at hload hfail ⊢
          rw [hstore]
          refine ⟨fun hall => ?_, fun hmany => hfail (by omega)⟩
          obtain ⟨final, hfinal, hheld⟩ := hload (by omega)
          refine ⟨final, ?_, hheld⟩
          rw [show before.length + ((kept rest).length + 1) =
            before.length + 1 + (kept rest).length by omega]
          exact hfinal
        · have hstore : slots.store before.length rule.expected rule.type.code = none :=
            dif_neg hroom
          rw [hstore]
          refine ⟨fun hall => ?_, fun _ => rfl⟩
          simp only [List.length_cons] at hall
          omega

/-- What the slots of a function hold after the loader: its rules, or the one that lets every value
through. -/
def slotRules (trace : Trace) : List Rule :=
  if kept trace.rules = [] then [⟨.info, .any, 0, 0⟩] else kept trace.rules

/-- The rules of a trace fit into the slots, if they are loaded at all. -/
def Trace.fits (trace : Trace) : Prop :=
  trace.loaded = true → (kept trace.rules).length ≤ maxRuleCount

instance (trace : Trace) : Decidable trace.fits :=
  inferInstanceAs (Decidable (_ → _))

theorem loadTrace_fits {trace : Trace} (hloaded : trace.loaded = true) (hfits : trace.fits) :
    ∃ slots, loadTrace RulesRet.zero trace = some slots ∧ Holds slots (slotRules trace) := by
  obtain ⟨hload, -⟩ := loadRules_spec holds_zero (Nat.zero_le _) trace.rules
  simp only [List.length_nil, Nat.zero_add, List.nil_append] at hload
  obtain ⟨after, hafter, hholds⟩ := hload (hfits hloaded)
  unfold loadTrace slotRules
  rw [if_pos hloaded, hafter]
  by_cases hnone : kept trace.rules = []
  · rw [hnone] at hholds ⊢
    have hzero : after.expected ⟨0, by decide⟩ = 0 := hholds.expected _
    obtain ⟨slots, hstore, hheld⟩ := hholds.store ⟨.info, .any, 0, 0⟩ (by decide)
    refine ⟨slots, ?_, by simpa using hheld⟩
    simpa [hzero] using hstore
  · rw [if_neg hnone]
    refine ⟨after, ?_, hholds⟩
    simp [hnone]

theorem loadTrace_not_fits {trace : Trace} (hmany : ¬ trace.fits) :
    loadTrace RulesRet.zero trace = none := by
  unfold Trace.fits at hmany
  push Not at hmany
  obtain ⟨-, hfail⟩ := loadRules_spec holds_zero (Nat.zero_le _) trace.rules
  unfold loadTrace
  rw [if_pos hmany.1]
  simp only [List.length_nil, Nat.zero_add] at hfail
  rw [hfail hmany.2]
  rfl

theorem loadTrace_other {trace : Trace} {slots : RulesRet} (h : trace.loaded = false) :
    loadTrace slots trace = some slots := by
  simp [loadTrace, h]

theorem tracingLoadFrom_frame {traces : List Trace} {rulesAll final : Nat → RulesRet}
    {index at' : Nat}
    (h : tracingLoadFrom rulesAll index traces = some final) (hbefore : at' < index) :
    final at' = rulesAll at' := by
  induction traces generalizing rulesAll index with
  | nil => rw [← Option.some.inj h]
  | cons trace rest ih =>
      obtain ⟨slots, -, hrest⟩ := Option.bind_eq_some_iff.mp h
      rw [ih hrest (by omega), Function.update_of_ne (by omega)]

/-- The loader ends inside of the arrays exactly if the rules of every trace fit. -/
theorem tracingLoadFrom_isSome {traces : List Trace} {rulesAll : Nat → RulesRet} {index : Nat}
    (hzero : ∀ i, index ≤ i → rulesAll i = RulesRet.zero) :
    (∃ final, tracingLoadFrom rulesAll index traces = some final) ↔
      ∀ trace ∈ traces, trace.fits := by
  induction traces generalizing rulesAll index with
  | nil => simp [tracingLoadFrom]
  | cons trace rest ih =>
      unfold tracingLoadFrom
      rw [hzero index (Nat.le_refl _), List.forall_mem_cons]
      have hlater : ∀ slots i, index + 1 ≤ i →
          Function.update rulesAll index slots i = RulesRet.zero := fun slots i hi => by
        rw [Function.update_of_ne (by omega), hzero i (by omega)]
      by_cases hfits : trace.fits
      · have hsome : ∃ slots, loadTrace RulesRet.zero trace = some slots := by
          by_cases hloaded : trace.loaded = true
          · obtain ⟨slots, hslots, -⟩ := loadTrace_fits hloaded hfits
            exact ⟨slots, hslots⟩
          · exact ⟨_, loadTrace_other (Bool.eq_false_of_not_eq_true hloaded)⟩
        obtain ⟨slots, hslots⟩ := hsome
        rw [hslots]
        exact (ih (hlater slots)).trans (by simp [hfits])
      · rw [loadTrace_not_fits hfits]
        simp [hfits]

theorem tracingLoadFrom_holds {traces : List Trace} {rulesAll final : Nat → RulesRet}
    {index position : Nat} {trace : Trace} (hzero : ∀ i, index ≤ i → rulesAll i = RulesRet.zero)
    (h : tracingLoadFrom rulesAll index traces = some final)
    (hat : traces[position]? = some trace) (hloaded : trace.loaded = true) :
    Holds (final (index + position)) (slotRules trace) := by
  have hall := (tracingLoadFrom_isSome hzero).mp ⟨final, h⟩
  induction traces generalizing rulesAll index position with
  | nil => cases hat
  | cons first rest ih =>
      obtain ⟨slots, hslots, hrest⟩ := Option.bind_eq_some_iff.mp h
      rw [hzero index (Nat.le_refl _)] at hslots
      cases position with
      | zero =>
          obtain rfl : first = trace := Option.some.inj hat
          obtain ⟨held, hheld, hholds⟩ := loadTrace_fits hloaded (hall first List.mem_cons_self)
          rw [tracingLoadFrom_frame hrest (by omega)]
          obtain rfl : held = slots := Option.some.inj (hheld.symm.trans hslots)
          simpa using hholds
      | succ position =>
          have hnext := @ih _ (index + 1) position
            (fun i hi => by rw [Function.update_of_ne (by omega), hzero i (by omega)]) hrest hat
            (fun other hother => hall other (List.mem_cons_of_mem _ hother))
          rwa [show index + 1 + position = index + (position + 1) by omega] at hnext

/-! ## The filter -/

/-- The loop of the exit program over rules in place of slots: a range ends it. -/
def anyRule (ret : Int32) : List Rule → Bool
  | [] => false
  | rule :: rest => if rule.type = .range then false else rule.hit ret || anyRule ret rest

/-- The switch of the exit program gives what the rule says, except for a range. -/
theorem slotHit_code {rule : Rule} {ret : Int32} :
    slotHit rule.type.code rule.expected ret =
      if rule.type = .range then none else some (rule.hit ret) := by
  unfold Rule.hit
  cases rule.type <;> rfl

/-- The loop of the exit program ends at a slot that holds no rule. -/
theorem anyHit_holds {slots : RulesRet} {rules : List Rule} (h : Holds slots rules) (ret : Int32)
    {indices : List (Fin maxRuleCount)} {position : Nat}
    (hindices : indices.map (·.val) = List.range' position indices.length)
    (hend : rules.length ≤ position + indices.length) :
    anyHit slots ret indices = anyRule ret (rules.drop position) := by
  induction indices generalizing position with
  | nil =>
      rw [List.drop_eq_nil_of_le (by simpa using hend)]
      rfl
  | cons i rest ih =>
      simp only [List.map_cons, List.length_cons, List.range'_succ, List.cons.injEq] at hindices
      obtain ⟨rfl, hrest⟩ := hindices
      simp only [List.length_cons] at hend
      unfold anyHit
      rw [h.op i, h.expected i]
      by_cases hin : i.val < rules.length
      · rw [List.drop_eq_getElem_cons hin]
        simp only [List.getElem?_map, List.getElem?_eq_getElem hin, Option.map_some,
          Option.getD_some, slotHit_code, anyRule]
        by_cases hrange : rules[i.val].type = .range
        · simp [hrange]
        · rw [if_neg hrange, if_neg hrange, ih hrest (by omega)]
          cases rules[i.val].hit ret <;> rfl
      · rw [List.drop_eq_nil_of_le (by omega), List.getElem?_eq_none (by simpa using hin),
          List.getElem?_eq_none (by simpa using hin)]
        rfl

theorem anyRule_iff {ret : Int32} {rules : List Rule} :
    anyRule ret rules = true ↔ ∃ rule ∈ rules.takeWhile (·.type ≠ .range), rule.hit ret = true := by
  induction rules with
  | nil => simp [anyRule]
  | cons rule rest ih =>
      unfold anyRule
      by_cases hrange : rule.type = .range
      · simp [hrange]
      · simp [hrange, ih]

/-- The value that the exit program sees is the one the function returned, with the helper and
without it. -/
theorem preHandleExit_isSome {helperExists : Bool} {traces : List Trace} {rulesAll : Nat → RulesRet}
    {ctx : ExitContext} {funcIndex : Nat} (hindex : funcIndex < traceMax traces) :
    (preHandleExit helperExists traces rulesAll ctx funcIndex ctx.args.length).isSome =
      anyHit (rulesAll funcIndex) (toRet ctx.retval) (List.finRange maxRuleCount) := by
  have hargs : ctx.args.length ≠ 0 := by
    rw [Ne, List.length_eq_zero_iff]
    exact ctx.monitored
  have hretval : ctx.words.getD ctx.args.length 0 = ctx.retval := by
    simp [ExitContext.words, List.getD]
  unfold preHandleExit
  rw [if_neg (by omega), if_neg (fun h => hargs h.2), hretval, ite_self]
  by_cases hhit : anyHit (rulesAll funcIndex) (toRet ctx.retval) (List.finRange maxRuleCount) = true
  · simp [hhit]
  · simp [hhit]

/-- What the loaded filter lets through. -/
theorem preHandleExit_loaded {traces : List Trace} {position : Nat} {trace : Trace}
    {rulesAll : Nat → RulesRet} (hat : traces[position]? = some trace)
    (hloaded : trace.loaded = true) (hload : tracingLoadRules traces = some rulesAll)
    (helperExists : Bool) (ctx : ExitContext) :
    (preHandleExit helperExists traces rulesAll ctx (position + 1) ctx.args.length).isSome =
      anyRule (toRet ctx.retval) (slotRules trace) := by
  have hposition : position < traces.length := (List.getElem?_eq_some_iff.mp hat).1
  have hholds := tracingLoadFrom_holds (fun _ _ => rfl) hload hat hloaded
  have hfits := (tracingLoadFrom_isSome (fun _ _ => rfl)).mp ⟨rulesAll, hload⟩ trace
    (List.mem_of_getElem? hat)
  have hcount : (slotRules trace).length ≤ maxRuleCount := by
    unfold slotRules
    split
    · decide
    · exact hfits hloaded
  rw [preHandleExit_isSome (by unfold traceMax; omega), Nat.add_comm position 1]
  have hindices : (List.finRange maxRuleCount).map (·.val) =
      List.range' 0 (List.finRange maxRuleCount).length := by decide
  exact anyHit_holds hholds _ hindices (by simpa using hcount)

/-- A value that a rule in front of the first range lets through. -/
theorem anyRule_slotRules {trace : Trace} {ret : Int32} :
    anyRule ret (slotRules trace) = true ↔ kept trace.rules = [] ∨
      ∃ rule ∈ (kept trace.rules).takeWhile (·.type ≠ .range), rule.hit ret = true := by
  unfold slotRules
  by_cases hnone : kept trace.rules = []
  · rw [if_pos hnone]
    exact ⟨fun _ => Or.inl hnone, fun _ => rfl⟩
  · rw [if_neg hnone, anyRule_iff]
    simp [hnone]

theorem kept_eq_nil {rules : List Rule} :
    kept rules = [] ↔ ∀ rule ∈ rules, rule.level = .info := by
  simp [kept]

/-- A rule matches a value on its own. -/
theorem ruleRunRet_single {hasContext : Bool} {status : UInt16} {ret : Int32} {rule : Rule} :
    (ruleRunRet hasContext status ret [rule]).1 = some rule ↔ rule.hit ret = true := by
  rw [ruleRunRet_fst, List.find?_singleton]
  by_cases hhit : rule.hit ret = true
  · simp [hhit]
  · simp [hhit]

/-- The return filter and the rules say the same of a value exactly if the rules of every loaded
function fit into the slots, and a value that some rule hits is hit by a rule in front of the first
range. -/
theorem exit_filter_agrees_iff (traces : List Trace) (position : Nat) (trace : Trace)
    (helperExists hasContext : Bool) (status : UInt16) (ctx : ExitContext)
    (hat : traces[position]? = some trace) (hloaded : trace.loaded = true) :
    (∃ rulesAll, tracingLoadRules traces = some rulesAll ∧
      ((preHandleExit helperExists traces rulesAll ctx (position + 1) ctx.args.length).isSome =
        true ↔
        (∃ rule ∈ trace.rules, rule.level ≠ .info ∧
          (ruleRunRet hasContext status (toRet ctx.retval) [rule]).1 = some rule) ∨
          ∀ rule ∈ trace.rules, rule.level = .info)) ↔
      (∀ other ∈ traces, other.loaded = true →
        (other.rules.filter (·.level ≠ .info)).length ≤ maxRuleCount) ∧
      ((∃ rule ∈ trace.rules, rule.level ≠ .info ∧ rule.hit (toRet ctx.retval) = true) →
        ∃ rule ∈ (trace.rules.filter (·.level ≠ .info)).takeWhile (·.type ≠ .range),
          rule.hit (toRet ctx.retval) = true) := by
  have hfits := @tracingLoadFrom_isSome traces (fun _ => RulesRet.zero) 1 (fun _ _ => rfl)
  simp only [ruleRunRet_single]
  -- what the filter lets through is hit by a rule that is loaded
  have hsound : (∃ rule ∈ (kept trace.rules).takeWhile (·.type ≠ .range),
      rule.hit (toRet ctx.retval) = true) →
      ∃ rule ∈ trace.rules, rule.level ≠ .info ∧ rule.hit (toRet ctx.retval) = true := by
    rintro ⟨rule, hmem, hhit⟩
    obtain ⟨hrule, hlevel⟩ := mem_kept.mp (List.takeWhile_subset _ hmem)
    exact ⟨rule, hrule, hlevel, hhit⟩
  constructor
  · rintro ⟨rulesAll, hload, hagree⟩
    refine ⟨hfits.mp ⟨rulesAll, hload⟩, fun hhit => ?_⟩
    rw [preHandleExit_loaded hat hloaded hload, anyRule_slotRules] at hagree
    rcases hagree.mpr (Or.inl hhit) with hnone | hfront
    · obtain ⟨rule, hrule, hlevel, -⟩ := hhit
      exact absurd (kept_eq_nil.mp hnone rule hrule) hlevel
    · exact hfront
  · rintro ⟨hall, hfront⟩
    obtain ⟨rulesAll, hload⟩ := hfits.mpr hall
    refine ⟨rulesAll, hload, ?_⟩
    rw [preHandleExit_loaded hat hloaded hload, anyRule_slotRules, kept_eq_nil]
    exact ⟨fun h => h.symm.imp hsound id, fun h => h.symm.imp id hfront⟩

/-- A function that returns 0 or more for success: -1 is an error. -/
def errorTrace : Trace :=
  ⟨false, true, true, true, [⟨.error, .eq (-1)⟩], [⟨.error, .eq, -1, 0⟩], rfl⟩

/-- An exit program of a function with one argument that returned -1. -/
def errorExit : ExitContext := ⟨[0], 0xffffffffffffffff, by simp⟩

theorem exit_filter_agrees_small :
    ∃ rulesAll, tracingLoadRules [errorTrace] = some rulesAll ∧
      ((preHandleExit true [errorTrace] rulesAll errorExit 1 errorExit.args.length).isSome = true ↔
        (∃ rule ∈ errorTrace.rules, rule.level ≠ .info ∧
          (ruleRunRet true 0 (toRet errorExit.retval) [rule]).1 = some rule) ∨
          ∀ rule ∈ errorTrace.rules, rule.level = .info) :=
  (exit_filter_agrees_iff [errorTrace] 0 errorTrace true true 0 errorExit rfl rfl).mpr (by decide)

/-- A function for which every value from 1 to 9 is an error. -/
def rangeTrace : Trace :=
  ⟨false, true, true, true, [⟨.error, .range 0 10⟩], [⟨.error, .range, 0, 10⟩], rfl⟩

/-- An exit program of a function with one argument that returned 5. -/
def rangeExit : ExitContext := ⟨[0], 5, by simp⟩

/-- The analysis takes 5 for an error, and the exit program drops it. -/
theorem range_rule_filtered_out :
    ¬ ∃ rulesAll, tracingLoadRules [rangeTrace] = some rulesAll ∧
      ((preHandleExit true [rangeTrace] rulesAll rangeExit 1 rangeExit.args.length).isSome = true ↔
        (∃ rule ∈ rangeTrace.rules, rule.level ≠ .info ∧
          (ruleRunRet true 0 (toRet rangeExit.retval) [rule]).1 = some rule) ∨
          ∀ rule ∈ rangeTrace.rules, rule.level = .info) := by
  rintro ⟨rulesAll, hload, hagree⟩
  have hpasses :=
    @preHandleExit_loaded [rangeTrace] 0 rangeTrace rulesAll rfl rfl hload true rangeExit
  rw [hpasses] at hagree
  exact absurd (hagree.mpr (Or.inl (by decide))) (by decide)

end Anettrace.Rules
