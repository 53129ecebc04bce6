import Mathlib.Data.UInt
import Mathlib.Data.List.FinRange

/-!
# Return-value rules

The rules of a traced function, from `trace.yaml` to their two readers. `gen_rules` in
`src/gen_trace.py` writes them as a list of `rule_t`; `rule_run_ret` in `src/analysis.c` reads the
list when a return event arrives; `tracing_load_rules` in `src/trace_tracing.c` copies it into the
fixed array that `pre_handle_exit` in `src/progs/tracing.c` consults before it lets the event
through.
-/

namespace Anettrace.Rules

/-- The levels of `rule_levels`. -/
inductive RuleLevel where
  | info
  | warn
  | error
  deriving DecidableEq, Repr

/-- `enum rule_type` -/
inductive RuleType where
  | eq
  | ne
  | lt
  | gt
  | range
  | any
  deriving DecidableEq, Repr

def RuleType.code : RuleType → Int32
  | .eq => 1
  | .ne => 2
  | .lt => 3
  | .gt => 4
  | .range => 5
  | .any => 6

/-- The text of a rule's `exp`, split at its blank. -/
inductive Exp where
  | eq (value : Int32)
  | ne (value : Int32)
  | lt (value : Int32)
  | gt (value : Int32)
  | range (min max : Int32)
  | any
  deriving DecidableEq, Repr

/-- One entry of `rules:` in `trace.yaml`, without its texts. -/
structure YamlRule where
  level : RuleLevel
  exp : Exp
  deriving DecidableEq, Repr

/-- `rule_t` -/
structure Rule where
  level : RuleLevel
  type : RuleType
  /-- The first word of the union: `expected`, or `range.min`. -/
  expected : Int32
  /-- `range.max` -/
  max : Int32
  deriving DecidableEq, Repr

/-- One round of `gen_rules`. A range is split at every `-` of its text, so that a bound with a
minus sign leaves an initializer without an expression, which is no C. -/
def genRule (rule : YamlRule) : Option Rule :=
  match rule.exp with
  | .eq value => some ⟨rule.level, .eq, value, 0⟩
  | .ne value => some ⟨rule.level, .ne, value, 0⟩
  | .lt value => some ⟨rule.level, .lt, value, 0⟩
  | .gt value => some ⟨rule.level, .gt, value, 0⟩
  | .range min max => if min < 0 ∨ max < 0 then none else some ⟨rule.level, .range, min, max⟩
  | .any => some ⟨rule.level, .any, 0, 0⟩

def genRules (rules : List YamlRule) : Option (List Rule) := rules.mapM genRule

/-! ## The reader of the analysis -/

def Rule.hit (rule : Rule) (ret : Int32) : Bool :=
  match rule.type with
  | .any => true
  | .eq => rule.expected == ret
  | .range => rule.expected < ret && ret < rule.max
  | .lt => rule.expected < ret
  | .gt => ret < rule.expected
  | .ne => rule.expected != ret

/-- `ANALY_CTX_ERROR` and `ANALY_CTX_WARN`, as the level of the rule that hit raises them. -/
def RuleLevel.status : RuleLevel → UInt16
  | .info => 0
  | .warn => (1 : UInt16) <<< 1
  | .error => (1 : UInt16) <<< 0

def ruleRunRet (hasContext : Bool) (status : UInt16) (ret : Int32) :
    List Rule → Option Rule × UInt16
  | [] => (none, status)
  | rule :: rest =>
      if rule.hit ret then
        (some rule, if hasContext then status ||| rule.level.status else status)
      else ruleRunRet hasContext status ret rest

theorem ruleRunRet_fst {hasContext : Bool} {status : UInt16} {ret : Int32} {rules : List Rule} :
    (ruleRunRet hasContext status ret rules).1 = rules.find? (·.hit ret) := by
  induction rules with
  | nil => rfl
  | cons rule rest ih =>
      unfold ruleRunRet
      by_cases hhit : rule.hit ret
      · simp [hhit]
      · simp [hhit, ih]

/-! ## The loader -/

/-- A trace of `trace_list`, with what decides if its rules are loaded. -/
structure Trace where
  /-- `trace_is_invalid` -/
  invalid : Bool
  /-- `trace_is_enable` -/
  enable : Bool
  /-- `trace_is_ret` -/
  ret : Bool
  /-- `trace_is_func` -/
  func : Bool
  yaml : List YamlRule
  /-- `trace->rules` -/
  rules : List Rule
  /-- The list is the one of the generator. -/
  generated : genRules yaml = some rules
  deriving DecidableEq, Repr

/-- The guard of `tracing_load_rules`. -/
def Trace.loaded (trace : Trace) : Bool :=
  !trace.invalid && trace.enable && trace.ret && trace.func

def maxRuleCount : Nat := 8

/-- `rules_ret_t` -/
structure RulesRet where
  expected : Fin maxRuleCount → Int32
  op : Fin maxRuleCount → Int32

/-- The slots of the zeroed `.bss`. -/
def RulesRet.zero : RulesRet := ⟨fun _ => 0, fun _ => 0⟩

def RulesRet.store (slots : RulesRet) (i : Nat) (expected op : Int32) : Option RulesRet :=
  if h : i < maxRuleCount then
    some { expected := Function.update slots.expected ⟨i, h⟩ expected
           op := Function.update slots.op ⟨i, h⟩ op }
  else none

/-- The loop over `trace->rules`, from the counter `i` on. -/
def loadRules (slots : RulesRet) (i : Nat) : List Rule → Option (RulesRet × Nat)
  | [] => some (slots, i)
  | rule :: rest =>
      if rule.level = .info then loadRules slots i rest
      else do
        let slots ← slots.store i rule.expected rule.type.code
        loadRules slots (i + 1) rest

def loadTrace (slots : RulesRet) (trace : Trace) : Option RulesRet :=
  if trace.loaded then do
    let loaded ← loadRules slots 0 trace.rules
    -- a requested fexit without analyzer rules still has to emit
    if loaded.2 = 0 then loaded.1.store 0 (loaded.1.expected ⟨0, by decide⟩) RuleType.any.code
    else some loaded.1
  else some slots

def tracingLoadFrom (rulesAll : Nat → RulesRet) (index : Nat) : List Trace → Option (Nat → RulesRet)
  | [] => some rulesAll
  | trace :: rest => do
      let slots ← loadTrace (rulesAll index) trace
      tracingLoadFrom (Function.update rulesAll index slots) (index + 1) rest

def tracingLoadRules (traces : List Trace) : Option (Nat → RulesRet) :=
  tracingLoadFrom (fun _ => RulesRet.zero) 1 traces

def traceMax (traces : List Trace) : Nat := traces.length + 1

/-! ## The filter of the exit program -/

/-- What a generated exit program runs on. It is generated with the number of parameters that the
BTF data gives for the function, and only where that number is not zero. -/
structure ExitContext where
  args : List UInt64
  retval : UInt64
  monitored : args ≠ []

/-- The words at `ctx`: the arguments, then the return value. -/
def ExitContext.words (ctx : ExitContext) : List UInt64 := ctx.args ++ [ctx.retval]

def toRet (retval : UInt64) : Int32 := retval.toUInt32.toInt32

/-- The switch of `pre_handle_exit`. `none` is `goto no_match`. -/
def slotHit (op expected ret : Int32) : Option Bool :=
  if op = RuleType.any.code then some true
  else if op = RuleType.eq.code then some (expected == ret)
  else if op = RuleType.lt.code then some (expected < ret)
  else if op = RuleType.gt.code then some (ret < expected)
  else if op = RuleType.ne.code then some (expected != ret)
  else none

/-- The loop of `pre_handle_exit`. -/
def anyHit (rules : RulesRet) (ret : Int32) : List (Fin maxRuleCount) → Bool
  | [] => false
  | i :: rest =>
      match slotHit (rules.op i) (rules.expected i) ret with
      | none => false
      | some true => true
      | some false => anyHit rules ret rest

def preHandleExit (helperExists : Bool) (traces : List Trace) (rulesAll : Nat → RulesRet)
    (ctx : ExitContext) (funcIndex argCount : Nat) : Option UInt64 :=
  if funcIndex ≥ traceMax traces then none
  else if helperExists = false ∧ argCount = 0 then none
  else
    let retval := if helperExists then ctx.retval else ctx.words.getD argCount 0
    if anyHit (rulesAll funcIndex) (toRet retval) (List.finRange maxRuleCount) then some retval
    else none

end Anettrace.Rules
