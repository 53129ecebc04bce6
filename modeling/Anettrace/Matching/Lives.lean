import Mathlib.Data.Nat.Log
import Anettrace.Matching.Model

/-!
# Lives of packets

What the followed packets are, told from the whole history: a packet lives from a visit that is
accepted to the one that frees it, and its latency is the time between two of its visits. A visit
that is refused sends nothing, and does not end the life even if it frees the packet. The map of the
probes holds of each life only what is needed, and yet sends and counts the same.
-/

namespace Anettrace.Matching

open Library Library.Run

/-! ## The history -/

def begins (args : MatchArgs) (visit : Visit) : Bool :=
  (!args.matchMode || (args.traceStatus visit.func).matcher) &&
    !funcIsFree (args.traceStatus visit.func) &&
    ((args.latency && !args.hasFilter) || (visit.accepted && !visit.refused))

/-- The time that latencies are measured from: that of the first visit, or of the last one that
enters its function again as a matcher, when it reads the clock again. -/
def startOf (args : MatchArgs) (first : Visit) (later : List Visit) : UInt32 :=
  (((later.filter fun visit =>
    (args.traceStatus visit.func).matcher && visit.func = first.func).getLast?).map
    Visit.microsAgain).getD first.micros

/-- The visit that latencies are measured to. -/
def lastOf (args : MatchArgs) (later : List Visit) : Option Visit :=
  (later.filter fun visit => args.latencyFree || !funcIsFree (args.traceStatus visit.func) ||
    (args.traceStatus visit.func).cfree).getLast?

/-- The latency of a life that ends, if it has one that is long enough. -/
def latencyOf (args : MatchArgs) (life : List Visit) (final : Visit) : Option MatchedEvent :=
  match life with
  | [] => none
  | first :: rest => do
      let last ← lastOf args (rest ++ [final])
      -- where the last visit is the one that entered again, the difference can wrap
      let delta := last.micros - startOf args first (rest ++ [final])
      if delta < args.latencyMin then none
      else some { visit := final, latency := delta, latencyFunc1 := first.func,
                  latencyFunc2 := last.func }

/-- A visit that ends a life: it frees the packet, and is not refused where its event would be
sent. -/
def endsLife (args : MatchArgs) (life : List Visit) (visit : Visit) : Bool :=
  funcIsFree (args.traceStatus visit.func) &&
    (!visit.refused || (args.latency &&
      (args.latencySummary || (latencyOf args life visit).isNone)))

def lifeStep (args : MatchArgs) (skb : UInt64) (life : List Visit) : MatchStep → List Visit
  | .evict other => if other = skb then [] else life
  | .visit visit =>
      if visit.skb ≠ skb then life
      else if life = [] then if begins args visit then [visit] else []
      else if endsLife args life visit then [] else life ++ [visit]

def life (args : MatchArgs) (skb : UInt64) (log : List MatchStep) : List Visit :=
  run (lifeStep args skb) [] log

/-- The events of a visit, after what was heard before it. -/
def saidOf (args : MatchArgs) (life : List Visit) (visit : Visit) : List MatchedEvent :=
  if args.latency then
    if endsLife args life visit then (latencyOf args life visit).toList else []
  else if (life ≠ [] && !visit.refused) || begins args visit then [{ visit := visit }] else []

/-- The events of a step, after what was heard before it. -/
def said (args : MatchArgs) (log : List MatchStep) : MatchStep → List MatchedEvent
  | .evict _ => []
  | .visit visit => if visit.skb = 0 then [] else saidOf args (life args visit.skb log) visit

def measured (args : MatchArgs) (log : List MatchStep) : List MatchedEvent :=
  observations (fun log step => log ++ [step]) (said args) [] log

@[simp] theorem life_concat (args : MatchArgs) (skb : UInt64) (log : List MatchStep)
    (step : MatchStep) :
    life args skb (log ++ [step]) = lifeStep args skb (life args skb log) step := by
  unfold life
  rw [run_concat]

theorem run_snoc (log : List MatchStep) :
    run (fun log step => log ++ [step]) ([] : List MatchStep) log = log := by
  induction log using List.reverseRecOn with
  | nil => rfl
  | append_singleton log step ih => rw [run_concat, ih]

@[simp] theorem measured_concat (args : MatchArgs) (log : List MatchStep) (step : MatchStep) :
    measured args (log ++ [step]) = measured args log ++ said args log step := by
  unfold measured
  rw [observations_concat, run_snoc]

theorem lifeStep_other {args : MatchArgs} {skb : UInt64} {life : List Visit} {visit : Visit}
    (h : visit.skb ≠ skb) : lifeStep args skb life (.visit visit) = life :=
  if_pos h

theorem lifeStep_first {args : MatchArgs} {visit : Visit} :
    lifeStep args visit.skb [] (.visit visit) = if begins args visit then [visit] else [] := by
  simp [lifeStep]

theorem lifeStep_more {args : MatchArgs} {visit first : Visit} {rest : List Visit} :
    lifeStep args visit.skb (first :: rest) (.visit visit) =
      if endsLife args (first :: rest) visit then [] else first :: (rest ++ [visit]) := by
  simp [lifeStep]

/-! ## What the map keeps of a life -/

def entryOf (args : MatchArgs) : List Visit → Option MatchVal
  | [] => none
  | first :: rest =>
      some <|
        if args.latency then
          { func1 := first.func
            func2 := ((lastOf args rest).map Visit.func).getD 0
            ts1 := startOf args first rest
            ts2 := ((lastOf args rest).map Visit.micros).getD 0 }
        else { func1 := first.func }

theorem getLast?_filter_concat (keeps : Visit → Bool) (visits : List Visit) (visit : Visit) :
    ((visits ++ [visit]).filter keeps).getLast? =
      if keeps visit then some visit else (visits.filter keeps).getLast? := by
  rw [List.filter_append]
  cases hkeeps : keeps visit with
  | true => rw [List.filter_cons_of_pos hkeeps, List.filter_nil, List.getLast?_concat, if_pos rfl]
  | false =>
      rw [List.filter_cons_of_neg (Bool.not_eq_true _ ▸ hkeeps), List.filter_nil, List.append_nil,
        if_neg Bool.false_ne_true]

theorem startOf_concat (args : MatchArgs) (first visit : Visit) (rest : List Visit) :
    startOf args first (rest ++ [visit]) =
      if (args.traceStatus visit.func).matcher && visit.func = first.func then visit.microsAgain
      else startOf args first rest := by
  unfold startOf
  rw [getLast?_filter_concat]
  split <;> rfl

/-- Where a life ends, after one more visit. -/
theorem lastOf_concat (args : MatchArgs) (visit : Visit) (rest : List Visit) :
    lastOf args (rest ++ [visit]) =
      if args.latencyFree || !funcIsFree (args.traceStatus visit.func) ||
        (args.traceStatus visit.func).cfree
      then some visit else lastOf args rest :=
  getLast?_filter_concat _ rest visit

theorem entryOf_revisit {args : MatchArgs} (hlatency : args.latency = true) (first visit : Visit)
    (rest : List Visit) :
    entryOf args (first :: (rest ++ [visit])) =
      (entryOf args (first :: rest)).map (·.revisit args visit) := by
  have hflip : decide (first.func = visit.func) = decide (visit.func = first.func) :=
    decide_eq_decide.mpr eq_comm
  unfold entryOf MatchVal.revisit
  simp only [hlatency, if_true, Option.map_some, startOf_concat, lastOf_concat]
  cases args.latencyFree || !funcIsFree (args.traceStatus visit.func) ||
      (args.traceStatus visit.func).cfree <;>
    simp only [hflip, if_true, Bool.false_eq_true, if_false, Option.map_some, Option.getD_some] <;>
    cases (args.traceStatus visit.func).matcher && decide (visit.func = first.func) <;> rfl

/-! ## One visit -/

/-- The modes told of here: events are neither short ones nor counted by function. -/
structure MatchArgs.Plain (args : MatchArgs) : Prop where
  tinyOutput : args.tinyOutput = false
  funcStats : args.funcStats = false

theorem visitStep_unheeded {args : MatchArgs} {state : MatchState} {visit : Visit}
    (h : heeds args state visit = false) : visitStep args state visit = state := by
  unfold visitStep preHandleEntry
  simp [h]

theorem visitStep_heeded {args : MatchArgs} {state : MatchState} {visit : Visit}
    (hplain : args.Plain) (h : heeds args state visit = true) :
    visitStep args state visit =
      match preLookup args state visit with
      | (state, .skip) | (state, .done) => state
      | (state, .go val noEvent) =>
          match handleEntry visit val noEvent with
          | .rejected => state
          | .quiet => handleEntryFinish args state visit val
          | .sent => handleEntryFinish args (state.send (eventOf args visit val)) visit val := by
  unfold visitStep preHandleEntry preFuncStats
  rw [if_pos h, hplain.funcStats]
  rfl

/-- A visit without a packet. -/
theorem visitStep_zero {args : MatchArgs} {state : MatchState} {visit : Visit} (hplain : args.Plain)
    (h : heeds args state visit = true) (hskb : visit.skb = 0) :
    visitStep args state visit = state ∨ ∃ event, event.visit = visit ∧
      visitStep args state visit = (state.send event).count := by
  rw [visitStep_heeded hplain h, preLookup, if_pos hskb]
  unfold handleEntry
  dsimp only
  by_cases hrejected : (visit.refused || !(visit.skb ≠ 0 && MatchVal.matched {}) &&
    !visit.accepted) = true
  · rw [if_pos hrejected]
    exact .inl rfl
  · rw [if_neg hrejected, if_neg Bool.false_ne_true]
    refine .inr ⟨eventOf args visit {}, rfl, ?_⟩
    simp [handleEntryFinish, hskb, hplain.funcStats]

/-- The verdict on a packet that is not followed. -/
theorem handleEntry_first (visit : Visit) (noEvent : Bool) :
    handleEntry visit {} noEvent =
      if visit.accepted && !visit.refused then if noEvent then .quiet else .sent
        else .rejected := by
  unfold handleEntry MatchVal.matched
  cases visit.accepted <;> cases visit.refused <;> simp

/-- A visit of a packet that is not followed. -/
theorem visitStep_first {args : MatchArgs} {state : MatchState} {visit : Visit}
    (hplain : args.Plain) (h : heeds args state visit = true) (hskb : visit.skb ≠ 0)
    (hnone : state.matched visit.skb = none) :
    visitStep args state visit =
      if begins args visit then
        if args.latency then state.initCtxMatch visit true
        else (state.send { visit := visit }).initCtxMatch visit false
      else state := by
  rw [visitStep_heeded hplain h, preLookup, if_neg hskb]
  dsimp only
  rw [hnone]
  unfold begins
  cases hfree : funcIsFree (args.traceStatus visit.func) with
  | true => simp
  | false =>
      cases hmatcher : (args.matchMode && !(args.traceStatus visit.func).matcher) with
      | true =>
          have hmode : (!args.matchMode || (args.traceStatus visit.func).matcher) = false := by
            rw [← Bool.not_not (args.traceStatus visit.func).matcher, ← Bool.not_and, hmatcher]
            rfl
          simp [hmode]
      | false =>
          have hmode : (!args.matchMode || (args.traceStatus visit.func).matcher) = true := by
            rw [← Bool.not_not (args.traceStatus visit.func).matcher, ← Bool.not_and, hmatcher]
            rfl
          rw [hmode]
          simp only [Option.isNone_none, Option.isSome_none, Bool.true_and,
            Bool.false_and, Bool.or_self,
            Bool.not_false, Bool.false_eq_true, if_false]
          have hfinish (state : MatchState) : handleEntryFinish args state visit {} =
              state.initCtxMatch visit args.latency := by
            simp [handleEntryFinish, hskb, hfree, hplain.funcStats, MatchVal.matched]
          cases hlatency : args.latency with
          | false =>
              rw [hlatency] at hfinish
              simp only [Bool.false_eq_true, if_false, Option.getD_none, handleEntry_first,
                Bool.false_and, Bool.false_or]
              cases visit.accepted && !visit.refused with
              | true => simp [hfinish, eventOf]
              | false => rfl
          | true =>
              rw [hlatency] at hfinish
              unfold preHandleLatency
              cases hfilter : args.hasFilter with
              | false => simp [hfree]
              | true =>
                  simp only [hfree, Bool.false_eq_true, if_false, if_true, Bool.not_true,
                    Bool.and_false,
                    Bool.false_or, handleEntry_first]
                  cases visit.accepted && !visit.refused with
                  | true => simp [hfinish]
                  | false => rfl

theorem MatchVal.revisit_func1 (args : MatchArgs) (visit : Visit) (val : MatchVal) :
    (val.revisit args visit).func1 = val.func1 := by
  unfold MatchVal.revisit
  dsimp only
  split <;> split <;> rfl

/-- The verdict on a packet that is followed. -/
theorem handleEntry_more {visit : Visit} {val : MatchVal} (hskb : visit.skb ≠ 0)
    (hval : val.func1 ≠ 0) :
    handleEntry visit val false = if visit.refused then .rejected else .sent := by
  unfold handleEntry MatchVal.matched
  simp [hskb, hval]

section

variable {args : MatchArgs} {state : MatchState} {visit : Visit} {val : MatchVal}
  (hplain : args.Plain) (hskb : visit.skb ≠ 0)
include hplain hskb

theorem handleEntryFinish_more (hval : val.func1 ≠ 0) :
    handleEntryFinish args state visit val =
      if funcIsFree (args.traceStatus visit.func) then state.consumeMapCtx visit.skb
        else state := by
  unfold handleEntryFinish MatchVal.matched
  simp [hskb, hval, hplain.funcStats]

theorem preLookup_more (hsome : state.matched visit.skb = some val) :
    preLookup args state visit =
      if args.latency then preHandleLatency args state visit (some val)
        else (state, .go val false) := by
  unfold preLookup
  rw [if_neg hskb]
  dsimp only
  simp only [hsome, Option.isNone_some, Bool.false_and, Bool.false_eq_true, if_false,
    Option.isSome_some,
    hplain.tinyOutput, Bool.and_false, Option.getD_some]

end

section

variable {args : MatchArgs} {state : MatchState} {visit : Visit} {val : MatchVal}
  (hplain : args.Plain) (h : heeds args state visit = true) (hskb : visit.skb ≠ 0)
  (hsome : state.matched visit.skb = some val) (hval : val.func1 ≠ 0)
include hplain h hskb hsome hval

theorem visitStep_more (hlatency : args.latency = false) :
    visitStep args state visit =
      if visit.refused then state
      else if funcIsFree (args.traceStatus visit.func) then
        (state.send { visit := visit }).consumeMapCtx visit.skb
      else state.send { visit := visit } := by
  rw [visitStep_heeded hplain h, preLookup_more hplain hskb hsome, hlatency,
    if_neg Bool.false_ne_true]
  dsimp only
  rw [handleEntry_more hskb hval]
  cases visit.refused with
  | true => rfl
  | false =>
      simp only [Bool.false_eq_true, if_false]
      rw [handleEntryFinish_more hplain hskb hval]
      simp [eventOf, hlatency]

/-- A visit of a packet whose latency is measured. -/
theorem visitStep_latency (hlatency : args.latency = true) :
    visitStep args state visit =
      let val := val.revisit args visit
      let stored := state.putMatch visit.skb val
      if funcIsFree (args.traceStatus visit.func) then
        let delta := val.ts2 - val.ts1
        if val.func2 = 0 || delta < args.latencyMin then stored.freeMapCtx visit.skb
        else if args.latencySummary then (stored.updateStatsLog delta).consumeMapCtx visit.skb
        else if visit.refused then stored
        else
          (stored.send { visit := visit, latency := delta, latencyFunc1 := val.func1,
                         latencyFunc2 := val.func2 }).consumeMapCtx visit.skb
      else stored := by
  have hkept := MatchVal.revisit_func1 args visit val
  rw [visitStep_heeded hplain h, preLookup_more hplain hskb hsome, hlatency, if_pos rfl]
  unfold preHandleLatency
  dsimp only
  generalize val.revisit args visit = stored at hkept ⊢
  cases hfree : funcIsFree (args.traceStatus visit.func) with
  | false => simp
  | true =>
      rw [if_pos rfl, if_pos rfl]
      by_cases hshort : (decide (stored.func2 = 0) ||
        decide (stored.ts2 - stored.ts1 < args.latencyMin)) = true
      · rw [if_pos hshort, if_pos hshort]
      · rw [if_neg hshort, if_neg hshort]
        cases args.latencySummary with
        | true => rfl
        | false =>
            rw [if_neg Bool.false_ne_true, if_neg Bool.false_ne_true]
            dsimp only
            rw [handleEntry_more hskb (hkept ▸ hval)]
            cases visit.refused with
            | true => rfl
            | false =>
                rw [if_neg Bool.false_ne_true, if_neg Bool.false_ne_true]
                dsimp only
                rw [handleEntryFinish_more hplain hskb (hkept ▸ hval), hfree, if_pos rfl]
                simp [eventOf, hlatency, hkept, hval]

end

end Anettrace.Matching
