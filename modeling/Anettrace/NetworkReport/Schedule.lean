import Anettrace.Library.Intervals
import Mathlib.Algebra.Order.BigOperators.Group.List
import Mathlib.Data.List.Sort

/-!
# Scheduler time of a call

`schedule` of `skills/anettrace-analysis/scripts/network_report.py`. The states of the thread of a
call are read in the order of their times and clipped to the window of the call. What the states
with a name leave of the window is uncovered; states that overlap give no totals. The queries for
evidence are left out.
-/

namespace Anettrace.NetworkReport

/-! ## The code -/

/-- A row of the threads found for a call. -/
structure Thread where
  utid : Nat
  tid : Nat
  pid : Option Nat
  deriving DecidableEq, Repr

/-- A row of `thread_state`. The duration of a state that has not ended is -1. -/
structure ThreadState where
  id : Nat
  ts : Int
  dur : Int
  state : Option String
  dur_ok : -1 ≤ dur
  deriving DecidableEq, Repr

/-- A call whose time is accounted for. -/
structure ScheduledCall where
  ts : Int
  dur : Int
  tid : Option Nat
  tgid : Option Nat
  deriving DecidableEq, Repr

/-- The times of a call, and whether its states are known throughout. -/
structure Schedule where
  status : String
  runningNs : Int
  runnableNs : Int
  otherNs : Int
  uncoveredNs : Int
  utid : Option Nat
  deriving DecidableEq, Repr

/-- `not value or int(value) == other` -/
def agrees (value : Option Nat) (other : Option Nat) : Bool :=
  value.getD 0 == 0 || value == other

/-- The threads that the call can have run on. -/
def matchingThreads (threads : List Thread) (call : ScheduledCall) : List Thread :=
  threads.filter fun thread => agrees call.tid (some thread.tid) && agrees call.tgid thread.pid

/-- The order of the query. -/
def stateBefore (first second : ThreadState) : Bool :=
  first.ts < second.ts || (first.ts == second.ts && first.id ≤ second.id)

/-- The condition of the query. -/
def ThreadState.reaches (start stop : Int) (state : ThreadState) : Bool :=
  state.ts < stop && (state.dur == -1 || state.ts + state.dur > start)

/-- The states that reach into a window. -/
def statesIn (start stop : Int) (states : List ThreadState) : List ThreadState :=
  (states.filter (ThreadState.reaches start stop)).mergeSort stateBefore

/-- What a thread does in a state. -/
inductive TimeKind where
  | running
  | runnable
  | other
  deriving DecidableEq, Repr

/-- What a thread does in a state, by its name. -/
def timeKind (state : String) : TimeKind :=
  if state = "Running" then .running
  else if state = "R" ∨ state = "R+" then .runnable
  else .other

/-- The totals of a report. -/
abbrev Totals :=
  TimeKind → Int

/-- Count time for what a thread does. -/
def Totals.add (totals : Totals) (kind : TimeKind) (amount : Int) : Totals :=
  fun each => if each = kind then totals each + amount else totals each

/-- Where a state ends in a window: a state that has not ended goes on to the end of the window. -/
def finish (stop : Int) (state : ThreadState) : Int :=
  if state.dur ≥ 0 then state.ts + state.dur else stop

/-- The loop over the states, or nothing if one starts before the one before it has ended. -/
def accumulate (start stop : Int) : Int → Totals → List ThreadState → Option Totals
  | _, totals, [] => some totals
  | previous, totals, state :: rest =>
      let first := max start state.ts
      let last := min stop (finish stop state)
      if first < previous then none
      else
        match state.state with
        | none => accumulate start stop last totals rest
        | some name =>
            accumulate start stop last (totals.add (timeKind name) (max 0 (last - first))) rest

/-- The result for the outcome of the loop. -/
def Schedule.ofTotals (duration : Int) (utid : Nat) : Option Totals → Schedule
  | none => ⟨"overlapping_states", 0, 0, 0, duration, none⟩
  | some totals =>
      let covered := totals .running + totals .runnable + totals .other
      ⟨if covered = duration then "complete" else "partial", totals .running, totals .runnable,
        totals .other, duration - covered, some utid⟩

/-- The schedule of a call. -/
def schedule (threads : List Thread) (states : Nat → List ThreadState) (call : ScheduledCall) :
    Schedule :=
  let duration := max 0 call.dur
  match matchingThreads threads call with
  | [thread] =>
      let start := call.ts
      let stop := call.ts + duration
      Schedule.ofTotals duration thread.utid
        (accumulate start stop start (fun _ => 0) (statesIn start stop (states thread.utid)))
  | _ => ⟨"unavailable", 0, 0, 0, duration, none⟩

/-! ## Clipped states -/

variable {start stop previous : Int} {states rows : List ThreadState} {state : ThreadState}

/-- The part of a state inside a window. -/
def clip (start stop : Int) (state : ThreadState) : Int × Int :=
  (max start state.ts, min stop (finish stop state))

/-- The length of that part. -/
def inside (start stop : Int) (state : ThreadState) : Int :=
  max 0 ((clip start stop state).2 - (clip start stop state).1)

/-- The time that states of a kind spend inside a window. -/
def timeOf (start stop : Int) (states : List ThreadState) (kind : TimeKind) : Int :=
  ((states.filter fun state => state.state.map timeKind = some kind).map (inside start stop)).sum

/-- No state starts before one before it has ended. -/
def Separate (stop : Int) (rows : List ThreadState) : Prop :=
  rows.Pairwise fun first second => finish stop first ≤ second.ts

/-- No clipped state starts before one before it has ended, and none before a time. -/
structure Ordered (start stop previous : Int) (rows : List ThreadState) : Prop where
  first : ∀ state ∈ rows, previous ≤ (clip start stop state).1
  rest : rows.Pairwise fun first second => (clip start stop first).2 ≤ (clip start stop second).1

/-- States in order, from the second on. -/
theorem Ordered.cons_iff (hvalid : (clip start stop state).1 ≤ (clip start stop state).2) :
    Ordered start stop previous (state :: rows) ↔
      previous ≤ (clip start stop state).1 ∧ Ordered start stop (clip start stop state).2 rows := by
  constructor
  · rintro ⟨hfirst, hrest⟩
    obtain ⟨hnext, hrest⟩ := List.pairwise_cons.mp hrest
    exact ⟨hfirst state List.mem_cons_self, hnext, hrest⟩
  · rintro ⟨hle, hnext, hrest⟩
    refine ⟨List.forall_mem_cons.mpr ⟨hle, fun other hmem => ?_⟩,
      List.pairwise_cons.mpr ⟨hnext, hrest⟩⟩
    exact hle.trans (hvalid.trans (hnext other hmem))

theorem timeOf_cons (kind : TimeKind) :
    timeOf start stop (state :: rows) kind =
      (if state.state.map timeKind = some kind then inside start stop state else 0) +
        timeOf start stop rows kind := by
  unfold timeOf
  rw [List.filter_cons]
  by_cases h : state.state.map timeKind = some kind
  · rw [if_pos (decide_eq_true h), List.map_cons, List.sum_cons, if_pos h]
  · rw [if_neg (by simpa using h), if_neg h, Int.zero_add]

/-- The loop adds up the parts of the states, unless they overlap. -/
theorem accumulate_spec (hvalid : ∀ state ∈ rows,
  (clip start stop state).1 ≤ (clip start stop state).2) (previous : Int) (totals : Totals) :
    (Ordered start stop previous rows → accumulate start stop previous totals rows =
        some fun kind => totals kind + timeOf start stop rows kind) ∧
      (¬ Ordered start stop previous rows → accumulate start stop previous totals rows = none) := by
  induction rows generalizing previous totals with
  | nil =>
      refine ⟨fun _ => ?_, fun hnot => absurd ⟨List.forall_mem_nil _, List.Pairwise.nil⟩ hnot⟩
      simp [accumulate, timeOf]
  | cons state rest ih =>
      obtain ⟨hstate, hrest⟩ := List.forall_mem_cons.mp hvalid
      have ih := ih hrest (clip start stop state).2
      rw [Ordered.cons_iff hstate]
      by_cases hfirst : (clip start stop state).1 < previous
      · refine ⟨fun h => absurd h.1 (Int.not_le.mpr hfirst), fun _ => ?_⟩
        rw [accumulate]
        exact if_pos hfirst
      · have hle : previous ≤ (clip start stop state).1 := Int.not_lt.mp hfirst
        have hnext (next : Totals) (h : next = match state.state with
            | none => totals
            | some name => totals.add (timeKind name) (inside start stop state)) :
            accumulate start stop previous totals (state :: rest) =
              accumulate start stop (clip start stop state).2 next rest := by
          subst h
          rw [accumulate, if_neg (show ¬ max start state.ts < previous from hfirst)]
          cases state.state with
          | none => rfl
          | some name => rfl
        rw [hnext _ rfl]
        refine ⟨fun h => ?_, fun hnot => (ih _).2 fun h => hnot ⟨hle, h⟩⟩
        rw [(ih _).1 h.2]
        refine congrArg some (funext fun kind => ?_)
        rw [timeOf_cons]
        cases state.state with
        | none => simp
        | some name =>
            by_cases hkind : timeKind name = kind
            · simp [Totals.add, hkind, Int.add_assoc]
            · simp [Totals.add, hkind, Ne.symm hkind]

/-! ## The states of a window -/

theorem mem_statesIn :
    state ∈ statesIn start stop states ↔
      state ∈ states ∧ state.ts < stop ∧ (state.dur = -1 ∨ start < state.ts + state.dur) := by
  simp [statesIn, ThreadState.reaches]

theorem finish_open (h : state.dur = -1) : finish stop state = stop :=
  if_neg (by omega)

theorem finish_ended (h : state.dur ≠ -1) : finish stop state = state.ts + state.dur :=
  if_pos (by have := state.dur_ok; omega)

/-- A state of the query reaches into the window. -/
theorem clip_valid (hwindow : start ≤ stop) (hmem : state ∈ statesIn start stop states) :
    (clip start stop state).1 ≤ (clip start stop state).2 := by
  obtain ⟨-, hts, hend⟩ := mem_statesIn.mp hmem
  have hdur := state.dur_ok
  unfold clip
  by_cases hopen : state.dur = -1
  · rw [finish_open hopen]
    omega
  · rw [finish_ended hopen]
    have := hend.resolve_left hopen
    omega

/-- A state that the query leaves out has no part in the window. -/
theorem inside_left_out (hmem : state ∈ states) (hout : state ∉ statesIn start stop states) :
    inside start stop state = 0 := by
  have hout : ¬ (state.ts < stop ∧ (state.dur = -1 ∨ start < state.ts + state.dur)) := fun h =>
    hout (mem_statesIn.mpr ⟨hmem, h⟩)
  have hdur := state.dur_ok
  unfold inside clip
  by_cases hopen : state.dur = -1
  · rw [finish_open hopen]
    have hlate : ¬ state.ts < stop := fun h => hout ⟨h, Or.inl hopen⟩
    omega
  · rw [finish_ended hopen]
    have hparts : ¬ state.ts < stop ∨ ¬ start < state.ts + state.dur := by
      by_contra hboth
      push Not at hboth
      exact hout ⟨hboth.1, Or.inr hboth.2⟩
    omega

/-- The states left out add nothing to the totals. -/
theorem timeOf_statesIn (kind : TimeKind) :
    timeOf start stop (statesIn start stop states) kind = timeOf start stop states kind := by
  have hperm := List.mergeSort_perm (states.filter (ThreadState.reaches start stop)) stateBefore
  have hsorted : timeOf start stop (statesIn start stop states) kind =
      timeOf start stop (states.filter (ThreadState.reaches start stop)) kind :=
    ((hperm.filter _).map _).sum_eq
  rw [hsorted]
  clear hperm hsorted
  induction states with
  | nil => rfl
  | cons state rest ih =>
      rw [timeOf_cons, ← ih]
      by_cases hkept : state.reaches start stop = true
      · rw [List.filter_cons_of_pos hkept, timeOf_cons]
      · have hzero : inside start stop state = 0 := by
          refine inside_left_out (List.mem_singleton_self state) fun hmem => hkept ?_
          simpa [ThreadState.reaches] using (mem_statesIn.mp hmem).2
        rw [List.filter_cons_of_neg hkept, hzero, ite_self, Int.zero_add]

/-- The clipped states are in order exactly when the states do not overlap, or when there is no
window to overlap in. -/
theorem ordered_iff (hwindow : start ≤ stop) :
    Ordered start stop start (statesIn start stop states) ↔
      start = stop ∨ Separate stop (statesIn start stop states) := by
  have hpair {first second : ThreadState} (hless : start < stop)
      (hfirst : first ∈ statesIn start stop states)
        (hsecond : second ∈ statesIn start stop states) :
      (clip start stop first).2 ≤ (clip start stop second).1 ↔ finish stop first ≤ second.ts := by
    obtain ⟨-, hts, hend⟩ := mem_statesIn.mp hfirst
    obtain ⟨-, hlater, -⟩ := mem_statesIn.mp hsecond
    unfold clip
    by_cases hopen : first.dur = -1
    · rw [finish_open hopen]
      omega
    · rw [finish_ended hopen]
      have := hend.resolve_left hopen
      omega
  constructor
  · rintro ⟨-, hrest⟩
    rcases Int.lt_or_eq_of_le hwindow with hless | heq
    · exact Or.inr (hrest.imp_of_mem fun hfirst hsecond h => (hpair hless hfirst hsecond).mp h)
    · exact Or.inl heq
  · intro h
    refine ⟨fun state _ => le_max_left _ _, ?_⟩
    rcases Int.lt_or_eq_of_le hwindow with hless | rfl
    · have hseparate := h.resolve_left (Int.ne_of_lt hless)
      exact hseparate.imp_of_mem fun hfirst hsecond h => (hpair hless hfirst hsecond).mpr h
    · exact List.pairwise_of_forall fun first second => (min_le_left _ _).trans (le_max_left _ _)

/-! ## Known states -/

/-- The clipped states with a name. -/
def knownParts (start stop : Int) (rows : List ThreadState) : List (Int × Int) :=
  (rows.filter fun state => state.state.isSome).map (clip start stop)

/-- The three totals are the length of the known states. -/
theorem sum_timeOf :
    timeOf start stop rows .running + timeOf start stop rows .runnable +
      timeOf start stop rows .other =
      ((knownParts start stop rows).map Library.Intervals.length).sum := by
  induction rows with
  | nil => rfl
  | cons state rest ih =>
      rw [timeOf_cons, timeOf_cons, timeOf_cons]
      have hinside : inside start stop state =
          (Library.Intervals.length (clip start stop state) : Nat) := by
        unfold inside Library.Intervals.length
        omega
      unfold knownParts at ih ⊢
      cases hstate : state.state with
      | none =>
          rw [List.filter_cons_of_neg (by simp [hstate])]
          simpa using ih
      | some name =>
          rw [List.filter_cons_of_pos (by simp [hstate]), List.map_cons, List.map_cons,
            List.sum_cons]
          rw [Nat.cast_add, ← ih, ← hinside]
          cases hkind : timeKind name with
          | running => simp [hkind]; omega
          | runnable => simp [hkind]; omega
          | other => simp [hkind]; omega

theorem timeOf_nonneg (kind : TimeKind) : 0 ≤ timeOf start stop states kind := by
  refine List.sum_nonneg fun amount hmem => ?_
  obtain ⟨state, -, rfl⟩ := List.mem_map.mp hmem
  exact le_max_left _ _

/-- The instants of a window in which a state with a name goes on. -/
theorem covered_iff {time : Int} (hstart : start ≤ time) (hstop : time < stop) :
    (∃ part ∈ knownParts start stop (statesIn start stop states), part.1 ≤ time ∧ time < part.2) ↔
      ∃ state ∈ states, state.state.isSome ∧ state.ts ≤ time ∧ time < finish stop state := by
  constructor
  · rintro ⟨part, hpart, hfirst, hlast⟩
    obtain ⟨state, hstate, rfl⟩ := List.mem_map.mp hpart
    obtain ⟨hmem, hknown⟩ := List.mem_filter.mp hstate
    refine ⟨state, (mem_statesIn.mp hmem).1, hknown, ?_, ?_⟩
    · exact (le_max_right _ _).trans hfirst
    · exact lt_of_lt_of_le hlast (min_le_right _ _)
  · rintro ⟨state, hmem, hknown, hfirst, hlast⟩
    have hin : state ∈ statesIn start stop states := by
      refine mem_statesIn.mpr ⟨hmem, by omega, ?_⟩
      by_cases hopen : state.dur = -1
      · exact Or.inl hopen
      · rw [finish_ended hopen] at hlast
        exact Or.inr (by omega)
    refine ⟨clip start stop state, List.mem_map_of_mem (List.mem_filter.mpr ⟨hin, hknown⟩), ?_, ?_⟩
    · exact max_le hstart hfirst
    · exact lt_min hstop hlast

/-! ## The report -/

/-- A call has no totals if its thread is not known or if states of the thread overlap in its
window. Otherwise the totals are the times its thread spends in each kind of state inside the
window; none is negative, with the uncovered time they make up the window, and the status is
complete exactly when a state with a name goes on at every instant of the window. -/
theorem schedule_spec (threads : List Thread) (states : Nat → List ThreadState)
    (call : ScheduledCall) :
    ((∀ thread, matchingThreads threads call ≠ [thread]) →
        schedule threads states call = ⟨"unavailable", 0, 0, 0, max 0 call.dur, none⟩) ∧
      ∀ thread, matchingThreads threads call = [thread] → ∀ stop, stop = call.ts + max 0 call.dur →
        (call.ts < stop ∧ ¬ Separate stop (statesIn call.ts stop (states thread.utid)) →
          schedule threads states call = ⟨"overlapping_states", 0, 0, 0, max 0 call.dur, none⟩) ∧
        (¬ (call.ts < stop ∧ ¬ Separate stop (statesIn call.ts stop (states thread.utid))) →
          ∀ result, result = schedule threads states call →
            result.runningNs = timeOf call.ts stop (states thread.utid) .running ∧
            result.runnableNs = timeOf call.ts stop (states thread.utid) .runnable ∧
            result.otherNs = timeOf call.ts stop (states thread.utid) .other ∧
            0 ≤ result.runningNs ∧ 0 ≤ result.runnableNs ∧ 0 ≤ result.otherNs ∧
              0 ≤ result.uncoveredNs ∧
            result.runningNs + result.runnableNs + result.otherNs + result.uncoveredNs =
              max 0 call.dur ∧
            (result.status = "complete" ∨ result.status = "partial") ∧
            (result.status = "complete" ↔ ∀ time, call.ts ≤ time → time < stop →
              ∃ state ∈ states thread.utid,
                state.state.isSome ∧ state.ts ≤ time ∧ time < finish stop state)) := by
  constructor
  · intro hnone
    unfold schedule
    split
    · rename_i thread hthread
      exact absurd hthread (hnone thread)
    · rfl
  · rintro thread hthread stop hstop
    have hwindow : call.ts ≤ stop := by omega
    have hordered := @ordered_iff call.ts stop (states thread.utid) hwindow
    have hspec := @accumulate_spec call.ts stop (statesIn call.ts stop (states thread.utid))
      (fun state hmem => clip_valid hwindow hmem) call.ts (fun _ => 0)
    have hresult : schedule threads states call = Schedule.ofTotals (max 0 call.dur) thread.utid
        (accumulate call.ts stop call.ts (fun _ => 0)
          (statesIn call.ts stop (states thread.utid))) := by
      rw [hstop, schedule, hthread]
    constructor
    · rintro ⟨hless, hoverlap⟩
      have hnot : ¬ Ordered call.ts stop call.ts (statesIn call.ts stop (states thread.utid)) :=
        fun h =>
        (hordered.mp h).elim (Int.ne_of_lt hless) hoverlap
      rw [hresult, hspec.2 hnot]
      rfl
    · intro hgood result heq
      have hok : Ordered call.ts stop call.ts (statesIn call.ts stop (states thread.utid)) := by
        refine hordered.mpr ?_
        by_contra hbad
        push Not at hbad
        exact hgood ⟨lt_of_le_of_ne hwindow hbad.1, hbad.2⟩
      rw [hresult, hspec.1 hok] at heq
      simp only [Int.zero_add, timeOf_statesIn] at heq
      -- The known states are disjoint parts of the window.
      have hinside : ∀ part ∈ knownParts call.ts stop (statesIn call.ts stop (states thread.utid)),
          call.ts ≤ part.1 ∧ part.2 ≤ stop := by
        intro part hpart
        obtain ⟨state, -, rfl⟩ := List.mem_map.mp hpart
        exact ⟨le_max_left _ _, min_le_left _ _⟩
      have hdisjoint :
          (knownParts call.ts stop (statesIn call.ts stop (states thread.utid))).Pairwise
          fun first second => first.2 ≤ second.1 :=
        List.pairwise_map.mpr (hok.rest.filter _)
      have hsum := @sum_timeOf call.ts stop (statesIn call.ts stop (states thread.utid))
      simp only [timeOf_statesIn] at hsum
      have hle := Library.Intervals.sum_length_le hdisjoint hinside
      have hcover := Library.Intervals.sum_length_eq_iff hdisjoint hinside
      have hduration : ((stop - call.ts).toNat : Int) = max 0 call.dur := by omega
      subst heq
      refine ⟨rfl, rfl, rfl, timeOf_nonneg _, timeOf_nonneg _, timeOf_nonneg _, ?_, ?_, ?_, ?_⟩
      · change 0 ≤ max 0 call.dur - (timeOf call.ts stop (states thread.utid) .running +
          timeOf call.ts stop (states thread.utid) .runnable +
          timeOf call.ts stop (states thread.utid) .other)
        omega
      · change timeOf call.ts stop (states thread.utid) .running +
          timeOf call.ts stop (states thread.utid) .runnable +
          timeOf call.ts stop (states thread.utid) .other +
          (max 0 call.dur - (timeOf call.ts stop (states thread.utid) .running +
            timeOf call.ts stop (states thread.utid) .runnable +
            timeOf call.ts stop (states thread.utid) .other)) = max 0 call.dur
        omega
      · show (if _ then _ else _) = _ ∨ (if _ then _ else _) = _
        split
        · exact Or.inl rfl
        · exact Or.inr rfl
      · have hstatus : (Schedule.ofTotals (max 0 call.dur) thread.utid (some fun kind =>
            timeOf call.ts stop (states thread.utid) kind)).status = "complete" ↔
              timeOf call.ts stop (states thread.utid) .running +
                timeOf call.ts stop (states thread.utid) .runnable +
                timeOf call.ts stop (states thread.utid) .other = max 0 call.dur := by
          show (if _ then "complete" else "partial") = "complete" ↔ _
          split
          · exact iff_of_true rfl ‹_›
          · exact iff_of_false (by decide) ‹_›
        rw [hstatus, hsum, ← hduration, Nat.cast_inj, hcover]
        exact forall_congr' fun time => forall_congr' fun hstart => forall_congr' fun hstop =>
          covered_iff hstart hstop

end Anettrace.NetworkReport
