import Mathlib.Data.List.Induction
import Mathlib.Data.List.Pairwise
import Mathlib.Tactic.Linarith
import Mathlib.Tactic.Ring

/-!
# The rate limit

`check_rate_limit` of `src/progs/core.c`, with the clock read once for each call. A budget of events
is used up and then refilled from the time since the last refill. The time is multiplied as a 64-bit
number, and the product is stored as a 32-bit number with a sign.
-/

namespace Anettrace.Probes.RateLimit

/-! ## The code -/

def toInt32 (value : Nat) : Int :=
  if value % 2 ^ 32 < 2 ^ 31 then (value % 2 ^ 32 : Nat) else (value % 2 ^ 32 : Nat) - 2 ^ 32

def toUInt64 (value : Int) : Nat :=
  (value % 2 ^ 64).toNat

/-- The fields of `bpf_args_t` that a check changes. -/
structure RateArgs where
  lastUpdate : UInt64
  budget : Int
  deriving DecidableEq, Repr

/-- The fields as the tracer sets them for a limit. -/
def RateArgs.start (rateLimit : UInt32) : RateArgs :=
  ⟨0, toInt32 rateLimit.toNat⟩

/-- The time of the last refill, or of the first call. -/
def RateArgs.since (args : RateArgs) (now : UInt64) : UInt64 :=
  if args.lastUpdate = 0 then now else args.lastUpdate

/-- The time since the last refill in nanoseconds. -/
def RateArgs.elapsed (args : RateArgs) (now : UInt64) : Nat :=
  (now - args.since now).toNat

/-- The events of a time span, as they are computed in 64 bits. -/
def earned (rateLimit : UInt32) (elapsed : Nat) : Nat :=
  elapsed / 1000000 * toUInt64 (toInt32 rateLimit.toNat) % 2 ^ 64 / 1000

def refill (rateLimit : UInt32) (elapsed : Nat) : Int :=
  if toInt32 (earned rateLimit elapsed) < toInt32 rateLimit.toNat then
    toInt32 (earned rateLimit elapsed)
  else toInt32 rateLimit.toNat

/-- `check_rate_limit`: whether the event is admitted, and the fields after the check. -/
def checkRateLimit (rateLimit : UInt32) (args : RateArgs) (now : UInt64) : Bool × RateArgs :=
  if toInt32 rateLimit.toNat = 0 then (true, args)
  else if args.budget ≤ 0 then
    if refill rateLimit (args.elapsed now) ≤ 0 then (false, ⟨args.since now, args.budget⟩)
    else (true, ⟨now, refill rateLimit (args.elapsed now) - 1⟩)
  else (true, ⟨args.since now, args.budget - 1⟩)

/-! ## Runs -/

variable {rateLimit : UInt32} {args : RateArgs} {now first : UInt64} {times : List UInt64}

def after (rateLimit : UInt32) (args : RateArgs) (times : List UInt64) : RateArgs :=
  times.foldl (fun args now => (checkRateLimit rateLimit args now).2) args

def outcomes (rateLimit : UInt32) (args : RateArgs) : List UInt64 → List (UInt64 × Bool)
  | [] => []
  | now :: rest =>
      (now, (checkRateLimit rateLimit args now).1) ::
        outcomes rateLimit (checkRateLimit rateLimit args now).2 rest

def admitted (rateLimit : UInt32) (times : List UInt64) (time : UInt64) : Nat :=
  (outcomes rateLimit (RateArgs.start rateLimit) times).countP fun call => call.1 ≤ time && call.2

theorem outcomes_append (first second : List UInt64) :
    outcomes rateLimit args (first ++ second) =
      outcomes rateLimit args first ++ outcomes rateLimit (after rateLimit args first) second := by
  induction first generalizing args with
  | nil => rfl
  | cons now rest ih => exact congrArg (_ :: ·) ih

theorem after_concat :
    after rateLimit args (times ++ [now]) =
      (checkRateLimit rateLimit (after rateLimit args times) now).2 := by
  unfold after
  rw [List.foldl_append]
  rfl

theorem outcomes_times : (outcomes rateLimit args times).map Prod.fst = times := by
  induction times generalizing args with
  | nil => rfl
  | cons now rest ih => exact congrArg (now :: ·) ih

/-! ## Conversions -/

theorem toInt32_le (value : Nat) : toInt32 value ≤ value := by
  unfold toInt32
  have hmod := Nat.mod_le value (2 ^ 32)
  split
  · omega
  · omega

theorem toInt32_of_lt {value : Nat} (h : value < 2 ^ 31) : toInt32 value = value := by
  unfold toInt32
  rw [Nat.mod_eq_of_lt (by omega), if_pos h]

theorem toInt32_nonneg_iff : 0 ≤ toInt32 rateLimit.toNat ↔ rateLimit.toNat < 2 ^ 31 := by
  have hlt := rateLimit.toNat_lt
  unfold toInt32
  rw [Nat.mod_eq_of_lt hlt]
  split
  · omega
  · omega

theorem toInt32_pos_iff (value : Nat) :
    0 < toInt32 value ↔ 0 < value % 2 ^ 32 ∧ value % 2 ^ 32 < 2 ^ 31 := by
  unfold toInt32
  have hmod := Nat.mod_lt value (show 0 < 2 ^ 32 by decide)
  split
  · omega
  · omega

theorem toUInt64_of_nat {value : Nat} (h : value < 2 ^ 31) : toUInt64 (value : Int) = value := by
  unfold toUInt64
  omega

/-- A refill is at most what the limit allows for the time. -/
theorem refill_le (hlimit : rateLimit.toNat < 2 ^ 31) (elapsed : Nat) :
    refill rateLimit elapsed ≤ rateLimit.toNat ∧
      refill rateLimit elapsed * 1000000000 ≤ rateLimit.toNat * elapsed := by
  have hcap : refill rateLimit elapsed ≤ toInt32 rateLimit.toNat ∧
      refill rateLimit elapsed ≤ toInt32 (earned rateLimit elapsed) := by
    unfold refill
    split
    · omega
    · omega
  rw [toInt32_of_lt hlimit] at hcap
  refine ⟨hcap.1, ?_⟩
  have hearned : earned rateLimit elapsed * 1000000000 ≤ rateLimit.toNat * elapsed := by
    unfold earned
    rw [toInt32_of_lt hlimit, toUInt64_of_nat hlimit]
    calc elapsed / 1000000 * rateLimit.toNat % 2 ^ 64 / 1000 * 1000000000
        = elapsed / 1000000 * rateLimit.toNat % 2 ^ 64 / 1000 * 1000 * 1000000 := by ring
      _ ≤ elapsed / 1000000 * rateLimit.toNat % 2 ^ 64 * 1000000 :=
          Nat.mul_le_mul_right _ (Nat.div_mul_le_self _ _)
      _ ≤ elapsed / 1000000 * rateLimit.toNat * 1000000 := Nat.mul_le_mul_right _ (Nat.mod_le _ _)
      _ = rateLimit.toNat * (elapsed / 1000000 * 1000000) := by ring
      _ ≤ rateLimit.toNat * elapsed := Nat.mul_le_mul_left _ (Nat.div_mul_le_self _ _)
  have hint := toInt32_le (earned rateLimit elapsed)
  have hbound : (earned rateLimit elapsed : Int) * 1000000000 ≤ rateLimit.toNat * elapsed := by
    exact_mod_cast hearned
  calc refill rateLimit elapsed * 1000000000
      ≤ (earned rateLimit elapsed : Int) * 1000000000 := by
        have := hcap.2
        omega
    _ ≤ rateLimit.toNat * elapsed := hbound

/-! ## The budget -/

/-- What holds after calls at some times. Every event admitted and every event of the budget has
been paid for by the initial budget or by the refills up to the last one. -/
structure Paid (rateLimit : UInt32) (first : UInt64) (times : List UInt64) (args : RateArgs)
    (count : Nat) : Prop where
  nonneg : 0 ≤ args.budget
  capped : args.budget ≤ rateLimit.toNat
  refilled : args.lastUpdate = 0 ∨ args.lastUpdate ∈ times
  spent : (count + args.budget) * 1000000000 ≤
    rateLimit.toNat * (1000000000 + ((args.since first).toNat - first.toNat : Int))

theorem Paid.start (first : UInt64) (hlimit : rateLimit.toNat < 2 ^ 31) :
    Paid rateLimit first [] (RateArgs.start rateLimit) 0 := by
  have hbudget : (RateArgs.start rateLimit).budget = rateLimit.toNat := toInt32_of_lt hlimit
  refine ⟨?_, ?_, Or.inl rfl, ?_⟩
  · rw [hbudget]
    exact Int.natCast_nonneg _
  · rw [hbudget]
  · have hunset : (RateArgs.start rateLimit).since first = first := if_pos rfl
    rw [hbudget, hunset]
    simp

theorem since_le (h : args.lastUpdate = 0 ∨ args.lastUpdate ∈ times)
    (hlater : ∀ earlier ∈ times, earlier ≤ now) : args.since now ≤ now := by
  unfold RateArgs.since
  split
  · exact UInt64.le_refl _
  · rename_i hset
    exact hlater _ (h.resolve_left hset)

/-- The time of the last refill does not go back when a call notes it. -/
theorem since_le_noted (hfirst : first ≤ now) (budget : Int) :
    args.since first ≤ args.since now ∧
      args.since first ≤ RateArgs.since ⟨args.since now, budget⟩ first := by
  unfold RateArgs.since
  by_cases hunset : args.lastUpdate = 0
  · rw [if_pos hunset, if_pos hunset]
    refine ⟨hfirst, ?_⟩
    dsimp only
    split
    · exact UInt64.le_refl _
    · exact hfirst
  · rw [if_neg hunset, if_neg hunset, if_neg hunset]
    exact ⟨UInt64.le_refl _, UInt64.le_refl _⟩

/-- A refill leaves the time of the call. -/
theorem since_refilled (hfirst : first ≤ now) (budget : Int) :
    RateArgs.since ⟨now, budget⟩ first = now := by
  unfold RateArgs.since
  dsimp only
  split
  · rename_i hzero
    rw [hzero] at hfirst ⊢
    exact UInt64.le_zero_iff.mp hfirst
  · rfl

/-- The right side of the balance grows with the time of the last refill. -/
theorem allowance_le {early late : UInt64} (h : early ≤ late) :
    (rateLimit.toNat : Int) * (1000000000 + (early.toNat - first.toNat : Int)) ≤
      rateLimit.toNat * (1000000000 + (late.toNat - first.toNat : Int)) := by
  have hle : early.toNat ≤ late.toNat := UInt64.le_iff_toNat_le.mp h
  refine Int.mul_le_mul_of_nonneg_left ?_ (Int.natCast_nonneg _)
  omega

/-- One more call. -/
theorem Paid.step {count : Nat} (h : Paid rateLimit first times args count)
    (hlimit : rateLimit.toNat < 2 ^ 31) (hpositive : rateLimit ≠ 0) (hfirst : first ≤ now)
    (hlater : ∀ earlier ∈ times, earlier ≤ now) :
    Paid rateLimit first (times ++ [now]) (checkRateLimit rateLimit args now).2
      (count + if (checkRateLimit rateLimit args now).1 then 1 else 0) := by
  have hnonzero : ¬ toInt32 rateLimit.toNat = 0 := by
    rw [toInt32_of_lt hlimit]
    have : rateLimit.toNat ≠ 0 := fun hzero => hpositive (UInt32.toNat_inj.mp hzero)
    omega
  have hsince := since_le h.refilled hlater
  have hnoted : args.since now = 0 ∨ args.since now ∈ times ++ [now] := by
    unfold RateArgs.since
    split
    · exact Or.inr (List.mem_append_right _ (List.mem_singleton_self _))
    · exact h.refilled.imp id (List.mem_append_left _)
  have hnonneg := h.nonneg
  have hcapped := h.capped
  have hspent := h.spent
  unfold checkRateLimit
  rw [if_neg hnonzero]
  by_cases hused : args.budget ≤ 0
  · rw [if_pos hused]
    obtain ⟨hearly, hlate⟩ := @since_le_noted args now first hfirst args.budget
    by_cases hnothing : refill rateLimit (args.elapsed now) ≤ 0
    · rw [if_pos hnothing]
      refine ⟨hnonneg, hcapped, hnoted, ?_⟩
      have hmore := @allowance_le rateLimit first _ _ hlate
      simpa using Int.le_trans hspent hmore
    · -- The new budget is paid for by the time since the last refill.
      rw [if_neg hnothing]
      obtain ⟨hcap, hrefill⟩ := refill_le hlimit (args.elapsed now)
      have helapsed : (args.elapsed now : Int) = now.toNat - (args.since now).toNat := by
        have hle : (args.since now).toNat ≤ now.toNat := UInt64.le_iff_toNat_le.mp hsince
        rw [RateArgs.elapsed, UInt64.toNat_sub_of_le _ _ hsince]
        omega
      have hmore := @allowance_le rateLimit first _ _ hearly
      refine ⟨?_, ?_, Or.inr (List.mem_append_right _ (List.mem_singleton_self _)), ?_⟩
      · dsimp only
        omega
      · dsimp only
        omega
      · rw [since_refilled hfirst]
        rw [helapsed] at hrefill
        have hzero : args.budget = 0 := by omega
        rw [hzero] at hspent
        rw [if_pos rfl]
        push_cast
        linarith
  · rw [if_neg hused]
    obtain ⟨-, hlate⟩ := @since_le_noted args now first hfirst (args.budget - 1)
    have hmore := @allowance_le rateLimit first _ _ hlate
    refine ⟨?_, ?_, hnoted, ?_⟩
    · dsimp only
      omega
    · dsimp only
      omega
    · rw [if_pos rfl]
      push_cast
      linarith

/-! ## Whole runs -/

/-- The number of events admitted. -/
def total (calls : List (UInt64 × Bool)) : Nat :=
  calls.countP Prod.snd

theorem paid_after (hlimit : rateLimit.toNat < 2 ^ 31) (hpositive : rateLimit ≠ 0)
    (hfirst : ∀ time ∈ times, first ≤ time) (hsorted : times.Pairwise (· ≤ ·)) :
    Paid rateLimit first times (after rateLimit (RateArgs.start rateLimit) times)
      (total (outcomes rateLimit (RateArgs.start rateLimit) times)) := by
  induction times using List.reverseRecOn with
  | nil => exact Paid.start first hlimit
  | append_singleton times now ih =>
      obtain ⟨hbefore, hnow⟩ := List.forall_mem_append.mp hfirst
      obtain ⟨hsortedBefore, -, hlater⟩ := List.pairwise_append.mp hsorted
      have hstep := (ih hbefore hsortedBefore).step hlimit hpositive
        (hnow now (List.mem_singleton_self _)) fun earlier hmem =>
          hlater earlier hmem now (List.mem_singleton_self _)
      rw [after_concat, outcomes_append, total, List.countP_append]
      simpa [outcomes, List.countP_cons, total] using hstep

/-- A limit that is no positive `int` admits nothing. -/
theorem refused_of_negative (hnegative : toInt32 rateLimit.toNat < 0)
    (hbudget : args.budget = toInt32 rateLimit.toNat) :
    (checkRateLimit rateLimit args now).1 = false ∧
      (checkRateLimit rateLimit args now).2.budget = toInt32 rateLimit.toNat := by
  have hrefill : refill rateLimit (args.elapsed now) ≤ 0 := by
    unfold refill
    split
    · omega
    · omega
  unfold checkRateLimit
  rw [if_neg (by omega), if_pos (by omega), if_pos hrefill]
  exact ⟨rfl, hbudget⟩

theorem none_of_negative (hnegative : toInt32 rateLimit.toNat < 0)
    (hbudget : args.budget = toInt32 rateLimit.toNat) :
    total (outcomes rateLimit args times) = 0 := by
  induction times generalizing args with
  | nil => rfl
  | cons now rest ih =>
      obtain ⟨hrefused, hsame⟩ := @refused_of_negative rateLimit args now hnegative hbudget
      have hrest := ih hsame
      simpa [total, outcomes, List.countP_cons, hrefused] using hrest

/-! ## Bounds, admission and the range of the budget -/

/-- Up to a time, no more events are admitted than the limit and the limit for each second since the
first call. -/
def Bounded (rateLimit : UInt32) (times : List UInt64) : Prop :=
  ∀ first time, times.head? = some first → first ≤ time →
    admitted rateLimit times time * 1000000000 ≤
      rateLimit.toNat * (1000000000 + (time.toNat - first.toNat))

/-- A call that comes a second or more after the last refill is admitted. -/
def Admits (rateLimit : UInt32) (times : List UInt64) : Prop :=
  ∀ before now later, times = before ++ now :: later →
    1000000000 ≤ (after rateLimit (RateArgs.start rateLimit) before).elapsed now →
    (checkRateLimit rateLimit (after rateLimit (RateArgs.start rateLimit) before) now).1 = true

/-- The budget is never negative and never above the limit. -/
def InRange (rateLimit : UInt32) (times : List UInt64) : Prop :=
  ∀ before later, times = before ++ later →
    0 ≤ (after rateLimit (RateArgs.start rateLimit) before).budget ∧
      (after rateLimit (RateArgs.start rateLimit) before).budget ≤ rateLimit.toNat

/-- The events of a time span, cut to 32 bits, are a positive `int`. -/
def Fits (rateLimit : UInt32) (elapsed : Nat) : Prop :=
  let events := elapsed / 1000000 * rateLimit.toNat % 2 ^ 64 / 1000 % 2 ^ 32
  0 < events ∧ events < 2 ^ 31

/-- The part of a sorted list up to a time. -/
theorem split_at_time (hsorted : times.Pairwise (· ≤ ·)) (time : UInt64) :
    ∃ before later, times = before ++ later ∧ (∀ early ∈ before, early ≤ time) ∧
      ∀ late ∈ later, ¬ late ≤ time := by
  induction times with
  | nil => exact ⟨[], [], rfl, List.forall_mem_nil _, List.forall_mem_nil _⟩
  | cons now rest ih =>
      obtain ⟨hnow, hrest⟩ := List.pairwise_cons.mp hsorted
      by_cases hle : now ≤ time
      · obtain ⟨before, later, heq, hearly, hlate⟩ := ih hrest
        exact ⟨now :: before, later, congrArg (now :: ·) heq,
          List.forall_mem_cons.mpr ⟨hle, hearly⟩, hlate⟩
      · refine ⟨[], now :: rest, rfl, List.forall_mem_nil _, List.forall_mem_cons.mpr ⟨hle, ?_⟩⟩
        exact fun late hmem hlate => hle (UInt64.le_trans (hnow late hmem) hlate)

/-- The calls after a time do not count up to it, and those before it do. -/
theorem admitted_append {before later : List UInt64} {time : UInt64}
    (hearly : ∀ early ∈ before, early ≤ time) (hlate : ∀ late ∈ later, ¬ late ≤ time) :
    admitted rateLimit (before ++ later) time =
      total (outcomes rateLimit (RateArgs.start rateLimit) before) := by
  have hmem {args : RateArgs} {calls : List UInt64} {call : UInt64 × Bool}
      (h : call ∈ outcomes rateLimit args calls) : call.1 ∈ calls := by
    rw [← @outcomes_times rateLimit args calls]
    exact List.mem_map_of_mem h
  unfold admitted total
  rw [outcomes_append, List.countP_append]
  have hnone : (outcomes rateLimit (after rateLimit (RateArgs.start rateLimit) before) later).countP
      (fun call => call.1 ≤ time && call.2) = 0 := by
    refine List.countP_eq_zero.mpr fun call hcall hcounted => ?_
    exact hlate _ (hmem hcall) (of_decide_eq_true (Bool.and_eq_true _ _ ▸ hcounted).1)
  rw [hnone, Nat.add_zero]
  refine List.countP_congr fun call hcall => ?_
  simp [hearly _ (hmem hcall)]

theorem bounded_of_sorted (hpositive : rateLimit ≠ 0) (hsorted : times.Pairwise (· ≤ ·)) :
    Bounded rateLimit times := by
  intro first time hfirst htime
  obtain ⟨before, later, rfl, hearly, hlate⟩ := split_at_time hsorted time
  rw [admitted_append hearly hlate]
  by_cases hlimit : rateLimit.toNat < 2 ^ 31
  · have hleast : ∀ call ∈ before, first ≤ call := by
      intro call hmem
      cases before with
      | nil => cases hmem
      | cons head rest =>
          obtain rfl : head = first := Option.some.inj hfirst
          rcases List.mem_cons.mp hmem with rfl | hrest
          · exact UInt64.le_refl _
          · exact (List.pairwise_cons.mp (List.pairwise_append.mp hsorted).1).1 call hrest
    have hpaid := paid_after hlimit hpositive hleast (List.pairwise_append.mp hsorted).1
    have hsince : (after rateLimit (RateArgs.start rateLimit) before).since first ≤ time := by
      unfold RateArgs.since
      split
      · exact htime
      · rename_i hset
        exact hearly _ (hpaid.refilled.resolve_left hset)
    have hmore := @allowance_le rateLimit first _ _ hsince
    have hspent := hpaid.spent
    have hnonneg := hpaid.nonneg
    have hle : first.toNat ≤ time.toNat := UInt64.le_iff_toNat_le.mp htime
    zify [hle]
    linarith
  · have hnegative : toInt32 rateLimit.toNat < 0 := by
      have := mt toInt32_nonneg_iff.mp hlimit
      omega
    rw [none_of_negative hnegative rfl, Nat.zero_mul]
    exact Nat.zero_le _

/-- When a call a second or more after the last refill is admitted. -/
theorem admits_iff (hlimit : rateLimit.toNat < 2 ^ 31) (hpositive : rateLimit ≠ 0) :
    (checkRateLimit rateLimit args now).1 = true ↔
      0 < args.budget ∨ Fits rateLimit (args.elapsed now) := by
  have hnonzero : rateLimit.toNat ≠ 0 := fun hzero => hpositive (UInt32.toNat_inj.mp hzero)
  have hrefill : 0 < refill rateLimit (args.elapsed now) ↔ Fits rateLimit (args.elapsed now) := by
    have hpos := toInt32_pos_iff (earned rateLimit (args.elapsed now))
    unfold refill
    rw [toInt32_of_lt hlimit]
    unfold Fits
    unfold earned at hpos ⊢
    rw [toInt32_of_lt hlimit, toUInt64_of_nat hlimit] at hpos ⊢
    split
    · exact hpos
    · refine iff_of_true (by omega) (hpos.mp (by omega))
  unfold checkRateLimit
  rw [toInt32_of_lt hlimit, if_neg (by omega)]
  by_cases hused : args.budget ≤ 0
  · rw [if_pos hused]
    by_cases hnothing : refill rateLimit (args.elapsed now) ≤ 0
    · rw [if_pos hnothing]
      refine iff_of_false nofun ?_
      rintro (hleft | hfits)
      · omega
      · exact absurd (hrefill.mpr hfits) (by omega)
    · rw [if_neg hnothing]
      exact iff_of_true rfl (Or.inr (hrefill.mp (by omega)))
  · rw [if_neg hused]
    exact iff_of_true rfl (Or.inl (by omega))

/-- The limiter is a token bucket for a run exactly when the limit is a positive `int` and, at every
call that finds the budget used up a second or more after the last refill, so are the events of the
time since. -/
theorem token_bucket_iff (hpositive : rateLimit ≠ 0) (hsorted : times.Pairwise (· ≤ ·)) :
    (Bounded rateLimit times ∧ Admits rateLimit times ∧ InRange rateLimit times) ↔
      rateLimit.toNat < 2 ^ 31 ∧
        ∀ before now later, times = before ++ now :: later →
          (after rateLimit (RateArgs.start rateLimit) before).budget ≤ 0 →
          1000000000 ≤ (after rateLimit (RateArgs.start rateLimit) before).elapsed now →
          Fits rateLimit ((after rateLimit (RateArgs.start rateLimit) before).elapsed now) := by
  constructor
  · rintro ⟨-, hadmits, hrange⟩
    have hlimit : rateLimit.toNat < 2 ^ 31 := toInt32_nonneg_iff.mp (hrange [] times rfl).1
    refine ⟨hlimit, fun before now later heq hused hlate => ?_⟩
    have hadmitted := (admits_iff hlimit hpositive).mp (hadmits before now later heq hlate)
    exact hadmitted.resolve_left (by omega)
  · rintro ⟨hlimit, hfits⟩
    refine ⟨bounded_of_sorted hpositive hsorted, fun before now later heq hlate => ?_,
      fun before later heq => ?_⟩
    · refine (admits_iff hlimit hpositive).mpr ?_
      by_cases hused : (after rateLimit (RateArgs.start rateLimit) before).budget ≤ 0
      · exact Or.inr (hfits before now later heq hused hlate)
      · exact Or.inl (by omega)
    · rw [heq] at hsorted
      have hpaid := @paid_after rateLimit 0 before hlimit hpositive (fun _ _ => UInt64.zero_le)
        (List.pairwise_append.mp hsorted).1
      exact ⟨hpaid.nonneg, hpaid.capped⟩

/-- Calls at one time use up the budget one by one. -/
theorem after_burst {count : Nat} (hlimit : toInt32 rateLimit.toNat ≠ 0)
    (hsince : args.since now = now) (hcount : (count : Int) < args.budget) :
    after rateLimit args (List.replicate (count + 1) now) = ⟨now, args.budget - (count + 1)⟩ := by
  induction count generalizing args with
  | zero =>
      show (checkRateLimit rateLimit args now).2 = _
      rw [checkRateLimit, if_neg hlimit, if_neg (by omega), hsince]
      rfl
  | succ count ih =>
      rw [List.replicate_succ]
      show after rateLimit (checkRateLimit rateLimit args now).2 (List.replicate (count + 1) now) =
        _
      rw [checkRateLimit, if_neg hlimit, if_neg (by omega), hsince]
      have hnoted : RateArgs.since ⟨now, args.budget - 1⟩ now = now := by
        unfold RateArgs.since
        split
        · rfl
        · rfl
      rw [ih hnoted (by dsimp only; omega)]
      dsimp only
      congr 1
      omega

/-- With a limit of a thousand, a thousand events at once, and one more 25 days later: that one is
refused. -/
theorem refused_after_idle :
    ¬ (Bounded 1000 (List.replicate 1000 1 ++ [2147483648000001]) ∧
      Admits 1000 (List.replicate 1000 1 ++ [2147483648000001]) ∧
      InRange 1000 (List.replicate 1000 1 ++ [2147483648000001])) := by
  rintro ⟨-, hadmits, -⟩
  have hburst : after 1000 (RateArgs.start 1000) (List.replicate 1000 1) = ⟨1, 0⟩ :=
    after_burst (by decide) (by decide) (by decide)
  have hadmitted := hadmits (List.replicate 1000 1) 2147483648000001 [] rfl (by rw [hburst]; decide)
  rw [hburst] at hadmitted
  revert hadmitted
  decide

/-- Three calls at once, three after a second and a half, and one after that time again. -/
def spacedTimes : List UInt64 :=
  [1, 1, 1, 1500000001, 1500000001, 1500000002, 3000000001]

/-- With a limit of two, the third call of a burst is refused, and the first one after a second
without a refill is admitted. -/
theorem token_bucket_iff_spaced :
    (outcomes 2 (RateArgs.start 2) spacedTimes).map Prod.snd =
        [true, true, false, true, true, false, true] ∧
      Bounded 2 spacedTimes ∧ Admits 2 spacedTimes ∧ InRange 2 spacedTimes := by
  refine ⟨by decide, (token_bucket_iff (by decide) (by decide)).mpr ⟨by decide, ?_⟩⟩
  intro before now later heq hused hlate
  rcases before with _ | ⟨_, _ | ⟨_, _ | ⟨_, _ | ⟨_, _ | ⟨_, _ | ⟨_, _ | ⟨_, rest⟩⟩⟩⟩⟩⟩⟩
  · cases heq
    exact absurd hused (by decide)
  · cases heq
    exact absurd hused (by decide)
  · cases heq
    exact absurd hlate (by decide)
  · -- the refill after a second and a half
    cases heq
    unfold Fits
    decide
  · cases heq
    exact absurd hused (by decide)
  · cases heq
    exact absurd hlate (by decide)
  · -- and the one after that time again
    cases heq
    unfold Fits
    decide
  · have hlength := congrArg List.length heq
    simp only [spacedTimes, List.length_cons, List.length_append, List.length_nil] at hlength
    omega

end Anettrace.Probes.RateLimit
