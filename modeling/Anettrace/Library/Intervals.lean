import Mathlib.Data.Int.ConditionallyCompleteOrder
import Mathlib.Data.Int.Interval
import Mathlib.Order.ConditionallyCompleteLattice.Basic

/-!
# Disjoint intervals

Lists of half-open intervals of integers, each of which ends before those after it begin. Their
lengths add up to the number of points they cover.
-/

namespace Library.Intervals

variable {intervals : List (Int × Int)} {low high : Int}

/-- The number of points of an interval. -/
def length (interval : Int × Int) : Nat :=
  (interval.2 - interval.1).toNat

noncomputable def points : List (Int × Int) → Finset Int
  | [] => ∅
  | interval :: rest => Finset.Ico interval.1 interval.2 ∪ points rest

theorem mem_points {point : Int} :
    point ∈ points intervals ↔ ∃ interval ∈ intervals, interval.1 ≤ point ∧ point < interval.2 := by
  induction intervals with
  | nil => simp [points]
  | cons interval rest ih => simp [points, ih]

theorem card_points (h : intervals.Pairwise fun first second => first.2 ≤ second.1) :
    (points intervals).card = (intervals.map length).sum := by
  induction intervals with
  | nil => rfl
  | cons interval rest ih =>
      obtain ⟨hfirst, hrest⟩ := List.pairwise_cons.mp h
      have hdisjoint : Disjoint (Finset.Ico interval.1 interval.2) (points rest) := by
        refine Finset.disjoint_left.mpr fun point hpoint hother => ?_
        obtain ⟨other, hmem, hle, -⟩ := mem_points.mp hother
        have hlt := (Finset.mem_Ico.mp hpoint).2
        have hbefore := hfirst other hmem
        omega
      rw [points, Finset.card_union_of_disjoint hdisjoint, Int.card_Ico, ih hrest, List.map_cons,
        List.sum_cons]
      rfl

theorem points_subset (hinside : ∀ interval ∈ intervals, low ≤ interval.1 ∧ interval.2 ≤ high) :
    points intervals ⊆ Finset.Ico low high := by
  intro point hpoint
  obtain ⟨interval, hmem, hle, hlt⟩ := mem_points.mp hpoint
  obtain ⟨hlow, hhigh⟩ := hinside interval hmem
  exact Finset.mem_Ico.mpr ⟨by omega, by omega⟩

section

variable (h : intervals.Pairwise fun first second => first.2 ≤ second.1)
  (hinside : ∀ interval ∈ intervals, low ≤ interval.1 ∧ interval.2 ≤ high)
include h hinside

/-- Intervals inside a window are no longer than it. -/
theorem sum_length_le :
    (intervals.map length).sum ≤ (high - low).toNat := by
  rw [← card_points h, ← Int.card_Ico]
  exact Finset.card_le_card (points_subset hinside)

/-- They are as long as the window exactly when they leave no point of it out. -/
theorem sum_length_eq_iff :
    (intervals.map length).sum = (high - low).toNat ↔
      ∀ point, low ≤ point → point < high →
        ∃ interval ∈ intervals, interval.1 ≤ point ∧ point < interval.2 := by
  rw [← card_points h, ← Int.card_Ico]
  constructor
  · intro hcard point hlow hhigh
    have hall := Finset.eq_of_subset_of_card_le (points_subset hinside) (Nat.le_of_eq hcard.symm)
    exact mem_points.mp (hall ▸ Finset.mem_Ico.mpr ⟨hlow, hhigh⟩)
  · intro hall
    refine congrArg Finset.card (Finset.Subset.antisymm (points_subset hinside) fun point hpoint =>
      ?_)
    obtain ⟨hlow, hhigh⟩ := Finset.mem_Ico.mp hpoint
    exact mem_points.mpr (hall point hlow hhigh)

end

end Library.Intervals
