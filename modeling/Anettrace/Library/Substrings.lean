import Mathlib.Data.List.DropRight
import Mathlib.Data.List.Infix

/-!
# Parts of a list

The front of a list whose members meet a predicate, and what is behind it. A text is split at the
first place where a mark stands, and a mark is replaced wherever it stands. No part of a mark
without a border can stand for the beginning of another.
-/

namespace Library.Spans

variable {α : Type*} {p : α → Bool} {list front back : List α}

/-- The front is the one part that ends where the predicate first fails. -/
theorem span_iff :
    (list.takeWhile p = front ∧ list.dropWhile p = back) ↔
      list = front ++ back ∧ (∀ each ∈ front, p each = true) ∧
        ∀ next ∈ back.head?, p next = false := by
  constructor
  · rintro ⟨rfl, rfl⟩
    refine ⟨List.takeWhile_append_dropWhile.symm, fun each => List.mem_takeWhile_imp, ?_⟩
    intro next hnext
    have hnot := List.head?_dropWhile_not p list
    rw [Option.mem_def.mp hnext] at hnot
    exact hnot
  · rintro ⟨rfl, hfront, hback⟩
    have htake : back.takeWhile p = [] := by
      cases back with
      | nil => rfl
      | cons next rest => exact List.takeWhile_cons_of_neg (by simp [hback next rfl])
    have hdrop : back.dropWhile p = back := by
      cases back with
      | nil => rfl
      | cons next rest => exact List.dropWhile_cons_of_neg (by simp [hback next rfl])
    exact ⟨by rw [List.takeWhile_append_of_pos hfront, htake, List.append_nil],
      by rw [List.dropWhile_append_of_pos hfront, hdrop]⟩

/-- The same from the end of the list. -/
theorem rspan_iff :
    (list.rdropWhile p = front ∧ list.rtakeWhile p = back) ↔
      list = front ++ back ∧ (∀ each ∈ back, p each = true) ∧
        ∀ last ∈ front.getLast?, p last = false := by
  have hspan := @span_iff α p list.reverse back.reverse front.reverse
  rw [List.head?_reverse, ← List.reverse_append, List.reverse_inj] at hspan
  simp only [List.mem_reverse] at hspan
  rw [← hspan, List.rdropWhile, List.rtakeWhile, List.reverse_eq_iff, List.reverse_eq_iff, and_comm]

end Library.Spans


namespace Library.Substrings

variable {α : Type*} [DecidableEq α] {mark text front back new : List α}

def splitOnce (mark : List α) : List α → Option (List α × List α)
  | [] => if mark = [] then some ([], []) else none
  | first :: rest =>
      if mark.isPrefixOf (first :: rest) then some ([], (first :: rest).drop mark.length)
      else (splitOnce mark rest).map fun parts => (first :: parts.1, parts.2)

def replaceFrom (mark new : List α) : Nat → List α → List α
  | 0, text => text
  | bound + 1, text =>
      match splitOnce mark text with
      | none => text
      | some (front, back) => front ++ (new ++ replaceFrom mark new bound back)

def replaceAll (mark new text : List α) : List α := replaceFrom mark new text.length text

/-- No end of a mark is a beginning of it. -/
def Borderless (mark : List α) : Prop :=
  ∀ place < mark.length, 0 < place → ¬ mark.drop place <+: mark

instance : Decidable (Borderless mark) := inferInstanceAs (Decidable (∀ place < mark.length, _))

omit [DecidableEq α] in
/-- A mark does not begin inside a text without one in front of a mark. -/
theorem not_prefix (hborder : Borderless mark) (hsome : front ≠ []) (hfront : ¬ mark <:+: front)
    (back : List α) :
    ¬ mark <+: front ++ (mark ++ back) := by
  intro h
  rcases Nat.le_total mark.length front.length with hle | hle
  · exact hfront (List.prefix_of_prefix_length_le h (List.prefix_append _ _) hle).isInfix
  · obtain ⟨rest, rfl⟩ := List.prefix_of_prefix_length_le (List.prefix_append _ _) h hle
    have hrest : rest <+: front ++ rest ++ back := (List.prefix_append_right_inj front).mp h
    have hborders : rest <+: front ++ rest := by
      refine List.prefix_of_prefix_length_le hrest (List.prefix_append _ _) ?_
      rw [List.length_append]
      exact Nat.le_add_left _ _
    have hpos := List.length_pos_iff.mpr hsome
    rcases List.eq_nil_or_concat' rest with rfl | ⟨more, last, rfl⟩
    · exact hfront (by rw [List.append_nil])
    · refine hborder front.length ?_ hpos ?_
      · rw [List.length_append, List.length_append]
        exact Nat.lt_add_of_pos_right (Nat.succ_pos _)
      · rwa [List.drop_left]

/-- A mark behind a text without one is the first. -/
theorem splitOnce_append (hborder : Borderless mark) (hfront : ¬ mark <:+: front) (back : List α) :
    splitOnce mark (front ++ (mark ++ back)) = some (front, back) := by
  have hsome : mark ≠ [] := by
    rintro rfl
    exact hfront (List.nil_infix)
  induction front with
  | nil =>
      cases mark with
      | nil => exact absurd rfl hsome
      | cons first rest =>
          rw [List.nil_append, List.cons_append, splitOnce, ← List.cons_append,
            if_pos (List.isPrefixOf_iff_prefix.mpr (List.prefix_append _ _)), List.drop_left]
  | cons first rest ih =>
      have hrest : ¬ mark <:+: rest := fun h => hfront (h.trans (List.suffix_cons _ _).isInfix)
      have hnot : ¬ mark.isPrefixOf (first :: (rest ++ (mark ++ back))) = true := fun h =>
        not_prefix hborder (List.cons_ne_nil first rest) hfront back
          (List.isPrefixOf_iff_prefix.mp h)
      rw [List.cons_append, splitOnce, if_neg hnot, ih hrest]
      rfl

theorem splitOnce_none (h : ¬ mark <:+: text) : splitOnce mark text = none := by
  induction text with
  | nil => exact if_neg fun hnil => h (by rw [hnil])
  | cons first rest ih =>
      have hnot : ¬ mark.isPrefixOf (first :: rest) = true := fun hprefix =>
        h (List.isPrefixOf_iff_prefix.mp hprefix).isInfix
      rw [splitOnce, if_neg hnot, ih fun hrest => h (hrest.trans (List.suffix_cons _ _).isInfix)]
      rfl

theorem replaceAll_append (hborder : Borderless mark) (hfront : ¬ mark <:+: front)
    (hback : ¬ mark <:+: back) :
    replaceAll mark new (front ++ (mark ++ back)) = front ++ (new ++ back) := by
  have hsome : mark ≠ [] := by
    rintro rfl
    exact hfront List.nil_infix
  have hpos := List.length_pos_iff.mpr hsome
  obtain ⟨bound, hbound⟩ : ∃ bound, (front ++ (mark ++ back)).length = bound + 1 := by
    refine Nat.exists_eq_succ_of_ne_zero ?_
    simp only [List.length_append]
    omega
  have hrest (bound : Nat) : replaceFrom mark new bound back = back := by
    cases bound with
    | zero => rfl
    | succ bound => rw [replaceFrom, splitOnce_none hback]
  rw [replaceAll, hbound, replaceFrom, splitOnce_append hborder hfront]
  dsimp only
  rw [hrest]

end Library.Substrings
