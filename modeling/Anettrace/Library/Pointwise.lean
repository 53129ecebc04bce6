import Mathlib.Data.List.Forall2
import Anettrace.Library.Fallible

/-!
# Lists related pointwise

What is known of two lists of which each element of one is related to the one at its place in the
other.
-/

namespace Library.Pointwise

open List (Forall₂)

variable {α β γ : Type*} {R : α → β → Prop} {S : β → γ → Prop} {T : α → γ → Prop}
  {first : List α} {second : List β} {third : List γ}

theorem trans (h : ∀ {a b c}, R a b → S b c → T a c) (hfirst : Forall₂ R first second)
    (hsecond : Forall₂ S second third) : Forall₂ T first third := by
  induction hfirst generalizing third with
  | nil =>
      cases hsecond
      exact .nil
  | cons hhead _ ih =>
      cases hsecond with
      | cons hnext hrest => exact .cons (h hhead hnext) (ih hrest)

theorem exists_left (h : Forall₂ R first second) {b : β} (hmem : b ∈ second) :
    ∃ a ∈ first, R a b := by
  induction h with
  | nil => cases hmem
  | cons hhead _ ih =>
      obtain rfl | hmem := List.mem_cons.mp hmem
      · exact ⟨_, List.mem_cons_self, hhead⟩
      · obtain ⟨a, ha, hrelated⟩ := ih hmem
        exact ⟨a, List.mem_cons_of_mem _ ha, hrelated⟩

theorem exists_right (h : Forall₂ R first second) {a : α} (hmem : a ∈ first) :
    ∃ b ∈ second, R a b :=
  exists_left h.flip hmem

section

variable {p : α → Bool} {q : β → Bool} (h : Forall₂ R first second)
  (hsame : ∀ {a b}, R a b → p a = q b)
include h hsame

theorem any_eq : first.any p = second.any q := by
  induction h with
  | nil => rfl
  | cons hhead _ ih => rw [List.any_cons, List.any_cons, hsame hhead, ih]

/-- What is found first in one list is at the place of what is found first in the other. -/
theorem find?_cases :
    (first.find? p = none ∧ second.find? q = none) ∨
      ∃ a b, first.find? p = some a ∧ second.find? q = some b ∧ R a b := by
  induction h with
  | nil => exact .inl ⟨rfl, rfl⟩
  | @cons a b _ _ hhead _ ih =>
      have hp := hsame hhead
      cases hq : q b with
      | true => exact .inr ⟨a, b, by simp [hp, hq], by simp [hq], hhead⟩
      | false => simpa [hp, hq] using ih

end

theorem map_right {f : α → β} (h : ∀ a ∈ first, R a (f a)) : Forall₂ R first (first.map f) :=
  List.forall₂_map_right_iff.mpr (List.forall₂_same.mpr h)

/-- A function with errors that is mapped over a list relates its elements to their values. -/
theorem of_mapM {ε : Type*} {α β : Type} {f : α → Except ε β} {first : List α} {second : List β}
    (h : first.mapM f = .ok second) : Forall₂ (fun a b => f a = .ok b) first second := by
  induction first generalizing second with
  | nil =>
      obtain rfl := Except.ok.inj (h.symm.trans rfl)
      exact .nil
  | cons head rest ih =>
      rw [List.mapM_cons] at h
      obtain ⟨value, hvalue, h⟩ := Fallible.bind_ok.mp h
      obtain ⟨values, hvalues, h⟩ := Fallible.bind_ok.mp h
      obtain rfl := Except.ok.inj h
      exact .cons hvalue (ih hvalues)

end Library.Pointwise
