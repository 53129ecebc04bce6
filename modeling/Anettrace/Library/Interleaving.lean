import Anettrace.Library.Fallible

/-!
# Interleavings

A machine that can fail, fed with the inputs of several components. Where a step depends only on
what its component sees, and changes nothing that the others see, each component is left as if its
inputs were the only ones: a run of the whole fails exactly when one of them fails by itself, and
otherwise agrees with all of them.
-/

namespace Library.Interleaving

open Fallible

universe u

variable {α ε ι : Type*} {σ β : Type u}

/-- Two outcomes agree: both are errors, or they are states in a relation. -/
inductive Agree (same : σ → σ → Prop) : Except ε σ → Except ε σ → Prop
  | errors (first second : ε) : Agree same (.error first) (.error second)
  | states {first second : σ} (h : same first second) : Agree same (.ok first) (.ok second)

variable {same : σ → σ → Prop} {first second : Except ε σ}

theorem Agree.mono {more : σ → σ → Prop} (h : Agree same first second)
    (hmore : ∀ state other, first = .ok state → second = .ok other → same state other →
      more state other) : Agree more first second := by
  cases h with
  | errors one two => exact .errors one two
  | states h => exact .states (hmore _ _ rfl rfl h)

theorem Agree.left (h : Agree same first second) {state : σ} (hfirst : first = .ok state) :
    ∃ other, second = .ok other ∧ same state other := by
  cases h with
  | errors => cases hfirst
  | states h =>
      cases hfirst
      exact ⟨_, rfl, h⟩

theorem Agree.right (h : Agree same first second) {other : σ} (hsecond : second = .ok other) :
    ∃ state, first = .ok state ∧ same state other := by
  cases h with
  | errors => cases hsecond
  | states h =>
      cases hsecond
      exact ⟨_, rfl, h⟩

theorem Agree.bind (start : Except ε β) {first second : β → Except ε σ}
    (h : ∀ value, start = .ok value → Agree same (first value) (second value)) :
    Agree same (start >>= first) (start >>= second) := by
  cases start with
  | error error => exact .errors error error
  | ok value => exact h value rfl

/-- Components that see some of the inputs, with what the whole and a component by itself have in
common: a step on what the component sees agrees, and one on what another component sees leaves
it. -/
structure Separates (step : σ → α → Except ε σ) (sees : ι → α → Bool) (same : ι → σ → σ → Prop) :
    Prop where
  own : ∀ {i input whole alone}, sees i input = true → same i whole alone →
    Agree (same i) (step whole input) (step alone input)
  other : ∀ {i j input whole next alone}, sees j input = true → sees i input = false →
    same i whole alone → step whole input = .ok next → same i next alone

variable {step : σ → α → Except ε σ} {sees : ι → α → Bool} {shared : ι → σ → σ → Prop}
  {inputs : List α}

/-- What a component has by itself is what it has in the whole. -/
theorem Separates.splits (h : Separates step sees shared) {i : ι} {whole alone after : σ}
    (hseen : ∀ input ∈ inputs, ∃ j, sees j input = true) (hsame : shared i whole alone)
    (hrun : inputs.foldlM step whole = .ok after) :
    ∃ own, (inputs.filter (sees i)).foldlM step alone = .ok own ∧ shared i after own := by
  induction inputs generalizing whole alone with
  | nil =>
      cases hrun
      exact ⟨alone, rfl, hsame⟩
  | cons input rest ih =>
      rw [List.foldlM_cons] at hrun
      obtain ⟨next, hnext, hrest⟩ := bind_ok.mp hrun
      obtain ⟨⟨j, hj⟩, hseen⟩ := List.forall_mem_cons.mp hseen
      cases hi : sees i input with
      | false =>
          rw [List.filter_cons_of_neg (by rw [hi]; decide)]
          exact ih hseen (h.other hj hi hsame hnext) hrest
      | true =>
          obtain ⟨own, hown, hboth⟩ := (h.own hi hsame).left hnext
          rw [List.filter_cons_of_pos hi, List.foldlM_cons, hown]
          exact ih hseen hboth hrest

/-- Where no component fails by itself, the whole does not fail. -/
theorem Separates.joins (h : Separates step sees shared) {whole : σ} {alone : ι → σ}
    (hseen : ∀ input ∈ inputs, ∃ j, sees j input = true) (hsame : ∀ i, shared i whole (alone i))
    (hruns : ∀ i, ∃ own, (inputs.filter (sees i)).foldlM step (alone i) = .ok own) :
    ∃ after, inputs.foldlM step whole = .ok after := by
  induction inputs generalizing whole alone with
  | nil => exact ⟨whole, rfl⟩
  | cons input rest ih =>
      obtain ⟨⟨j, hj⟩, hseen⟩ := List.forall_mem_cons.mp hseen
      -- the component that sees the input takes the step, so the whole takes it too
      obtain ⟨next, hnext⟩ : ∃ next, step whole input = .ok next := by
        obtain ⟨own, hown⟩ := hruns j
        rw [List.filter_cons_of_pos hj, List.foldlM_cons] at hown
        obtain ⟨between, hbetween, -⟩ := bind_ok.mp hown
        obtain ⟨next, hnext, -⟩ := (h.own hj (hsame j)).right hbetween
        exact ⟨next, hnext⟩
      have hafter : ∀ i, ∃ between, shared i next between ∧
          ∃ own, (rest.filter (sees i)).foldlM step between = .ok own := by
        intro i
        obtain ⟨own, hown⟩ := hruns i
        cases hi : sees i input with
        | false =>
            rw [List.filter_cons_of_neg (by rw [hi]; decide)] at hown
            exact ⟨alone i, h.other hj hi (hsame i) hnext, own, hown⟩
        | true =>
            rw [List.filter_cons_of_pos hi, List.foldlM_cons] at hown
            obtain ⟨between, hbetween, hown⟩ := bind_ok.mp hown
            obtain ⟨state, hstate, hboth⟩ := (h.own hi (hsame i)).right hbetween
            obtain rfl : next = state := Except.ok.inj (hnext.symm.trans hstate)
            exact ⟨between, hboth, own, hown⟩
      choose between hboth hown using hafter
      obtain ⟨after, hrun⟩ := ih hseen hboth hown
      exact ⟨after, by rw [List.foldlM_cons, hnext]; exact hrun⟩

end Library.Interleaving
