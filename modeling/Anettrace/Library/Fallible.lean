import Mathlib.Data.List.Induction

/-!
# Runs that can fail

A step function with errors, folded over a list of inputs. The run ends at the first error; a run
that gets to its end has taken every step.
-/

namespace Library.Fallible

universe u

variable {α ε : Type*} {σ β : Type u} {step : σ → α → Except ε σ} {start result : σ}

/-- A computation in two parts has a value when both of them have one. -/
theorem bind_ok {first : Except ε σ} {second : σ → Except ε β} {value : β} :
    first >>= second = .ok value ↔ ∃ between, first = .ok between ∧ second between = .ok value := by
  cases first with
  | error error =>
      constructor
      · intro h
        cases h
      · rintro ⟨_, h, _⟩
        cases h
  | ok between =>
      constructor
      · exact fun h => ⟨between, rfl, h⟩
      · rintro ⟨_, ⟨⟩, h⟩
        exact h

/-- A run over a concatenation is a run over its first part and one over its second. -/
theorem foldlM_append_ok {first second : List α} :
    (first ++ second).foldlM step start = .ok result ↔
      ∃ state, first.foldlM step start = .ok state ∧ second.foldlM step state = .ok result := by
  rw [List.foldlM_append]
  exact bind_ok

theorem foldlM_concat_ok {inputs : List α} {input : α} :
    (inputs ++ [input]).foldlM step start = .ok result ↔
      ∃ state, inputs.foldlM step start = .ok state ∧ step state input = .ok result := by
  rw [foldlM_append_ok]
  refine exists_congr fun state => and_congr_right fun _ => ?_
  rw [List.foldlM_cons, bind_ok]
  constructor
  · rintro ⟨_, h, ⟨⟩⟩
    exact h
  · exact fun h => ⟨result, h, rfl⟩

/-- What holds at the start and survives every step holds at the end of a run. -/
theorem foldlM_invariant {Inv : σ → Prop} {inputs : List α} (hstart : Inv start)
    (hstep : ∀ state input next, input ∈ inputs → Inv state →
      step state input = .ok next → Inv next)
    (hrun : inputs.foldlM step start = .ok result) : Inv result := by
  induction inputs generalizing start with
  | nil =>
      cases hrun
      exact hstart
  | cons input rest ih =>
      rw [List.foldlM_cons] at hrun
      obtain ⟨next, hnext, hrest⟩ := bind_ok.mp hrun
      refine ih (hstep start input next List.mem_cons_self hstart hnext) ?_ hrest
      exact fun state other after hmem => hstep state other after (List.mem_cons_of_mem input hmem)

/-- Every input of a run meets a condition in the state that it finds. -/
def Throughout (step : σ → α → Except ε σ) (Meets : σ → α → Prop) (start : σ) (inputs : List α) :
    Prop :=
  ∀ before input rest state, inputs = before ++ input :: rest →
    before.foldlM step start = .ok state → Meets state input

/-- A condition on the inputs of a run is one on the first and one on the rest. -/
theorem throughout_cons {Meets : σ → α → Prop} {input : α} {inputs : List α}
    (hfirst : Meets start input)
    (hrest : ∀ next, step start input = .ok next → Throughout step Meets next inputs) :
    Throughout step Meets start (input :: inputs) := by
  intro before other rest state hsplit hrun
  cases before with
  | nil =>
      obtain ⟨rfl, -⟩ := List.cons.inj hsplit
      cases hrun
      exact hfirst
  | cons first before =>
      obtain ⟨rfl, htail⟩ := List.cons.inj hsplit
      rw [List.foldlM_cons] at hrun
      obtain ⟨next, hnext, hrun⟩ := bind_ok.mp hrun
      exact hrest next hnext before other rest state htail hrun

theorem throughout_of_forall {Meets : σ → α → Prop} {inputs : List α}
    (h : ∀ input ∈ inputs, ∀ state, Meets state input) : Throughout step Meets start inputs := by
  intro before input rest state hsplit _
  exact h input (by rw [hsplit]; simp) state

theorem map_ok {first : Except ε σ} {f : σ → β} {value : β} :
    first.map f = .ok value ↔ ∃ between, first = .ok between ∧ f between = value := by
  cases first with
  | error error =>
      constructor
      · intro h
        cases h
      · rintro ⟨_, h, _⟩
        cases h
  | ok between =>
      constructor
      · exact fun h => ⟨between, rfl, Except.ok.inj h⟩
      · rintro ⟨_, ⟨⟩, h⟩
        exact congrArg Except.ok h

/-- Every state of a run is related to each later one. -/
def Persists (step : σ → α → Except ε σ) (Kept : σ → σ → Prop) (start : σ) (inputs : List α) :
    Prop :=
  ∀ first second rest before after, inputs = first ++ second ++ rest →
    first.foldlM step start = .ok before → second.foldlM step before = .ok after → Kept before after

/-- A preorder persists in a run when every step keeps it, whatever else is known of the steps. -/
theorem persists_iff {Kept : σ → σ → Prop} {Meets : σ → α → Prop} {inputs : List α}
    (hrefl : ∀ state, Kept state state)
    (htrans : ∀ {first second third}, Kept first second → Kept second third → Kept first third)
    (hrun : inputs.foldlM step start = .ok result)
    (hstep : ∀ before input rest state next, inputs = before ++ input :: rest →
      before.foldlM step start = .ok state → step state input = .ok next →
      (Kept state next ↔ Meets state input)) :
    Persists step Kept start inputs ↔ Throughout step Meets start inputs := by
  constructor
  · intro h before input rest state hsplit hbefore
    rw [hsplit, foldlM_append_ok] at hrun
    obtain ⟨_, hsame, hrun⟩ := hrun
    obtain rfl := Except.ok.inj (hbefore.symm.trans hsame)
    rw [List.foldlM_cons] at hrun
    obtain ⟨next, hnext, -⟩ := bind_ok.mp hrun
    refine (hstep before input rest state next hsplit hbefore hnext).mp ?_
    refine h before [input] rest state next (by rw [hsplit, List.append_assoc]; rfl) hbefore ?_
    exact bind_ok.mpr ⟨next, hnext, rfl⟩
  · intro h first second
    induction second using List.reverseRecOn with
    | nil =>
        rintro rest before after - - hsecond
        cases hsecond
        exact hrefl before
    | append_singleton second last ih =>
        intro rest before after hsplit hfirst hsecond
        obtain ⟨between, hbetween, hlast⟩ := foldlM_concat_ok.mp hsecond
        have hcons : inputs = first ++ second ++ last :: rest := by simp [hsplit]
        have hreach : (first ++ second).foldlM step start = .ok between :=
          foldlM_append_ok.mpr ⟨before, hfirst, hbetween⟩
        refine htrans (ih (last :: rest) before between hcons hfirst hbetween) ?_
        refine (hstep (first ++ second) last rest between after hcons hreach hlast).mpr ?_
        exact h (first ++ second) last rest between hcons hreach

end Library.Fallible
