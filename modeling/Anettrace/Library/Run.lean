import Mathlib.Data.List.Induction

/-!
# Runs of step functions

A machine is a step function `σ → ι → σ`, and a run feeds it a list of inputs. `run_history` is
the rule every run result of the development goes through: a relation between the inputs consumed
so far and the state reached, true of the empty history and preserved by one more input, holds
after every run. `logged` turns a step that returns effects into a step that appends them to a log,
so that one rule covers both kinds of machine. A log may have to fit, item by item, to what was in
it before.
-/

namespace Library.Run

variable {σ ι ε : Type*}

/-- The state reached from `start` by consuming `inputs` in order. -/
def run (step : σ → ι → σ) (start : σ) (inputs : List ι) : σ :=
  inputs.foldl step start

variable (step : σ → ι → σ) (start : σ)

@[simp] theorem run_nil : run step start [] = start := rfl

@[simp] theorem run_cons (input : ι) (inputs : List ι) :
    run step start (input :: inputs) = run step (step start input) inputs := rfl

theorem run_append (first second : List ι) :
    run step start (first ++ second) = run step (run step start first) second :=
  List.foldl_append

@[simp] theorem run_concat (inputs : List ι) (input : ι) :
    run step start (inputs ++ [input]) = step (run step start inputs) input := by
  rw [run_append]
  rfl

variable {step start}

/-- A relation between history and state that holds at the start and survives one more input
holds after every run. The induction is on the history, extended at its end. -/
theorem run_history {Inv : List ι → σ → Prop} (hstart : Inv [] start)
    (hstep : ∀ history input, Inv history (run step start history) →
      Inv (history ++ [input]) (step (run step start history) input))
    (inputs : List ι) : Inv inputs (run step start inputs) := by
  induction inputs using List.reverseRecOn with
  | nil => exact hstart
  | append_singleton history input ih =>
      rw [run_concat]
      exact hstep history input ih

/-- The rule for relations that do not mention the history. -/
theorem run_invariant {Inv : σ → Prop} (hstart : Inv start)
    (hstep : ∀ state input, Inv state → Inv (step state input)) (inputs : List ι) :
    Inv (run step start inputs) := by
  have h := @run_history σ ι step start (fun _ state => Inv state) hstart
    (fun history input h => hstep (run step start history) input h)
  exact h inputs

/-- Every input of a run meets a condition in the state that it finds. -/
def Along (step : σ → ι → σ) (Meets : σ → ι → Prop) : σ → List ι → Prop
  | _, [] => True
  | start, input :: inputs => Meets start input ∧ Along step Meets (step start input) inputs

/-- A condition that can be tested at every input can be tested along a run. -/
instance instDecidableAlong {Meets : σ → ι → Prop} [∀ state input, Decidable (Meets state input)] :
    ∀ (state : σ) (inputs : List ι), Decidable (Along step Meets state inputs)
  | _, [] => isTrue trivial
  | state, input :: inputs =>
      have : Decidable (Along step Meets (step state input) inputs) :=
        instDecidableAlong (step state input) inputs
      inferInstanceAs (Decidable (_ ∧ _))

/-- The inputs that come before one lead to the state that it finds. -/
theorem along_iff {Meets : σ → ι → Prop} {inputs : List ι} :
    Along step Meets start inputs ↔
      ∀ before input later, inputs = before ++ input :: later →
        Meets (run step start before) input := by
  induction inputs generalizing start with
  | nil => simp [Along]
  | cons first rest ih =>
      unfold Along
      rw [ih]
      constructor
      · rintro ⟨hfirst, hrest⟩ before input later heq
        cases before with
        | nil =>
            obtain ⟨rfl, -⟩ := List.cons.inj heq
            exact hfirst
        | cons head tail =>
            obtain ⟨rfl, htail⟩ := List.cons.inj heq
            exact hrest tail input later htail
      · intro h
        refine ⟨h [] first rest rfl, fun before input later heq => ?_⟩
        exact h (first :: before) input later (by rw [heq]; rfl)
/-- A condition along a run holds along its parts. -/
theorem along_append {Meets : σ → ι → Prop} {first second : List ι} :
    Along step Meets start (first ++ second) ↔
      Along step Meets start first ∧ Along step Meets (run step start first) second := by
  induction first generalizing start with
  | nil => exact ⟨fun h => ⟨trivial, h⟩, And.right⟩
  | cons input rest ih =>
      show Meets start input ∧ Along step Meets (step start input) (rest ++ second) ↔
        (Meets start input ∧ Along step Meets (step start input) rest) ∧ _
      rw [ih, and_assoc]
      rfl

/-- A condition along a run may be weakened. -/
theorem Along.imp {Meets More : σ → ι → Prop} {inputs : List ι} (h : Along step Meets start inputs)
    (himp : ∀ state input, Meets state input → More state input) :
    Along step More start inputs := by
  induction inputs generalizing start with
  | nil => trivial
  | cons input rest ih => exact ⟨himp _ _ h.1, ih h.2⟩


/-- A step with effects, as a step that appends them to a log. -/
def logged (step : σ → ι → σ × List ε) (state : σ × List ε) (input : ι) : σ × List ε :=
  ((step state.1 input).1, state.2 ++ (step state.1 input).2)

/-- What `observe` sees of each step of a run, in order. -/
def observations (step : σ → ι → σ) (observe : σ → ι → List ε) (start : σ)
    (inputs : List ι) : List ε :=
  (run (logged fun state input => (step state input, observe state input)) (start, []) inputs).2

variable {observe : σ → ι → List ε}

@[simp] theorem observations_nil : observations step observe start [] = [] := rfl

theorem run_observed (inputs : List ι) :
    (run (logged fun state input => (step state input, observe state input)) (start, ([] : List ε))
      inputs).1 = run step start inputs := by
  induction inputs using List.reverseRecOn with
  | nil => rfl
  | append_singleton history input ih =>
      rw [run_concat, run_concat, ← ih]
      rfl

@[simp] theorem observations_concat (inputs : List ι) (input : ι) :
    observations step observe start (inputs ++ [input]) =
      observations step observe start inputs ++ observe (run step start inputs) input := by
  have hstate := @run_observed _ _ _ step start observe inputs
  unfold observations
  rw [run_concat, ← hstate]
  rfl

theorem mem_observations {effect : ε} {inputs : List ι} :
    effect ∈ observations step observe start inputs ↔
      ∃ before input after, inputs = before ++ input :: after ∧
        effect ∈ observe (run step start before) input := by
  induction inputs using List.reverseRecOn with
  | nil => simp
  | append_singleton history last ih =>
      rw [observations_concat, List.mem_append, ih]
      constructor
      · rintro (⟨before, input, after, rfl, hmem⟩ | hmem)
        · exact ⟨before, input, after ++ [last], by simp, hmem⟩
        · exact ⟨history, last, [], rfl, hmem⟩
      · rintro ⟨before, input, after, hsplit, hmem⟩
        obtain rfl | ⟨rest, final, rfl⟩ := List.eq_nil_or_concat after
        · obtain ⟨rfl, heq⟩ := List.append_inj' hsplit rfl
          obtain rfl : last = input := List.singleton_inj.mp heq
          exact Or.inr hmem
        · rw [List.concat_eq_append, ← List.cons_append, ← List.append_assoc] at hsplit
          exact Or.inl ⟨before, input, rest, (List.append_inj' hsplit rfl).1, hmem⟩

end Library.Run

namespace Library

/-! ## Logs that grow -/

variable {α : Type*}

def Accrues (fits : List α → α → Prop) (log : List α) : Prop :=
  ∀ before item after, log = before ++ item :: after → fits before item

variable {fits : List α → α → Prop} {log : List α} {item : α}

theorem accrues_nil : Accrues fits [] := by
  intro before item after h
  cases before <;> cases h

theorem Accrues.concat (h : Accrues fits log) (hitem : fits log item) :
    Accrues fits (log ++ [item]) := by
  intro before other after hsplit
  cases after using List.reverseRecOn with
  | nil =>
      obtain ⟨rfl, hlast⟩ := List.append_inj' hsplit rfl
      cases hlast
      exact hitem
  | append_singleton after last =>
      rw [← List.cons_append, ← List.append_assoc] at hsplit
      exact h before other after (List.append_inj' hsplit rfl).1

end Library
