import Mathlib.Init

/-!
# Steps that can fail half way

A step changes a state and may end with an error; what it has changed by then stays changed. Steps
are put one after the other, the first error ends them, and a cleanup looks at whether there was
one. A triple has two postconditions, one for each way out.
-/

namespace Library.Staged

variable {σ ε : Type*}

/-- The next state, and the error that the step ends with. -/
abbrev Step (σ ε : Type*) := σ → σ × Option ε

def andThen (first second : Step σ ε) : Step σ ε := fun state =>
  match first state with
  | (state, none) => second state
  | (state, some err) => (state, some err)

def onError (step : Step σ ε) (cleanup : σ → σ) : Step σ ε := fun state =>
  match step state with
  | (state, none) => (state, none)
  | (state, some err) => (cleanup state, some err)

/-- A step, and a cleanup that is told whether it failed. -/
def always (step : Step σ ε) (cleanup : Bool → σ → σ) : Step σ ε := fun state =>
  let (state, err) := step state
  (cleanup err.isSome state, err)

/-- From every state with `pre`, the step ends without an error in a state with `post`, or with one
in a state with `fail`. -/
structure Meets (step : Step σ ε) (pre post fail : σ → Prop) : Prop where
  done : ∀ {state next}, pre state → step state = (next, none) → post next
  failed : ∀ {state next err}, pre state → step state = (next, some err) → fail next

variable {step first second : Step σ ε} {pre between post fail : σ → Prop}

theorem Meets.andThen (hfirst : Meets first pre between fail)
    (hsecond : Meets second between post fail) :
    Meets (Staged.andThen first second) pre post fail := by
  constructor
  · intro state next hpre h
    unfold Staged.andThen at h
    split at h
    · rename_i middle hmiddle
      exact hsecond.done (hfirst.done hpre hmiddle) h
    · cases h
  · intro state next err hpre h
    unfold Staged.andThen at h
    split at h
    · rename_i middle hmiddle
      exact hsecond.failed (hfirst.done hpre hmiddle) h
    · rename_i hmiddle
      cases h
      exact hfirst.failed hpre hmiddle

theorem Meets.onError {cleanup : σ → σ} {after : σ → Prop} (h : Meets step pre post fail)
    (hcleanup : ∀ {state}, fail state → after (cleanup state)) :
    Meets (Staged.onError step cleanup) pre post after := by
  constructor
  · intro state next hpre hstep
    unfold Staged.onError at hstep
    split at hstep
    · rename_i hdone
      cases hstep
      exact h.done hpre hdone
    · cases hstep
  · intro state next err hpre hstep
    unfold Staged.onError at hstep
    split at hstep
    · cases hstep
    · rename_i hfailed
      cases hstep
      exact hcleanup (h.failed hpre hfailed)

theorem Meets.mono {pre' post' fail' : σ → Prop} (h : Meets step pre post fail)
    (hpre : ∀ {state}, pre' state → pre state) (hpost : ∀ {state}, post state → post' state)
    (hfail : ∀ {state}, fail state → fail' state) : Meets step pre' post' fail' :=
  ⟨fun hstate hstep => hpost (h.done (hpre hstate) hstep),
    fun hstate hstep => hfail (h.failed (hpre hstate) hstep)⟩

/-- A step that only looks keeps what holds, and adds what it has seen. -/
theorem Meets.check {look : σ → Option ε} {seen : σ → Prop}
    (h : ∀ {state}, pre state → look state = none → seen state) :
    Meets (fun state => (state, look state)) pre (fun state => pre state ∧ seen state) pre := by
  constructor
  · intro state next hpre hstep
    obtain ⟨rfl, hlook⟩ := Prod.mk.inj hstep
    exact ⟨hpre, h hpre hlook⟩
  · intro state next err hpre hstep
    obtain ⟨rfl, -⟩ := Prod.mk.inj hstep
    exact hpre

/-- A step leaves a part of the state as it is, whether it fails or not. -/
def Keeps {β : Type*} (part : σ → β) (step : Step σ ε) : Prop :=
  ∀ state, part (step state).1 = part state

theorem Keeps.andThen {β : Type*} {part : σ → β} (hfirst : Keeps part first)
    (hsecond : Keeps part second) :
    Keeps part (Staged.andThen first second) := by
  intro state
  unfold Staged.andThen
  split
  · rename_i middle hmiddle
    have hkept := hfirst state
    rw [hmiddle] at hkept
    exact (hsecond middle).trans hkept
  · rename_i middle err hmiddle
    have hkept := hfirst state
    rw [hmiddle] at hkept
    exact hkept

theorem Meets.keeps {β : Type*} {part : σ → β} (h : Meets step pre post fail)
    (hkeeps : Keeps part step) (value : β) :
    Meets step (fun state => pre state ∧ part state = value)
      (fun state => post state ∧ part state = value)
      (fun state => fail state ∧ part state = value) := by
  constructor
  · intro state next hpre hstep
    have hkept := hkeeps state
    rw [hstep] at hkept
    exact ⟨h.done hpre.1 hstep, hkept.trans hpre.2⟩
  · intro state next err hpre hstep
    have hkept := hkeeps state
    rw [hstep] at hkept
    exact ⟨h.failed hpre.1 hstep, hkept.trans hpre.2⟩

end Library.Staged
