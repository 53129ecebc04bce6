import Mathlib.Data.List.Induction
import Mathlib.Logic.Basic

/-!
# Commands that can fail

A command reads and changes a state and gives a value, or fails and leaves nothing. A triple says
what holds of the value and the state when it does not fail; its rules follow the ways of putting
commands together.
-/

namespace Library.Command

universe u

variable {σ ε α β : Type u}

def Ensures (pre : σ → Prop) (command : StateT σ (Except ε) α) (post : α → σ → Prop) : Prop :=
  ∀ state value next, pre state → command state = .ok (value, next) → post value next

def runIf (condition : Prop) [Decidable condition] (command : StateT σ (Except ε) PUnit) :
    StateT σ (Except ε) PUnit :=
  if condition then command else Pure.pure ⟨⟩

namespace Ensures

variable {pre pre' : σ → Prop} {command : StateT σ (Except ε) α} {between post : α → σ → Prop}

theorem mono {post' : α → σ → Prop} (h : Ensures pre command post)
    (hpre : ∀ state, pre' state → pre state)
    (hpost : ∀ value state, post value state → post' value state) : Ensures pre' command post' :=
  fun state value next hstate hrun => hpost value next (h state value next (hpre state hstate) hrun)

theorem pure {value : α} (h : ∀ state, pre state → post value state) :
    Ensures pre (Pure.pure value : StateT σ (Except ε) α) post := by
  intro state other next hstate hrun
  cases hrun
  exact h state hstate

/-- What the first command ends in is where the second one starts. -/
theorem bind {next : α → StateT σ (Except ε) β} {final : β → σ → Prop}
    (hfirst : Ensures pre command between)
    (hnext : ∀ value, Ensures (between value) (next value) final) :
    Ensures pre (command >>= next) final := by
  intro state result last hstate hrun
  change (command state >>= fun reached => next reached.1 reached.2) = .ok (result, last) at hrun
  cases hcommand : command state with
  | error failure =>
      rw [hcommand] at hrun
      cases hrun
  | ok reached =>
      rw [hcommand] at hrun
      exact hnext reached.1 reached.2 result last
        (hfirst state reached.1 reached.2 hstate hcommand) hrun

theorem via (between : α → σ → Prop) {next : α → StateT σ (Except ε) β} {final : β → σ → Prop}
    (hfirst : Ensures pre command between)
    (hnext : ∀ value, Ensures (between value) (next value) final) :
    Ensures pre (command >>= next) final :=
  hfirst.bind hnext

theorem pureBind {value : α} {next : α → StateT σ (Except ε) β} {final : β → σ → Prop}
    (h : Ensures pre (next value) final) : Ensures pre (Pure.pure value >>= next) final :=
  fun state result last hstate hrun => h state result last hstate hrun

/-- A command that depends on what is read of the state. -/
theorem get {next : σ → StateT σ (Except ε) β} {final : β → σ → Prop}
    (h : ∀ state, pre state → Ensures (· = state) (next state) final) :
    Ensures pre (MonadState.get >>= next) final := by
  intro state result last hstate hrun
  exact h state hstate state result last rfl hrun

theorem modify {change : σ → σ} {post : PUnit → σ → Prop}
    (h : ∀ state, pre state → post ⟨⟩ (change state)) :
    Ensures pre (modify change : StateT σ (Except ε) PUnit) post := by
  intro state result last hstate hrun
  cases hrun
  exact h state hstate

theorem throw {failure : ε} : Ensures pre (throw failure : StateT σ (Except ε) α) post := by
  intro state result last _ hrun
  cases hrun

theorem runIf {condition : Prop} [Decidable condition] {command : StateT σ (Except ε) PUnit}
    {post : PUnit → σ → Prop} (htrue : condition → Ensures pre command post)
    (hfalse : ¬ condition → ∀ state, pre state → post ⟨⟩ state) :
    Ensures pre (runIf condition command) post := by
  unfold Command.runIf
  split
  · exact htrue ‹_›
  · exact pure (hfalse ‹_›)

theorem bindFact {next : α → StateT σ (Except ε) β} {final : β → σ → Prop} {fact : α → Prop}
    (hfirst : Ensures pre command fun value state => fact value ∧ between value state)
    (hnext : ∀ value, fact value → Ensures (between value) (next value) final) :
    Ensures pre (command >>= next) final :=
  hfirst.bind fun value state result last hboth hrun =>
    hnext value hboth.1 state result last hboth.2 hrun

theorem lift {computed : Except ε α} : Ensures pre (liftM computed : StateT σ (Except ε) α)
    fun value state => computed = .ok value ∧ pre state := by
  intro state value last hstate hrun
  cases computed with
  | error failure => cases hrun
  | ok other =>
      cases hrun
      exact ⟨rfl, hstate⟩

/-- A loop over a list, with what holds before each of its members. -/
theorem forM (Inv : List β → σ → Prop) {items : List β} {body : β → StateT σ (Except ε) PUnit}
    (h : ∀ item rest, Ensures (Inv (item :: rest)) (body item) fun _ => Inv rest) :
    Ensures (Inv items) (items.forM body) fun _ => Inv [] := by
  induction items with
  | nil => exact pure fun _ hstate => hstate
  | cons item rest ih =>
      show Ensures _ (body item >>= fun _ => rest.forM body) _
      exact (h item rest).bind fun _ => ih

end Ensures

end Library.Command
