import Mathlib.Logic.Function.Basic

/-!
# Maps that have gained entries

A partial map that somebody works on, beside the map that he has found. What he adds goes under
names that were free, and is of a kind that he may take away again.
-/

namespace Library.Overlay

variable {α β : Type*} {base now : α → Option β} {own own' : α → Prop} {fresh : β → Prop} {name : α}

def Gains (base : α → Option β) (own : α → Prop) (fresh : β → Prop) (now : α → Option β) : Prop :=
  ∀ name, now name = base name ∨
    (base name = none ∧ own name ∧ ∃ value, fresh value ∧ now name = some value)

theorem Gains.refl : Gains base own fresh base := fun _ => Or.inl rfl

theorem Gains.mono (h : Gains base own fresh now) (hown : ∀ name, own name → own' name) :
    Gains base own' fresh now := fun name =>
  (h name).imp_right fun ⟨hfree, hname, hvalue⟩ => ⟨hfree, hown name hname, hvalue⟩

/-- What was there before is still there. -/
theorem Gains.kept (h : Gains base own fresh now) {value : β} (hname : base name = some value) :
    now name = some value := by
  rcases h name with hsame | ⟨hfree, -, -⟩
  · rw [hsame, hname]
  · rw [hname] at hfree
    cases hfree

theorem Gains.other (h : Gains base own fresh now) (hname : ¬ own name) : now name = base name :=
  (h name).resolve_right fun ⟨_, hown, _⟩ => hname hown

variable [DecidableEq α]

theorem Gains.put (h : Gains base own fresh now) {value : β} (hfree : base name = none)
    (hown : own name)
    (hfresh : fresh value) : Gains base own fresh (Function.update now name (some value)) := by
  intro other
  by_cases hother : other = name
  · subst hother
    exact Or.inr ⟨hfree, hown, value, hfresh, Function.update_self ..⟩
  · rw [Function.update_of_ne hother]
    exact h other

theorem Gains.drop (h : Gains base own fresh now) (hfree : base name = none) :
    Gains base own fresh (Function.update now name none) := by
  intro other
  by_cases hother : other = name
  · subst hother
    rw [Function.update_self, hfree]
    exact Or.inl rfl
  · rw [Function.update_of_ne hother]
    exact h other

/-- An entry that is moved to another name and was under none before. -/
theorem update_moved {old new : α} {value : Option β} (hne : old ≠ new) (h : base old = none) :
    Function.update (Function.update (Function.update base old value) new value) old none =
      Function.update base new value := by
  have hold : Function.update base new value old = none := by rw [Function.update_of_ne hne, h]
  rw [Function.update_comm hne, Function.update_idem, ← hold, Function.update_eq_self]

end Library.Overlay
