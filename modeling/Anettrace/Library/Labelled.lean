import Mathlib.Data.List.Induction

/-!
# Labelled moves

The reflexive and transitive closure of a relation whose moves carry lists of labels. A machine is
related to such a relation by a simulation: every step of the machine is a sequence of moves. What
one move preserves, together with the labels seen so far, then holds along every run.
-/

namespace Library.Labelled

variable {σ ε : Type*}

/-- Moves one after the other, with the labels of all of them. -/
inductive Moves (move : σ → List ε → σ → Prop) : σ → List ε → σ → Prop where
  | refl (state : σ) : Moves move state [] state
  | tail {start middle finish : σ} {labels last : List ε} (hinit : Moves move start labels middle)
      (hlast : move middle last finish) : Moves move start (labels ++ last) finish

variable {move : σ → List ε → σ → Prop} {start middle finish : σ} {first second : List ε}

theorem Moves.single (h : move start first finish) : Moves move start first finish := by
  have htail := Moves.tail (Moves.refl start) h
  rwa [List.nil_append] at htail

theorem Moves.trans (hfirst : Moves move start first middle)
    (hsecond : Moves move middle second finish) :
    Moves move start (first ++ second) finish := by
  induction hsecond with
  | refl => rwa [List.append_nil]
  | tail _ hlast ih =>
      rw [← List.append_assoc]
      exact Moves.tail ih hlast

theorem Moves.then_silent (hfirst : Moves move start first middle)
    (hsecond : Moves move middle [] finish) : Moves move start first finish := by
  have h := hfirst.trans hsecond
  rwa [List.append_nil] at h

theorem Moves.silent_then (hfirst : Moves move start [] middle)
    (hsecond : Moves move middle second finish) : Moves move start second finish := by
  have h := hfirst.trans hsecond
  rwa [List.nil_append] at h

theorem Moves.preserve (Inv : σ → Prop)
    (hmove : ∀ {before labels after}, Inv before → move before labels after → Inv after)
    (hstart : Inv start) (h : Moves move start first finish) : Inv finish := by
  induction h with
  | refl => exact hstart
  | tail _ hlast ih => exact hmove ih hlast

/-- What one move preserves together with the labels seen so far, moves preserve. -/
theorem Moves.history (Inv : List ε → σ → Prop)
    (hmove : ∀ {seen before labels after}, Inv seen before → move before labels after →
      Inv (seen ++ labels) after)
    {seen : List ε} (hstart : Inv seen start) (h : Moves move start first finish) :
    Inv (seen ++ first) finish := by
  induction h with
  | refl => rwa [List.append_nil]
  | tail _ hlast ih =>
      rw [← List.append_assoc]
      exact hmove ih hlast

end Library.Labelled
