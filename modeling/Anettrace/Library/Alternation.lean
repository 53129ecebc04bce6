import Mathlib.Data.List.Chain

/-!
# Switches

A switch is turned on and off in turn, on first, and its level is that of its last turn. A log of
many switches follows a predicate that says which of them are on when each one alternates and its
level is what the predicate says.
-/

namespace Library.Alternation

/-- The level of a switch after some turns: off before the first one. -/
def level (turns : List Bool) : Bool :=
  turns.getLast?.getD false

/-- A switch is turned on and off in turn, on first. -/
def Alternates (turns : List Bool) : Prop :=
  (false :: turns).IsChain (· ≠ ·)

instance (turns : List Bool) : Decidable (Alternates turns) :=
  inferInstanceAs (Decidable ((false :: turns).IsChain (· ≠ ·)))

@[simp] theorem level_nil : level [] = false := rfl

@[simp] theorem level_concat (turns : List Bool) (turn : Bool) :
    level (turns ++ [turn]) = turn := by
  unfold level
  rw [List.getLast?_concat]
  rfl

theorem alternates_nil : Alternates [] :=
  List.IsChain.singleton false

theorem alternates_concat (turns : List Bool) (turn : Bool) :
    Alternates (turns ++ [turn]) ↔ Alternates turns ∧ level turns ≠ turn := by
  unfold Alternates
  rw [← List.cons_append, List.isChain_append]
  have hlast : (false :: turns).getLast? = some (level turns) := by
    cases turns using List.reverseRecOn with
    | nil => rfl
    | append_singleton turns last =>
        rw [← List.cons_append, List.getLast?_concat, level_concat]
  rw [hlast]
  simp

theorem mem_of_level {turns : List Bool} (h : level turns = true) : true ∈ turns := by
  unfold level at h
  cases hlast : turns.getLast? with
  | none =>
      rw [hlast] at h
      cases h
  | some last =>
      rw [hlast] at h
      cases h
      exact List.mem_of_getLast? hlast

variable {κ : Type*} [DecidableEq κ]

def turnsOf (log : List (κ × Bool)) (key : κ) : List Bool :=
  (log.filter fun turn => turn.1 = key).map Prod.snd

@[simp] theorem turnsOf_append (first second : List (κ × Bool)) (key : κ) :
    turnsOf (first ++ second) key = turnsOf first key ++ turnsOf second key := by
  unfold turnsOf
  rw [List.filter_append, List.map_append]

theorem turnsOf_same (key : κ) (turn : Bool) : turnsOf [(key, turn)] key = [turn] := by
  simp [turnsOf]

theorem turnsOf_other {key other : κ} (h : other ≠ key) (turn : Bool) :
    turnsOf [(other, turn)] key = [] := by
  simp [turnsOf, h]

theorem mem_of_turnsOf {log : List (κ × Bool)} {key : κ} {turn : Bool}
    (h : turn ∈ turnsOf log key) : (key, turn) ∈ log := by
  obtain ⟨⟨other, found⟩, hmem, rfl⟩ := List.mem_map.mp h
  obtain ⟨hlog, hkey⟩ := List.mem_filter.mp hmem
  obtain rfl : other = key := of_decide_eq_true hkey
  exact hlog

/-- A switch of a log alternates, and whether it is on is as given. -/
def FollowsAt (log : List (κ × Bool)) (key : κ) (on : Prop) : Prop :=
  Alternates (turnsOf log key) ∧ (level (turnsOf log key) = true ↔ on)

/-- Every switch of a log alternates, and those that are on are the given ones. -/
def Follows (log : List (κ × Bool)) (on : κ → Prop) : Prop :=
  ∀ key, FollowsAt log key (on key)

theorem FollowsAt.nil (key : κ) : FollowsAt ([] : List (κ × Bool)) key False :=
  ⟨alternates_nil, by simp [turnsOf]⟩

section FollowsAt

variable {log : List (κ × Bool)} {key : κ} {on after : Prop}

section

variable (h : FollowsAt log key on)
include h

theorem FollowsAt.congr (hon : after ↔ on) : FollowsAt log key after :=
  ⟨h.1, h.2.trans hon.symm⟩

/-- The switch is turned to the level it does not have. -/
theorem FollowsAt.turn_same {turn : Bool} (hlevel : on ↔ turn = false)
    (hafter : after ↔ turn = true) : FollowsAt (log ++ [(key, turn)]) key after := by
  unfold FollowsAt
  rw [turnsOf_append, turnsOf_same, level_concat, alternates_concat]
  refine ⟨⟨h.1, fun heq => ?_⟩, hafter.symm⟩
  -- a switch that has the level already is on and off
  have hon := h.2
  rw [heq, hlevel] at hon
  cases turn <;> simp at hon

/-- Another switch is turned. -/
theorem FollowsAt.turn_other {other : κ} (hne : other ≠ key) (turn : Bool) :
    FollowsAt (log ++ [(other, turn)]) key on := by
  unfold FollowsAt
  rw [turnsOf_append, turnsOf_other hne, List.append_nil]
  exact h

theorem FollowsAt.off (hoff : ¬on) :
    Alternates (turnsOf log key) ∧ level (turnsOf log key) = false :=
  ⟨h.1, Bool.eq_false_iff.mpr fun hlevel => hoff (h.2.mp hlevel)⟩

end

end FollowsAt

theorem Follows.nil : Follows ([] : List (κ × Bool)) fun _ => False :=
  FollowsAt.nil

section Follows

variable {log : List (κ × Bool)} {on after : κ → Prop}

theorem Follows.congr (h : Follows log on) (hon : ∀ key, after key ↔ on key) : Follows log after :=
  fun key => (h key).congr (hon key)

/-- A switch is turned to the level it does not have. -/
theorem Follows.turn (h : Follows log on) {key : κ} {turn : Bool} (hlevel : on key ↔ turn = false)
    (hafter : ∀ other, after other ↔ if other = key then turn = true else on other) :
    Follows (log ++ [(key, turn)]) after := by
  intro other
  have hother := hafter other
  by_cases hkey : other = key
  case neg =>
    rw [if_neg hkey] at hother
    exact ((h other).turn_other (Ne.symm hkey) turn).congr hother
  case pos =>
    subst hkey
    rw [if_pos rfl] at hother
    exact (h other).turn_same hlevel hother

theorem Follows.turnOn (h : Follows log on) {key : κ} (hoff : ¬on key) :
    Follows (log ++ [(key, true)]) fun other => other = key ∨ on other := by
  refine h.turn (iff_of_false hoff (by simp)) fun other => ?_
  by_cases hkey : other = key <;> simp [hkey]

theorem Follows.turnOff (h : Follows log on) {key : κ} (hon : on key) :
    Follows (log ++ [(key, false)]) fun other => other ≠ key ∧ on other := by
  refine h.turn (iff_of_true hon rfl) fun other => ?_
  by_cases hkey : other = key <;> simp [hkey]

theorem Follows.turnAllOff (h : Follows log on) {keys : List κ} (hnodup : keys.Nodup)
    (hon : ∀ key ∈ keys, on key) :
    Follows (log ++ keys.map fun key => (key, false)) fun other => other ∉ keys ∧ on other := by
  induction keys generalizing log on with
  | nil =>
      rw [List.map_nil, List.append_nil]
      exact h.congr fun other => by simp
  | cons key rest ih =>
      obtain ⟨hfresh, hrest⟩ := List.nodup_cons.mp hnodup
      have hfirst := h.turnOff (hon key List.mem_cons_self)
      have hlater := ih hfirst hrest fun other hother =>
        ⟨fun heq => hfresh (heq ▸ hother), hon other (List.mem_cons_of_mem _ hother)⟩
      rw [List.map_cons, List.append_cons]
      refine hlater.congr fun other => ?_
      rw [List.mem_cons, not_or, and_assoc, and_left_comm]

end Follows

end Library.Alternation
