import Mathlib.Logic.Function.Basic

/-!
# Keyed maps

A partial map from keys to values, with a lookup for each key. `put` and `remove` change one key,
and these facts say what they do to every other one.
-/

namespace Library

/-- A partial map. -/
structure Keyed (κ ν : Type*) where
  lookup : κ → Option ν

variable {κ ν : Type*}

instance : CoeFun (Keyed κ ν) fun _ => κ → Option ν :=
  ⟨Keyed.lookup⟩

/-- The map without keys. -/
def Keyed.empty : Keyed κ ν :=
  ⟨fun _ => none⟩

instance : Inhabited (Keyed κ ν) :=
  ⟨Keyed.empty⟩

@[simp] theorem Keyed.empty_apply (key : κ) : (Keyed.empty : Keyed κ ν) key = none := rfl

/-- Two maps with the same lookups are one. -/
theorem Keyed.ext {first second : Keyed κ ν} (h : ∀ key, first key = second key) :
    first = second := by
  cases first
  cases second
  exact congrArg Keyed.mk (funext h)

variable [DecidableEq κ]

def Keyed.put (map : Keyed κ ν) (key : κ) (value : ν) : Keyed κ ν :=
  ⟨fun other => if other = key then some value else map other⟩

def Keyed.remove (map : Keyed κ ν) (key : κ) : Keyed κ ν :=
  ⟨fun other => if other = key then none else map other⟩

variable (map : Keyed κ ν) {key other : κ} {value found : ν}

@[simp] theorem Keyed.put_same (key : κ) (value : ν) : map.put key value key = some value :=
  if_pos rfl

theorem Keyed.put_other (h : other ≠ key) (value : ν) : map.put key value other = map other :=
  if_neg h

@[simp] theorem Keyed.remove_same (key : κ) : map.remove key key = none :=
  if_pos rfl

theorem Keyed.remove_other (h : other ≠ key) : map.remove key other = map other :=
  if_neg h

theorem Keyed.put_remove (key : κ) (value : ν) :
    (map.remove key).put key value = map.put key value := by
  refine Keyed.ext fun other => ?_
  by_cases h : other = key
  case pos => rw [h, Keyed.put_same, Keyed.put_same]
  case neg => rw [Keyed.put_other _ h, Keyed.put_other _ h, Keyed.remove_other _ h]

variable {map}

/-- Putting what is there changes nothing. -/
theorem Keyed.put_self (h : map key = some value) : map.put key value = map := by
  refine Keyed.ext fun other => ?_
  by_cases hother : other = key
  case pos => rw [hother, Keyed.put_same, h]
  case neg => rw [Keyed.put_other _ hother]

/-- An entry of a map after a change is the one that was put or was there before. -/
theorem Keyed.put_cases (h : map.put key value other = some found) :
    (other = key ∧ found = value) ∨ (other ≠ key ∧ map other = some found) := by
  by_cases hkey : other = key
  case neg => exact .inr ⟨hkey, (map.put_other hkey value).symm.trans h⟩
  case pos =>
    subst hkey
    exact .inl ⟨rfl, Option.some.inj (h.symm.trans (map.put_same other value))⟩

/-- What holds of the entry that is put and of every older one of another key holds of all
entries. -/
theorem Keyed.put_forall {P : κ → ν → Prop} (hnew : P key value)
    (hold : ∀ other found, other ≠ key → map other = some found → P other found) :
    ∀ other found, map.put key value other = some found → P other found := by
  intro other found hfound
  obtain ⟨rfl, rfl⟩ | ⟨hother, hfound⟩ := Keyed.put_cases hfound
  · exact hnew
  · exact hold other found hother hfound

theorem Keyed.remove_cases (h : map.remove key other = some found) :
    other ≠ key ∧ map other = some found := by
  by_cases hkey : other = key
  case neg => exact ⟨hkey, (map.remove_other hkey).symm.trans h⟩
  case pos =>
    subst hkey
    rw [map.remove_same] at h
    cases h

theorem Keyed.foldl_remove_apply (keys : List κ) (map : Keyed κ ν) (other : κ) :
    (keys.foldl Keyed.remove map) other = if other ∈ keys then none else map other := by
  induction keys generalizing map with
  | nil => simp
  | cons key rest ih =>
      rw [List.foldl_cons, ih]
      by_cases hrest : other ∈ rest
      case pos => rw [if_pos hrest, if_pos (List.mem_cons_of_mem key hrest)]
      case neg =>
        rw [if_neg hrest]
        by_cases hkey : other = key
        case pos => rw [hkey, Keyed.remove_same, if_pos List.mem_cons_self]
        case neg => rw [Keyed.remove_other _ hkey, if_neg (by simp [hkey, hrest])]

end Library
