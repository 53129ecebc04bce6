import Mathlib.Data.List.Pairwise
import Mathlib.Data.List.Perm.Basic
import Mathlib.Order.Lattice

/-!
# Insertion from the back

A list is kept in the order of a key by inserting each new entry after the last one with a smaller
key. Entries with one key then come out in the reverse of the order they arrived in. Two orders of
one list agree entry by entry, which says when the list is also sorted by something else.
-/

namespace Library

variable {α κ : Type*} [LinearOrder κ] (key : α → κ)

/-- The insertion, on the list from its back: `new` goes before the first entry with a smaller
key. -/
def placeBack (new : α) : List α → List α
  | [] => [new]
  | last :: rest => if key last < key new then new :: last :: rest else last :: placeBack new rest

/-- An entry inserted after the last one whose key is smaller. -/
def insertBack (list : List α) (new : α) : List α :=
  (placeBack key new list.reverse).reverse

theorem placeBack_perm (new : α) (list : List α) : (placeBack key new list).Perm (new :: list) := by
  induction list with
  | nil => rfl
  | cons last rest ih =>
      unfold placeBack
      split
      case isTrue => rfl
      case isFalse => exact (ih.cons last).trans (List.Perm.swap new last rest)

theorem insertBack_perm (list : List α) (new : α) : (insertBack key list new).Perm (new :: list) :=
  (List.reverse_perm _).trans ((placeBack_perm key new _).trans ((List.reverse_perm list).cons new))

theorem insertBack_map {β : Type*} (f : β → α) (list : List β) (new : β) :
    (insertBack (fun entry => key (f entry)) list new).map f =
      insertBack key (list.map f) (f new) := by
  have hplace : ∀ rest : List β,
      (placeBack (fun entry => key (f entry)) new rest).map f =
        placeBack key (f new) (rest.map f) := by
    intro rest
    induction rest with
    | nil => rfl
    | cons last rest ih =>
        rw [List.map_cons, placeBack, placeBack]
        split
        case isTrue => rfl
        case isFalse => rw [List.map_cons, ih]
  rw [insertBack, insertBack, List.map_reverse, hplace, List.map_reverse]

theorem foldl_insertBack_perm (entries list : List α) :
    (entries.foldl (insertBack key) list).Perm (list ++ entries) := by
  induction entries generalizing list with
  | nil => rw [List.append_nil]; rfl
  | cons new rest ih =>
      refine (ih _).trans ?_
      exact ((insertBack_perm key list new).append_right rest).trans List.perm_middle.symm

variable {key} {arrival : α → Nat}

/-- Sorted by the key; what arrived later comes first among equal keys. -/
def BackOrder (key : α → κ) (arrival : α → Nat) (first second : α) : Prop :=
  key first < key second ∨ (key first = key second ∧ arrival second < arrival first)

theorem placeBack_order {new : α} {list : List α}
    (h : list.Pairwise fun second first => BackOrder key arrival first second)
    (hlast : ∀ entry ∈ list, arrival entry < arrival new) :
    (placeBack key new list).Pairwise fun second first => BackOrder key arrival first second := by
  induction list with
  | nil => exact List.pairwise_singleton _ _
  | cons last rest ih =>
      obtain ⟨hall, hrest⟩ := List.pairwise_cons.mp h
      unfold placeBack
      split
      case isTrue hlt =>
        refine List.pairwise_cons.mpr ⟨fun entry hmem => .inl ?_, h⟩
        rcases List.mem_cons.mp hmem with rfl | hmem
        · exact hlt
        · rcases hall entry hmem with hless | ⟨heq, -⟩
          · exact lt_trans hless hlt
          · exact lt_of_eq_of_lt heq hlt
      case isFalse hge =>
        refine List.pairwise_cons.mpr ⟨fun entry hmem => ?_, ih hrest fun entry hmem =>
          hlast entry (List.mem_cons_of_mem _ hmem)⟩
        rcases List.mem_cons.mp ((placeBack_perm key new rest).mem_iff.mp hmem) with rfl | hmem
        · rcases lt_or_eq_of_le (not_lt.mp hge) with hless | heq
          · exact .inl hless
          · exact .inr ⟨heq, hlast last List.mem_cons_self⟩
        · exact hall entry hmem

theorem insertBack_order {list : List α} {new : α} (h : list.Pairwise (BackOrder key arrival))
    (hlast : ∀ entry ∈ list, arrival entry < arrival new) :
    (insertBack key list new).Pairwise (BackOrder key arrival) := by
  refine List.pairwise_reverse.mpr (placeBack_order (List.pairwise_reverse.mpr ?_) fun entry hmem =>
    hlast entry (List.mem_reverse.mp hmem))
  exact h

theorem foldl_insertBack_order {entries list : List α} (h : list.Pairwise (BackOrder key arrival))
    (harrival : entries.Pairwise fun first second => arrival first < arrival second)
    (hlast : ∀ entry ∈ list, ∀ new ∈ entries, arrival entry < arrival new) :
    (entries.foldl (insertBack key) list).Pairwise (BackOrder key arrival) := by
  induction entries generalizing list with
  | nil => exact h
  | cons new rest ih =>
      obtain ⟨hnew, hrest⟩ := List.pairwise_cons.mp harrival
      refine ih (insertBack_order h fun entry hmem => hlast entry hmem new List.mem_cons_self) hrest
        fun entry hmem other hother => ?_
      rcases List.mem_cons.mp ((insertBack_perm key list new).mem_iff.mp hmem) with rfl | hmem
      · exact hnew other hother
      · exact hlast entry hmem other (List.mem_cons_of_mem _ hother)

/-- Any two entries of a list stand in its order one way or the other. -/
theorem pairwise_cases {order : α → α → Prop} {list : List α} (h : list.Pairwise order)
    {first second : α} (hfirst : first ∈ list) (hsecond : second ∈ list) (hne : first ≠ second) :
    order first second ∨ order second first := by
  have hboth : list.Pairwise fun a b => order a b ∨ order b a := h.imp Or.inl
  have : Std.Symm fun a b => order a b ∨ order b a := ⟨fun _ _ hor => Or.symm hor⟩
  exact hboth.forall hfirst hsecond hne

end Library
