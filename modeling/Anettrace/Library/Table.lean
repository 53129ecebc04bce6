import Mathlib.Algebra.BigOperators.Group.List.Basic
import Mathlib.Data.List.Infix
import Mathlib.Data.List.Nodup
import Mathlib.Data.List.Perm.Basic
import Mathlib.Data.List.TakeWhile

/-!
# Tables

A table is a list whose entries are designated by their places. `List.set` changes the entry at a
place, and these facts say what that does to a view of the whole table.
-/

namespace Library.Table

variable {α β : Type*} {table : List α} {place : Nat} {old new : α}

/-- Changing an entry leaves a view as it is when the view does not see the change. -/
theorem map_set (view : α → β) (hold : table[place]? = some old) (hview : view new = view old) :
    (table.set place new).map view = table.map view := by
  have hplace : (table.map view)[place]? = some (view new) := by
    rw [List.getElem?_map, hold, hview]
    rfl
  apply List.ext_getElem?
  intro i
  rw [List.map_set, List.getElem?_set]
  split
  case isTrue heq =>
    subst heq
    rw [hplace, if_pos (List.getElem?_eq_some_iff.mp hplace).1]
  case isFalse => rfl

theorem modify_some {change : α → α} (h : table[place]? = some old) :
    table.modify place change = table.set place (change old) := by
  rw [List.modify_eq_set_getElem?, h]
  rfl

theorem modify_none {change : α → α} (h : table[place]? = none) :
    table.modify place change = table :=
  List.modify_eq_self (List.getElem?_eq_none_iff.mp h)

/-- Setting an entry to what it is changes nothing. -/
theorem set_same (h : table[place]? = some old) : table.set place old = table := by
  obtain ⟨hlt, hget⟩ := List.getElem?_eq_some_iff.mp h
  rw [← hget]
  exact List.set_getElem_self hlt

theorem getElem?_set_same (h : table[place]? = some old) :
    (table.set place new)[place]? = some new :=
  List.getElem?_set_self (List.getElem?_eq_some_iff.mp h).1

theorem mem_set {entry : α} (h : entry ∈ table.set place new) : entry ∈ table ∨ entry = new :=
  List.mem_or_eq_of_mem_set h

/-- A lookup in a changed table. -/
theorem getElem?_set_cases {i : Nat} {entry : α} (h : (table.set place new)[i]? = some entry) :
    (i = place ∧ entry = new) ∨ (i ≠ place ∧ table[i]? = some entry) := by
  rw [List.getElem?_set] at h
  split at h
  case isTrue heq =>
    split at h
    case isTrue => exact Or.inl ⟨heq.symm, by simpa using h.symm⟩
    case isFalse => cases h
  case isFalse hne => exact Or.inr ⟨fun heq => hne heq.symm, h⟩

/-- A lookup in an extended table. -/
theorem getElem?_append_cases {i : Nat} {entry : α} (h : (table ++ [new])[i]? = some entry) :
    (i = table.length ∧ entry = new) ∨ (i < table.length ∧ table[i]? = some entry) := by
  rw [List.getElem?_append] at h
  split at h
  case isTrue hlt => exact Or.inr ⟨hlt, h⟩
  case isFalse hge =>
    have hi := (List.getElem?_eq_some_iff.mp h).1
    rw [List.length_singleton] at hi
    have hzero : i - table.length = 0 := by omega
    rw [hzero] at h
    exact Or.inl ⟨by omega, by simpa using h.symm⟩

/-- What a view shows only once stands at one place. -/
theorem count_places [DecidableEq β] {view : α → β} {shown : β}
    (hcount : (table.map view).count shown ≤ 1) {i j : Nat} {first second : α}
    (hi : table[i]? = some first) (hj : table[j]? = some second) (hfirst : view first = shown)
    (hsecond : view second = shown) : i = j := by
  induction table generalizing i j with
  | nil => cases hi
  | cons head rest ih =>
      have hrest {k : Nat} {entry : α} (hk : rest[k]? = some entry) (hentry : view entry = shown) :
          0 < (rest.map view).count shown :=
        List.count_pos_iff.mpr (List.mem_map.mpr ⟨entry, List.mem_of_getElem? hk, hentry⟩)
      rw [List.map_cons, List.count_cons] at hcount
      cases i with
      | zero =>
          cases j with
          | zero => rfl
          | succ j =>
              have hhead : head = first := Option.some.inj hi
              have hpos := hrest hj hsecond
              rw [hhead, hfirst, if_pos (beq_self_eq_true shown)] at hcount
              omega
      | succ i =>
          cases j with
          | zero =>
              have hhead : head = second := Option.some.inj hj
              have hpos := hrest hi hfirst
              rw [hhead, hsecond, if_pos (beq_self_eq_true shown)] at hcount
              omega
          | succ j => exact congrArg (· + 1) (ih (by omega) hi hj)

/-- A view without repetitions tells places apart. -/
theorem nodup_places {view : α → β} (hnodup : (table.map view).Nodup) {i j : Nat}
    {first second : α} (hi : table[i]? = some first) (hj : table[j]? = some second)
    (hview : view first = view second) : i = j := by
  have hlt : i < (table.map view).length := by
    rw [List.length_map]
    exact (List.getElem?_eq_some_iff.mp hi).1
  refine (List.getElem?_inj hlt hnodup).mp ?_
  rw [List.getElem?_map, List.getElem?_map, hi, hj]
  exact congrArg some hview

/-- The entries around a place. -/
theorem split_at (hold : table[place]? = some old) :
    ∃ front back, table = front ++ old :: back ∧
      ∀ new, table.set place new = front ++ new :: back := by
  obtain ⟨hlt, hget⟩ := List.getElem?_eq_some_iff.mp hold
  refine ⟨table.take place, table.drop (place + 1), ?_, fun new => ?_⟩
  · rw [← hget, List.getElem_cons_drop, List.take_append_drop]
  · rw [List.set_eq_take_append_cons_drop, if_pos hlt]

/-- Changing an entry changes a sum over the table by what the entry contributes. -/
theorem sum_set {β : Type*} [AddCommMonoid β] (view : α → β) (hold : table[place]? = some old) :
    ((table.set place new).map view).sum + view old = (table.map view).sum + view new := by
  obtain ⟨front, back, htable, hset⟩ := split_at hold
  rw [hset, htable, List.map_append, List.map_append, List.map_cons, List.map_cons, List.sum_append,
    List.sum_append, List.sum_cons, List.sum_cons]
  ac_rfl

/-- Changing a test at one entry of a list without repetitions changes how many pass by that
entry. -/
theorem countP_change {p q : α → Bool} {entry : α} (hnodup : table.Nodup) (hmem : entry ∈ table)
    (hother : ∀ other, other ≠ entry → q other = p other) :
    table.countP q + (if p entry then 1 else 0) = table.countP p + (if q entry then 1 else 0) := by
  induction table with
  | nil => cases hmem
  | cons first rest ih =>
      obtain ⟨hfirst, hrest⟩ := List.nodup_cons.mp hnodup
      rw [List.countP_cons, List.countP_cons]
      rcases List.mem_cons.mp hmem with rfl | hmem
      · have hsame : rest.countP q = rest.countP p := by
          refine List.countP_congr fun other hother' => ?_
          rw [hother other fun heq => hfirst (heq ▸ hother')]
        omega
      · rw [hother first fun heq => hfirst (heq ▸ hmem)]
        have := ih hrest hmem
        omega

theorem split_append {front back extra : List α} {entry : α}
    (h : table ++ extra = front ++ entry :: back) :
    (∃ rest, table = front ++ entry :: rest ∧ back = rest ++ extra) ∨
      ∃ rest, front = table ++ rest ∧ extra = rest ++ entry :: back := by
  obtain ⟨rest, hfront, hextra⟩ | ⟨rest, htable, hrest⟩ := List.append_eq_append_iff.mp h
  · exact Or.inr ⟨rest, hfront, hextra⟩
  · cases rest with
    | nil =>
        refine Or.inr ⟨[], ?_, hrest.symm⟩
        rw [htable, List.append_nil, List.append_nil]
    | cons first rest =>
        obtain ⟨rfl, rfl⟩ := List.cons.inj hrest
        exact Or.inl ⟨rest, htable, rfl⟩

theorem prefix_append {front extra : List α} (h : front <+: table ++ extra) :
    front <+: table ∨ ∃ rest, front = table ++ rest ∧ rest <+: extra := by
  obtain ⟨back, hback⟩ := h
  obtain ⟨rest, htable, -⟩ | ⟨rest, hfront, hextra⟩ := List.append_eq_append_iff.mp hback
  · exact Or.inl ⟨rest, htable.symm⟩
  · exact Or.inr ⟨rest, hfront, back, hextra.symm⟩

section

variable {σ : Type*} (view : σ → List α) (Inv : σ → Prop) (Done : α → Prop) {step : σ → Nat → σ}
  (hinv : ∀ state i, Inv state → Inv (step state i))
  (hstep : ∀ state i, Inv state → ∀ j entry, (view (step state i))[j]? = some entry →
    if j = i then Done entry else (view state)[j]? = some entry)
include hinv hstep

/-- A loop over all places, whose body changes the entry at its place only, establishes of every
entry what the body establishes of one. -/
theorem foldl_range (count : Nat) {start : σ} (hstart : Inv start) :
    Inv ((List.range count).foldl step start) ∧
      ∀ j entry, (view ((List.range count).foldl step start))[j]? = some entry →
        Done entry ∨ (count ≤ j ∧ (view start)[j]? = some entry) := by
  induction count with
  | zero => exact ⟨hstart, fun j entry h => Or.inr ⟨Nat.zero_le j, h⟩⟩
  | succ count ih =>
      obtain ⟨hreached, hdone⟩ := ih
      rw [List.range_succ, List.foldl_append, List.foldl_cons, List.foldl_nil]
      refine ⟨hinv _ _ hreached, fun j entry h => ?_⟩
      have hentry := hstep _ _ hreached j entry h
      split at hentry
      case isTrue => exact Or.inl hentry
      case isFalse hne =>
        exact (hdone j entry hentry).imp_right fun ⟨hle, hold⟩ => ⟨by omega, hold⟩

/-- The loop over a whole table. -/
theorem foldl_range_length {start : σ} (hstart : Inv start) {entry : α}
    (h : entry ∈ view ((List.range (view start).length).foldl step start)) : Done entry := by
  obtain ⟨j, hj⟩ := List.mem_iff_getElem?.mp h
  obtain hdone | ⟨hle, hold⟩ :=
    (foldl_range view Inv Done hinv hstep (view start).length hstart).2 j entry hj
  · exact hdone
  · exact absurd (List.getElem?_eq_some_iff.mp hold).1 (by omega)

end

def Sole (table : List α) (test : α → Bool) (place : Nat) : Prop :=
  (∃ entry, table[place]? = some entry ∧ test entry = true) ∧
    ∀ (i : Nat) (entry : α), table[i]? = some entry → test entry = true → i = place

def Absent (table : List α) (test : α → Bool) : Prop :=
  ∀ (i : Nat) (entry : α), table[i]? = some entry → test entry = false

section

variable {test : α → Bool}

theorem mem_filter_zipIdx {entry : α × Nat} :
    entry ∈ table.zipIdx.filter (fun entry => test entry.1) ↔
      table[entry.2]? = some entry.1 ∧ test entry.1 = true := by
  rw [List.mem_filter, List.mem_zipIdx_iff_getElem?]

/-- Nothing is kept when nothing passes. -/
theorem filter_zipIdx_nil_iff :
    table.zipIdx.filter (fun entry => test entry.1) = [] ↔ Absent table test := by
  constructor
  · intro hnil i entry hentry
    by_contra htest
    have hmem : (entry, i) ∈ table.zipIdx.filter (fun entry => test entry.1) :=
      mem_filter_zipIdx.mpr ⟨hentry, by simpa using htest⟩
    rw [hnil] at hmem
    cases hmem
  · intro habsent
    refine List.eq_nil_iff_forall_not_mem.mpr fun entry hmem => ?_
    obtain ⟨hentry, htest⟩ := mem_filter_zipIdx.mp hmem
    rw [habsent _ _ hentry] at htest
    cases htest

/-- One entry is kept when one place passes. -/
theorem filter_zipIdx_singleton_iff :
    (∃ entry, table.zipIdx.filter (fun entry => test entry.1) = [(entry, place)]) ↔
      Sole table test place := by
  constructor
  · rintro ⟨entry, hone⟩
    have hkept (other : α × Nat) : other ∈ table.zipIdx.filter (fun entry => test entry.1) ↔
        other = (entry, place) := by
      rw [hone, List.mem_singleton]
    obtain ⟨hentry, htest⟩ := mem_filter_zipIdx.mp ((hkept (entry, place)).mpr rfl)
    refine ⟨⟨entry, hentry, htest⟩, fun i other hother hpass => ?_⟩
    exact congrArg Prod.snd ((hkept (other, i)).mp (mem_filter_zipIdx.mpr ⟨hother, hpass⟩))
  · rintro ⟨⟨entry, hentry, htest⟩, honly⟩
    have hmem : (entry, place) ∈ table.zipIdx.filter (fun entry => test entry.1) :=
      mem_filter_zipIdx.mpr ⟨hentry, htest⟩
    have hsame : ∀ other ∈ table.zipIdx.filter (fun entry => test entry.1),
        other = (entry, place) := by
      intro other hother
      obtain ⟨hfound, hpass⟩ := mem_filter_zipIdx.mp hother
      have hplace := honly _ _ hfound hpass
      rw [hplace, hentry] at hfound
      exact Prod.ext (Option.some.inj hfound).symm hplace
    have hnodup : (table.zipIdx.filter (fun entry => test entry.1)).Nodup := by
      refine List.Nodup.filter _ (List.Nodup.of_map Prod.snd ?_)
      rw [List.zipIdx_map_snd]
      exact List.nodup_range'
    refine ⟨entry, ?_⟩
    generalize table.zipIdx.filter (fun entry => test entry.1) = kept at *
    match kept with
    | [] => cases hmem
    | [other] => rw [hsame other List.mem_cons_self]
    | first :: second :: rest =>
        have hfirst := hsame first List.mem_cons_self
        have hsecond := hsame second (List.mem_cons_of_mem _ List.mem_cons_self)
        rw [hfirst, hsecond] at hnodup
        exact absurd List.mem_cons_self (List.nodup_cons.mp hnodup).1

theorem Sole.set (h : Sole table test place) (hnew : test new = true) :
    Sole (table.set place new) test place := by
  obtain ⟨⟨entry, hentry, -⟩, honly⟩ := h
  refine ⟨⟨new, getElem?_set_same hentry, hnew⟩, fun i other hother hpass => ?_⟩
  obtain ⟨hi, -⟩ | ⟨-, hold⟩ := getElem?_set_cases hother
  · exact hi
  · exact honly i other hold hpass

/-- A test that nothing passed picks out a changed entry that passes. -/
theorem Absent.set_pass (h : Absent table test) (hold : table[place]? = some old)
    (hnew : test new = true) : Sole (table.set place new) test place := by
  refine ⟨⟨new, getElem?_set_same hold, hnew⟩, fun i other hother hpass => ?_⟩
  obtain ⟨hi, -⟩ | ⟨-, hfound⟩ := getElem?_set_cases hother
  · exact hi
  · rw [h i other hfound] at hpass
    cases hpass

/-- A test that nothing passed is passed by nothing when the changed entry does not pass. -/
theorem Absent.set_fail (h : Absent table test) (hnew : test new = false) :
    Absent (table.set place new) test := by
  intro i other hother
  obtain ⟨-, heq⟩ | ⟨-, hfound⟩ := getElem?_set_cases hother
  · rw [heq, hnew]
  · exact h i other hfound

/-- A test that nothing passed picks out an added entry that passes. -/
theorem Absent.append_pass (h : Absent table test) (hnew : test new = true) :
    Sole (table ++ [new]) test table.length := by
  refine ⟨⟨new, List.getElem?_concat_length, hnew⟩, fun i other hother hpass => ?_⟩
  obtain ⟨hi, -⟩ | ⟨-, hfound⟩ := getElem?_append_cases hother
  · exact hi
  · rw [h i other hfound] at hpass
    cases hpass

/-- A test that nothing passed is passed by nothing when the added entry does not pass. -/
theorem Absent.append_fail (h : Absent table test) (hnew : test new = false) :
    Absent (table ++ [new]) test := by
  intro i other hother
  obtain ⟨-, heq⟩ | ⟨-, hfound⟩ := getElem?_append_cases hother
  · rw [heq, hnew]
  · exact h i other hfound

end

end Library.Table
