import Mathlib.Data.List.Basic

/-!
# Pages

A page takes so many lines and ignores the others. What is put on a page that has room for it is
there in full. A text that is cut into pieces of a width, with one piece for the empty text, gives
as many lines as its length takes.
-/

namespace Library.Page

variable {α : Type*} {limit : Nat} {page items : List α}

/-- One more line, if there is room. -/
def put (limit : Nat) (page : List α) (item : α) : List α :=
  if page.length < limit then page ++ [item] else page

/-- Lines in turn. -/
def puts (limit : Nat) (page items : List α) : List α := items.foldl (put limit) page

theorem length_put (h : page.length ≤ limit) (item : α) :
    (put limit page item).length = min limit (page.length + 1) := by
  unfold put
  split
  · rename_i hroom
    rw [List.length_append, List.length_singleton, Nat.min_eq_right hroom]
  · rename_i hfull
    have hlimit : page.length = limit := Nat.le_antisymm h (Nat.le_of_not_lt hfull)
    rw [hlimit, Nat.min_eq_left (Nat.le_succ limit)]

/-- A page takes the lines that it is given, until it has no room. -/
theorem length_puts (h : page.length ≤ limit) (items : List α) :
    (puts limit page items).length = min limit (page.length + items.length) := by
  induction items generalizing page with
  | nil => exact (Nat.min_eq_right h).symm
  | cons item items ih =>
      have hput := length_put h item
      have hnext : (put limit page item).length ≤ limit := by
        rw [hput]
        exact Nat.min_le_left ..
      calc (puts limit page (item :: items)).length
          = min limit ((put limit page item).length + items.length) := ih hnext
        _ = min limit (page.length + (item :: items).length) := by
          rw [hput, List.length_cons]
          omega

theorem puts_of_room (h : page.length + items.length ≤ limit) :
    puts limit page items = page ++ items := by
  induction items generalizing page with
  | nil => exact (List.append_nil page).symm
  | cons item items ih =>
      rw [List.length_cons] at h
      have hroom : page.length < limit := by omega
      have hput : put limit page item = page ++ [item] := if_pos hroom
      have hrest : (page ++ [item]).length + items.length ≤ limit := by
        rw [List.length_append, List.length_singleton]
        omega
      calc puts limit page (item :: items) =
        puts limit (page ++ [item]) items := by rw [← hput]; rfl
        _ = page ++ item :: items := by rw [ih hrest, List.append_assoc, List.singleton_append]

def pieces (width : Nat) : Nat → List α → List (List α)
  | 0, _ => []
  | rounds + 1, text =>
      text.take width :: if text.length ≤ width then [] else pieces width rounds (text.drop width)

/-- The number of lines that a text takes. -/
def pieceCount (width length : Nat) : Nat := if length = 0 then 1 else (length + width - 1) / width

theorem pieceCount_short {width length : Nat} (hwidth : 0 < width) (h : length ≤ width) :
    pieceCount width length = 1 := by
  unfold pieceCount
  split
  · rfl
  · refine Nat.div_eq_of_lt_le ?_ ?_ <;> omega

theorem pieceCount_long {width length : Nat} (hwidth : 0 < width) (h : width < length) :
    pieceCount width length = 1 + pieceCount width (length - width) := by
  unfold pieceCount
  have hfirst : length ≠ 0 := by omega
  have hrest : length - width ≠ 0 := by omega
  have hsplit : length + width - 1 = length - width + width - 1 + width := by omega
  rw [if_neg hfirst, if_neg hrest, hsplit, Nat.add_div_right _ hwidth, Nat.add_comm]

theorem length_pieces {width rounds : Nat} {text : List α} (hwidth : 0 < width)
    (h : text.length < rounds) :
    (pieces width rounds text).length = pieceCount width text.length := by
  induction rounds generalizing text with
  | zero => exact absurd h (Nat.not_lt_zero _)
  | succ rounds ih =>
      unfold pieces
      split
      · rename_i hshort
        exact (pieceCount_short hwidth hshort).symm
      · rename_i hlong
        have hrest : (text.drop width).length < rounds := by
          rw [List.length_drop]
          omega
        rw [List.length_cons, ih hrest, List.length_drop,
          pieceCount_long hwidth (Nat.lt_of_not_le hlong),
          Nat.add_comm]

end Library.Page
