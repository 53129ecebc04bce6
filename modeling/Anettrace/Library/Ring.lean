import Mathlib.Data.List.Rotate
import Mathlib.Tactic.Common

/-!
# Rings of bounded capacity

A ring stores a queue of elements in an array, from `tail` on and around its end. Blocks of elements
are written at `head` and read at `tail` with two copies each, the second one when the block wraps.
`contents` reads the queue off the array. `write_contents` and `read_contents` say that the two
copies are an append and a removal at the front.
-/

namespace Library

variable {α : Type*}

def overwrite (data : List α) (offset : Nat) (source : List α) : List α :=
  data.take offset ++ source ++ data.drop (offset + source.length)

theorem overwrite_length {data source : List α} {offset : Nat}
    (h : offset + source.length ≤ data.length) :
    (overwrite data offset source).length = data.length := by
  simp only [overwrite, List.length_append, List.length_take, List.length_drop]
  omega

/-- A copy changes the elements it covers. -/
theorem overwrite_get {data source : List α} {offset : Nat}
    (h : offset + source.length ≤ data.length) (position : Nat) :
    (overwrite data offset source)[position]? =
      if position < offset then data[position]?
      else if position < offset + source.length then source[position - offset]?
      else data[position]? := by
  have htake : (data.take offset).length = offset := by
    rw [List.length_take]
    omega
  unfold overwrite
  rw [List.append_assoc]
  by_cases hbefore : position < offset
  · rw [if_pos hbefore, List.getElem?_append_left (by omega), List.getElem?_take_of_lt hbefore]
  · rw [if_neg hbefore, List.getElem?_append_right (by omega), htake]
    by_cases hinside : position < offset + source.length
    · rw [if_pos hinside, List.getElem?_append_left (by omega)]
    · rw [if_neg hinside, List.getElem?_append_right (by omega), List.getElem?_drop]
      congr 1
      omega

/-- The array with the positions of the queue in it. -/
structure Ring (α : Type*) where
  data : List α
  head : Nat
  tail : Nat
  used : Nat

namespace Ring

/-- The number of slots. -/
def capacity (ring : Ring α) : Nat :=
  ring.data.length

/-- Write a block at `head`. -/
def write (ring : Ring α) (source : List α) : Ring α :=
  let first := min (ring.capacity - ring.head) source.length
  { ring with
    data := overwrite (overwrite ring.data ring.head (source.take first)) 0 (source.drop first)
    head := (ring.head + source.length) % ring.capacity
    used := ring.used + source.length }

/-- Read a block at `tail`. -/
def read (ring : Ring α) (size : Nat) : List α × Ring α :=
  let first := min (ring.capacity - ring.tail) size
  ((ring.data.drop ring.tail).take first ++ ring.data.take (size - first),
    { ring with
      tail := (ring.tail + size) % ring.capacity
      used := ring.used - size })

/-- The positions describe a queue inside the array. -/
structure Valid (ring : Ring α) : Prop where
  tail_lt : ring.tail < ring.capacity
  used_le : ring.used ≤ ring.capacity
  head_eq : ring.head = (ring.tail + ring.used) % ring.capacity

/-- The queue, oldest element first. -/
def contents (ring : Ring α) : List α :=
  (ring.data.rotate ring.tail).take ring.used

variable {ring : Ring α}

/-- Positions wrap at most once. -/
theorem wrap {capacity start offset : Nat} (hstart : start < capacity)
    (hoffset : offset ≤ capacity) :
    (start + offset) % capacity =
      if start + offset < capacity then start + offset else start + offset - capacity := by
  split
  case isTrue hlt => exact Nat.mod_eq_of_lt hlt
  case isFalse hge =>
    rw [Nat.mod_eq_sub_mod (by omega), Nat.mod_eq_of_lt (by omega)]

theorem contents_length (h : ring.Valid) : ring.contents.length = ring.used := by
  have hle : ring.used ≤ ring.data.length := h.used_le
  rw [contents, List.length_take, List.length_rotate]
  omega

/-- The queue as positions of the array. -/
theorem contents_get (h : ring.Valid) {index : Nat} (hindex : index < ring.used) :
    ring.contents[index]? = ring.data[(ring.tail + index) % ring.capacity]? := by
  have hle : ring.used ≤ ring.data.length := h.used_le
  rw [contents, List.getElem?_take_of_lt hindex, List.getElem?_rotate (by omega),
    Nat.add_comm index]
  rfl

theorem head_lt (h : ring.Valid) : ring.head < ring.capacity := by
  have hpos : 0 < ring.capacity := Nat.lt_of_le_of_lt (Nat.zero_le _) h.tail_lt
  rw [h.head_eq]
  exact Nat.mod_lt _ hpos

/-! ## Writing -/

/-- The lengths of both parts of a block that is written, and of the array behind the first. -/
theorem write_lengths (source : List α) (hhead : ring.head < ring.capacity) :
    let first := min (ring.capacity - ring.head) source.length
    (source.take first).length = first ∧ (source.drop first).length = source.length - first ∧
      (overwrite ring.data ring.head (source.take first)).length = ring.capacity := by
  intro first
  have hcapacity : ring.data.length = ring.capacity := rfl
  have htake : (source.take first).length = first := by
    rw [List.length_take]
    omega
  exact ⟨htake, List.length_drop, overwrite_length (by omega)⟩

/-- Both copies of a write, as one case distinction on the position. -/
theorem write_get {source : List α} (hhead : ring.head < ring.capacity)
    (hfits : source.length ≤ ring.capacity) (position : Nat) :
    (ring.write source).data[position]? =
      if ring.head ≤ position ∧ position < ring.head + source.length ∧ position < ring.capacity then
        source[position - ring.head]?
      else if position + ring.capacity < ring.head + source.length then
        source[position + ring.capacity - ring.head]?
      else ring.data[position]? := by
  have hcapacity : ring.data.length = ring.capacity := rfl
  obtain ⟨htake, hdrop, hinner⟩ := write_lengths source hhead
  unfold write
  dsimp only
  rw [overwrite_get (by omega), if_neg (Nat.not_lt_zero _), overwrite_get (by omega), htake, hdrop]
  by_cases hwrapped : position + ring.capacity < ring.head + source.length
  · rw [if_pos (by omega), if_neg (by omega), if_pos hwrapped, List.getElem?_drop]
    congr 1
    omega
  · rw [if_neg (by omega), if_neg hwrapped]
    by_cases hcovered : ring.head ≤ position ∧ position < ring.head + source.length ∧
        position < ring.capacity
    · rw [if_neg (by omega), if_pos (by omega), if_pos hcovered,
        List.getElem?_take_of_lt (by omega)]
    · rw [if_neg hcovered]
      by_cases hbefore : position < ring.head
      · rw [if_pos hbefore]
      · rw [if_neg hbefore]
        split
        case isTrue => omega
        case isFalse => rfl

theorem write_capacity {source : List α} (hhead : ring.head < ring.capacity)
    (hfits : source.length ≤ ring.capacity) : (ring.write source).capacity = ring.capacity := by
  have hcapacity : ring.data.length = ring.capacity := rfl
  obtain ⟨htake, hdrop, hinner⟩ := write_lengths source hhead
  show (overwrite _ 0 _).length = _
  rw [overwrite_length (by omega), hinner]

/-- A block that fits keeps the positions valid. -/
theorem write_valid {source : List α} (h : ring.Valid)
    (hfits : ring.used + source.length ≤ ring.capacity) : (ring.write source).Valid := by
  have hcapacity : (ring.write source).capacity = ring.capacity :=
    write_capacity (head_lt h) (by omega)
  refine ⟨?_, ?_, ?_⟩
  · rw [hcapacity]
    exact h.tail_lt
  · rw [hcapacity]
    exact hfits
  · rw [hcapacity]
    show (ring.head + source.length) % ring.capacity =
      (ring.tail + (ring.used + source.length)) % ring.capacity
    rw [h.head_eq, Nat.mod_add_mod, Nat.add_assoc]

/-- A block that fits is appended to the queue. -/
theorem write_contents {source : List α} (h : ring.Valid)
    (hfits : ring.used + source.length ≤ ring.capacity) :
    (ring.write source).contents = ring.contents ++ source := by
  have hvalid := write_valid h hfits
  have hhead := head_lt h
  have hcapacity : (ring.write source).capacity = ring.capacity :=
    write_capacity hhead (by omega)
  have hlength := contents_length h
  have hused : (ring.write source).used = ring.used + source.length := rfl
  have htail : (ring.write source).tail = ring.tail := rfl
  have hwrap := wrap h.tail_lt h.used_le
  have hheadEq := h.head_eq
  have htailLt := h.tail_lt
  refine List.ext_getElem? fun index => ?_
  by_cases hindex : index < ring.used + source.length
  case neg =>
    rw [List.getElem?_eq_none, List.getElem?_eq_none]
    · rw [List.length_append]
      omega
    · rw [contents_length hvalid]
      omega
  case pos =>
    rw [contents_get hvalid (by omega), hcapacity, htail, write_get hhead (by omega),
      wrap h.tail_lt (by omega)]
    -- The block starts where the queue ends, so an old element is never covered.
    by_cases hold : index < ring.used
    · rw [List.getElem?_append_left (by omega), contents_get h hold, wrap h.tail_lt (by omega)]
      split at hwrap <;> split <;> rw [if_neg (by omega), if_neg (by omega)]
    · rw [List.getElem?_append_right (by omega), hlength]
      split at hwrap <;> split
      · rw [if_pos (by omega)]
        congr 1
        omega
      · rw [if_neg (by omega), if_pos (by omega)]
        congr 1
        omega
      · omega
      · rw [if_pos (by omega)]
        congr 1
        omega

/-! ## Reading -/

section

variable (h : ring.Valid) {size : Nat} (hsize : size ≤ ring.used)
include h hsize

theorem read_valid :
    (ring.read size).2.Valid := by
  have hpos : 0 < ring.capacity := Nat.lt_of_le_of_lt (Nat.zero_le _) h.tail_lt
  have hused := h.used_le
  refine ⟨Nat.mod_lt _ hpos, ?_, ?_⟩
  · show ring.used - size ≤ ring.capacity
    omega
  · show ring.head = ((ring.tail + size) % ring.capacity + (ring.used - size)) % ring.capacity
    rw [h.head_eq, Nat.mod_add_mod]
    congr 1
    omega

/-- A read returns the front of the queue. -/
theorem read_front :
    (ring.read size).1 = ring.contents.take size := by
  have hcapacity : ring.data.length = ring.capacity := rfl
  have hused := h.used_le
  have htail := h.tail_lt
  have hlength := contents_length h
  have hfirst : ((ring.data.drop ring.tail).take (min (ring.capacity - ring.tail) size)).length =
      min (ring.capacity - ring.tail) size := by
    rw [List.length_take, List.length_drop]
    omega
  unfold read
  dsimp only
  refine List.ext_getElem? fun index => ?_
  by_cases hindex : index < size
  case neg =>
    rw [List.getElem?_eq_none, List.getElem?_eq_none]
    · rw [List.length_take]
      omega
    · rw [List.length_append, hfirst, List.length_take]
      omega
  case pos =>
    rw [List.getElem?_take_of_lt hindex, contents_get h (by omega), wrap htail (by omega)]
    by_cases hplain : ring.tail + index < ring.capacity
    · rw [if_pos hplain, List.getElem?_append_left (by omega),
        List.getElem?_take_of_lt (by omega), List.getElem?_drop]
    · rw [if_neg hplain, List.getElem?_append_right (by omega), hfirst,
        List.getElem?_take_of_lt (by omega)]
      congr 1
      omega

/-- A read removes the front of the queue. -/
theorem read_contents :
    (ring.read size).2.contents = ring.contents.drop size := by
  have hvalid := read_valid h hsize
  have hlength := contents_length h
  have hused : (ring.read size).2.used = ring.used - size := rfl
  refine List.ext_getElem? fun index => ?_
  by_cases hindex : index < ring.used - size
  case neg =>
    rw [List.getElem?_eq_none, List.getElem?_eq_none]
    · rw [List.length_drop]
      omega
    · rw [contents_length hvalid]
      omega
  case pos =>
    rw [contents_get hvalid (by omega), List.getElem?_drop, contents_get h (by omega)]
    show ring.data[((ring.tail + size) % ring.capacity + index) % ring.capacity]? = _
    rw [Nat.mod_add_mod, Nat.add_assoc]

end

end Ring

end Library
