import Mathlib.Data.List.Basic
import Mathlib.Data.List.Infix

/-!
# Arrays of a program

An array has a fixed size and holds some item at every place from the start. An access outside of
the array is a fault, and the places that are read are noted. `Holds` says which items are known to
be at the front. A string is read up to the terminator that ends it.
-/

namespace Library

/-- An array: what it holds, and the places that have been read. -/
structure Block (α : Type) (size : Nat) where
  items : Vector α size
  reads : List Nat

def within {σ τ α : Type} (part : τ → σ) (replace : τ → σ → τ) (computation : StateT σ Option α) :
    StateT τ Option α :=
  fun whole => (computation (part whole)).map fun result => (result.1, replace whole result.2)

section Computations

variable {σ τ α β : Type} {first : StateT σ Option α} {state next : σ} {value : α}

/-- A computation in two parts goes on where the first part ends. -/
theorem bind_eq (second : α → StateT σ Option β) (h : first state = some (value, next)) :
    (first >>= second) state = second value next := by
  show (first state).bind (fun result => second result.1 result.2) = second value next
  rw [h]
  rfl

theorem within_eq {part : τ → σ} {replace : τ → σ → τ} {whole : τ}
    (h : first (part whole) = some (value, next)) :
    within part replace first whole = some (value, replace whole next) := by
  show (first (part whole)).map _ = _
  rw [h]
  rfl

end Computations

namespace Block

variable {α : Type} {size : Nat}

/-- An array that nothing has been read of. -/
def fresh (items : Vector α size) : Block α size := ⟨items, []⟩

/-- Places that have been read as well. -/
def noted (block : Block α size) (places : List Nat) : Block α size :=
  { block with reads := block.reads ++ places }

@[simp] theorem noted_reads (block : Block α size) (places : List Nat) :
    (block.noted places).reads = block.reads ++ places := rfl

@[simp] theorem noted_nil (block : Block α size) : block.noted [] = block := by
  show Block.mk block.items (block.reads ++ []) = block
  rw [List.append_nil]

@[simp] theorem noted_noted (block : Block α size) (first second : List Nat) :
    (block.noted first).noted second = block.noted (first ++ second) := by
  show Block.mk block.items (block.reads ++ first ++ second) =
      Block.mk block.items (block.reads ++ (first ++ second))
  rw [List.append_assoc]

/-! ## Accesses -/

def read (place : Nat) : StateT (Block α size) Option α := fun block =>
  if h : place < size then some (block.items[place], block.noted [place]) else none

def write (place : Nat) (item : α) : StateT (Block α size) Option Unit := fun block =>
  if h : place < size then some ((), { block with items := block.items.set place item }) else none

def load (place : Nat) : Nat → StateT (Block α size) Option (List α)
  | 0 => pure []
  | count + 1 => do
      let item ← read place
      let items ← load (place + 1) count
      pure (item :: items)

def store (place : Nat) : List α → StateT (Block α size) Option Unit
  | [] => pure ()
  | item :: items => do
      write place item
      store (place + 1) items

def stringFrom [DecidableEq α] (terminator : α) : Nat → Nat → StateT (Block α size) Option (List α)
  | 0, _ => failure
  | rounds + 1, place => do
      let item ← read place
      if item = terminator then pure []
      else
        let items ← stringFrom terminator rounds (place + 1)
        pure (item :: items)

/-- The string at the front of an array. -/
def string [DecidableEq α] (terminator : α) : StateT (Block α size) Option (List α) :=
  stringFrom terminator size 0

/-! ## What is at the front -/

/-- The array holds these items, from its first place on. -/
def Holds (block : Block α size) (items : List α) : Prop := items <+: block.items.toList

variable {block : Block α size} {front items back : List α} {item : α} {place : Nat}

@[simp] theorem holds_nil (block : Block α size) : Holds block [] := List.nil_prefix

@[simp] theorem holds_noted (places : List Nat) :
    Holds (block.noted places) items ↔ Holds block items := Iff.rfl

theorem Holds.left (h : Holds block (items ++ back)) : Holds block items :=
  (List.prefix_append items back).trans h

/-- A terminator that is put behind some items ends the string in front of the first one. -/
theorem exists_terminator [DecidableEq α] (terminator : α) (items : List α) :
    ∃ back, items ++ [terminator] = items.takeWhile (· ≠ terminator) ++ terminator :: back := by
  induction items with
  | nil => exact ⟨[], rfl⟩
  | cons item items ih =>
      by_cases hitem : item = terminator
      · refine ⟨items ++ [terminator], ?_⟩
        rw [List.takeWhile_cons_of_neg (by simpa using hitem), hitem]
        rfl
      · obtain ⟨back, hback⟩ := ih
        refine ⟨back, ?_⟩
        rw [List.takeWhile_cons_of_pos (by simpa using hitem), List.cons_append, List.cons_append,
          hback]

theorem Holds.length_le (h : Holds block items) : items.length ≤ size := by
  have hlength := List.IsPrefix.length_le h
  rwa [Vector.length_toList] at hlength

/-- What is behind the items at the front is read at the place that their number gives. -/
theorem Holds.read (h : Holds block (front ++ item :: back)) :
    read front.length block = some (item, block.noted [front.length]) := by
  have hlength := h.length_le
  rw [List.length_append, List.length_cons] at hlength
  have hplace : front.length < size := by omega
  have hitem : (front ++ item :: back)[front.length]? = some item := by simp
  obtain ⟨rest, hrest⟩ := h
  have hget : block.items.toList[front.length]? = some item := by
    rw [← hrest, List.getElem?_append_left (by simp)]
    exact hitem
  have hvalue : block.items[front.length] = item := by
    obtain ⟨_, hvalue⟩ := List.getElem?_eq_some_iff.mp hget
    rwa [Vector.getElem_toList] at hvalue
  rw [Block.read, dif_pos hplace, hvalue]

theorem Holds.load (h : Holds block (front ++ (items ++ back))) :
    load front.length items.length block =
      some (items, block.noted (List.range' front.length items.length)) := by
  induction items generalizing front block with
  | nil =>
      show some (([] : List α), block) = some ([], block.noted [])
      rw [noted_nil]
  | cons item items ih =>
      have hnext : Holds (block.noted [front.length]) (front ++ [item] ++ (items ++ back)) := by
        rwa [holds_noted, List.append_assoc]
      have hrest := ih hnext
      rw [List.length_append, List.length_singleton, noted_noted] at hrest
      rw [List.length_cons, Block.load, bind_eq _ h.read, bind_eq _ hrest]
      rfl

/-- A string is read up to its terminator, and nothing behind the terminator is. -/
theorem Holds.stringFrom [DecidableEq α] {terminator : α} {rounds : Nat}
    (h : Holds block (front ++ (items ++ terminator :: back))) (hitems : terminator ∉ items)
    (hrounds : items.length < rounds) :
    stringFrom terminator rounds front.length block =
      some (items, block.noted (List.range' front.length (items.length + 1))) := by
  induction items generalizing front block rounds with
  | nil =>
      obtain ⟨rounds, rfl⟩ := Nat.exists_eq_add_one_of_ne_zero (Nat.ne_of_gt hrounds)
      rw [Block.stringFrom, bind_eq _ h.read, if_pos rfl]
      rfl
  | cons item items ih =>
      have hitem := List.ne_of_not_mem_cons hitems
      have htail := List.not_mem_of_not_mem_cons hitems
      obtain ⟨rounds, rfl⟩ := Nat.exists_eq_add_one_of_ne_zero
          (Nat.ne_of_gt (Nat.zero_lt_of_lt hrounds))
      have hnext : Holds (block.noted [front.length])
          (front ++ [item] ++ (items ++ terminator :: back)) := by
        rwa [holds_noted, List.append_assoc]
      have hrest := ih hnext htail (Nat.lt_of_succ_lt_succ hrounds)
      rw [List.length_append, List.length_singleton, noted_noted] at hrest
      rw [Block.stringFrom, bind_eq _ h.read, if_neg (Ne.symm hitem), bind_eq _ hrest]
      rfl

theorem Holds.string [DecidableEq α] {terminator : α}
    (h : Holds block (items ++ terminator :: back)) (hitems : terminator ∉ items) :
    string terminator block = some (items, block.noted (List.range (items.length + 1))) := by
  have hlength := h.length_le
  rw [List.length_append, List.length_cons] at hlength
  rw [List.range_eq_range']
  exact Holds.stringFrom (show Holds block ([] ++ (items ++ terminator :: back)) from h) hitems
    (by omega)

/-- An item that is written ends what is known of the array. -/
theorem Holds.write (h : Holds block items) (hplace : place ≤ items.length) (hsize : place < size)
    (item : α) :
    ∃ next, write place item block = some ((), next) ∧ Holds next (items.take place ++ [item]) ∧
      next.reads = block.reads := by
  refine ⟨_, dif_pos hsize, ?_, rfl⟩
  show items.take place ++ [item] <+: (block.items.set place item).toList
  obtain ⟨rest, hrest⟩ := h
  have hinside : place < (items ++ rest).length := by rwa [hrest, Vector.length_toList]
  have hfront : (items ++ rest).take place = items.take place := by
    rw [List.take_append_of_le_length hplace]
  rw [Vector.toList_set, ← hrest, List.set_eq_take_append_cons_drop, if_pos hinside, hfront]
  exact ⟨(items ++ rest).drop (place + 1), by simp⟩

theorem Holds.store (h : Holds block items) (hplace : place ≤ items.length) {more : List α}
    (hsize : place + more.length ≤ size) :
    ∃ next, store place more block = some ((), next) ∧ Holds next (items.take place ++ more) ∧
      next.reads = block.reads := by
  induction more generalizing place items block with
  | nil =>
      refine ⟨block, rfl, ?_, rfl⟩
      rw [List.append_nil]
      exact (List.take_prefix place items).trans h
  | cons item more ih =>
      rw [List.length_cons] at hsize
      obtain ⟨between, hwrite, hbetween, hreads⟩ := h.write hplace (by omega) item
      have hlength : (items.take place ++ [item]).length = place + 1 := by
        rw [List.length_append, List.length_take, List.length_singleton]
        omega
      obtain ⟨next, hstore, hnext, hsame⟩ := ih hbetween (Nat.le_of_eq hlength.symm) (by omega)
      rw [List.take_of_length_le (Nat.le_of_eq hlength), List.append_assoc] at hnext
      refine ⟨next, ?_, hnext, hsame.trans hreads⟩
      rw [Block.store, bind_eq _ hwrite]
      exact hstore

end Block

end Library
