import Mathlib.Data.List.Nodup
import Mathlib.Data.List.Perm.Subperm
import Mathlib.Data.List.Range
import Mathlib.Logic.Function.Basic

/-!
# Singly linked queues

A queue of allocated nodes with a pointer to the first and to the last one: nodes are linked in at
the tail, taken off at the head, and swept out from the middle. `Holds` ties the nodes to the list
of their values, and each operation has a rule that says what it does to that list. A traversal is
bounded by the number of addresses handed out so far, and the rules show that this is enough.
-/

namespace Library.LinkedQueue

/-- An allocated node: its value and the address of the next node. -/
structure Node (α : Type*) where
  value : α
  next : Option Nat

/-- The allocated nodes of a queue, the next address to hand out, and the two ends. -/
structure Linked (α : Type*) where
  cells : Nat → Option (Node α)
  fresh : Nat
  head : Option Nat
  tail : Option Nat

variable {α σ : Type*}

/-- A queue without nodes. -/
def Linked.empty : Linked α :=
  ⟨fun _ => none, 0, none, none⟩

/-- Let `next` follow the node at `previous`, or be the head when there is no such node. -/
def Linked.relink (queue : Linked α) (previous next : Option Nat) : Linked α :=
  match previous with
  | some place =>
      { queue with
        cells := Function.update queue.cells place
          ((queue.cells place).map fun node => { node with next := next }) }
  | none => { queue with head := next }

/-- Allocate a node and link it in at the tail. -/
def Linked.append (queue : Linked α) (value : α) : Linked α :=
  let allocated :=
    { queue with
      cells := Function.update queue.cells queue.fresh (some ⟨value, none⟩)
      fresh := queue.fresh + 1 }
  { allocated.relink queue.tail (some queue.fresh) with tail := some queue.fresh }

/-- Release a node. -/
def Linked.free (queue : Linked α) (place : Nat) : Linked α :=
  { queue with cells := Function.update queue.cells place none }

def Linked.first (queue : Linked α) : Option (Nat × Node α) :=
  queue.head.bind fun place => (queue.cells place).map fun node => (place, node)

/-- Take off the node at the head. -/
def Linked.pop (queue : Linked α) : Linked α :=
  match queue.first with
  | none => queue
  | some (place, node) =>
      { queue with
        head := node.next
        tail := if node.next.isNone then none else queue.tail }.free place

/-- Take off nodes at the head while `test` holds, letting `release` account for each. -/
def Linked.popWhile (test : σ → α → Bool) (release : σ → α → σ) :
    Nat → σ → Linked α → σ × Linked α
  | 0, state, queue => (state, queue)
  | fuel + 1, state, queue =>
      match queue.first with
      | none => (state, queue)
      | some (_, node) =>
          if test state node.value then popWhile test release fuel
            (release state node.value) queue.pop
          else (state, queue)

/-- Release every node from `place` on that `keep` does not keep, letting `release` account for
each. The last kept node, or `previous` when none is kept, becomes the tail. -/
def Linked.sweepFrom (keep : α → Bool) (release : σ → α → σ) :
    Nat → σ → Linked α → Option Nat → Option Nat → σ × Linked α
  | _, state, queue, none, previous => (state, { queue with tail := previous })
  | 0, state, queue, some _, _ => (state, queue)
  | fuel + 1, state, queue, some place, previous =>
      match queue.cells place with
      | none => (state, queue)
      | some node =>
          if keep node.value then sweepFrom keep release fuel state queue node.next (some place)
          else
            sweepFrom keep release fuel (release state node.value)
              ((queue.relink previous node.next).free place) node.next previous

def Linked.sweep (keep : α → Bool) (release : σ → α → σ) (state : σ)
    (queue : Linked α) : σ × Linked α :=
  sweepFrom keep release queue.fresh state queue queue.head none

def Linked.valuesFrom (queue : Linked α) : Nat → Option Nat → List α
  | _, none => []
  | 0, some _ => []
  | fuel + 1, some place =>
      match queue.cells place with
      | none => []
      | some node => node.value :: valuesFrom queue fuel node.next

def Linked.values (queue : Linked α) : List α :=
  queue.valuesFrom queue.fresh queue.head

/-! ## Segments -/

def Segment (cells : Nat → Option (Node α)) : Option Nat → List (Nat × α) → Option Nat → Prop
  | start, [], stop => start = stop
  | start, (place, value) :: rest, stop =>
      start = some place ∧ ∃ next, cells place = some ⟨value, next⟩ ∧ Segment cells next rest stop

variable {cells other : Nat → Option (Node α)} {start stop : Option Nat}
  {front back places : List (Nat × α)}

/-- A segment of two parts. -/
theorem segment_append :
    Segment cells start (front ++ back) stop ↔
      ∃ middle, Segment cells start front middle ∧ Segment cells middle back stop := by
  induction front generalizing start with
  | nil => exact ⟨fun h => ⟨start, rfl, h⟩, fun ⟨_, hfront, hback⟩ => hfront ▸ hback⟩
  | cons entry rest ih =>
      obtain ⟨place, value⟩ := entry
      constructor
      · rintro ⟨hstart, next, hcell, hrest⟩
        obtain ⟨middle, hfront, hback⟩ := ih.mp hrest
        exact ⟨middle, ⟨hstart, next, hcell, hfront⟩, hback⟩
      · rintro ⟨middle, ⟨hstart, next, hcell, hfront⟩, hback⟩
        exact ⟨hstart, next, hcell, ih.mpr ⟨middle, hfront, hback⟩⟩

/-- A segment is not disturbed by changes elsewhere. -/
theorem segment_congr (hsame : ∀ entry ∈ places, other entry.1 = cells entry.1)
    (h : Segment cells start places stop) : Segment other start places stop := by
  induction places generalizing start with
  | nil => exact h
  | cons entry rest ih =>
      obtain ⟨place, value⟩ := entry
      obtain ⟨hstart, next, hcell, hrest⟩ := h
      refine ⟨hstart, next, ?_, ih (fun entry hentry => ?_) hrest⟩
      · rw [hsame (place, value) List.mem_cons_self, hcell]
      · exact hsame entry (List.mem_cons_of_mem _ hentry)

theorem segment_update {place : Nat} {node : Option (Node α)}
    (hplace : place ∉ places.map Prod.fst) (h : Segment cells start places stop) :
    Segment (Function.update cells place node) start places stop := by
  refine segment_congr (fun entry hentry => ?_) h
  refine Function.update_of_ne (fun heq => hplace ?_) _ _
  exact heq ▸ List.mem_map_of_mem hentry

/-- The places of a queue, first to last. -/
structure Layout (queue : Linked α) (places : List (Nat × α)) : Prop where
  chain : Segment queue.cells queue.head places none
  nodup : (places.map Prod.fst).Nodup
  bounded : ∀ place ∈ places.map Prod.fst, place < queue.fresh
  tail : queue.tail = places.getLast?.map Prod.fst

def Holds (queue : Linked α) (values : List α) : Prop :=
  ∃ places, Layout queue places ∧ places.map Prod.snd = values

theorem holds_empty : Holds (Linked.empty : Linked α) [] :=
  ⟨[], ⟨rfl, List.nodup_nil, by simp, rfl⟩, rfl⟩

/-- There are no more nodes than addresses handed out. -/
theorem Layout.length_le {queue : Linked α} (h : Layout queue places) :
    places.length ≤ queue.fresh := by
  have hsubset : places.map Prod.fst ⊆ List.range queue.fresh :=
    fun place hplace => List.mem_range.mpr (h.bounded place hplace)
  have hlength := (h.nodup.subperm hsubset).length_le
  rwa [List.length_map, List.length_range] at hlength

theorem segment_relink {queue : Linked α} {previous : Option Nat} (next : Option Nat)
    (hsegment : Segment queue.cells queue.head places stop) (hnodup : (places.map Prod.fst).Nodup)
    (hprevious : previous = places.getLast?.map Prod.fst) :
    Segment (queue.relink previous next).cells (queue.relink previous next).head places next := by
  rcases List.eq_nil_or_concat' places with rfl | ⟨front, ⟨place, value⟩, rfl⟩
  · subst hprevious
    rfl
  · rw [List.getLast?_concat] at hprevious
    subst hprevious
    obtain ⟨middle, hfront, rfl, old, hcell, -⟩ := segment_append.mp hsegment
    have hplace : place ∉ front.map Prod.fst := by
      rw [List.map_append, List.nodup_append] at hnodup
      exact fun hmem => hnodup.2.2 place hmem place (by simp) rfl
    refine segment_append.mpr ⟨some place, segment_update hplace hfront, rfl, next, ?_, rfl⟩
    show Function.update queue.cells place _ place = _
    rw [Function.update_self, hcell]
    rfl

/-- Relinking changes nothing but the node it links from. -/
theorem relink_cells (queue : Linked α) {previous next : Option Nat} {place : Nat}
    (h : previous ≠ some place) : (queue.relink previous next).cells place = queue.cells place := by
  cases previous with
  | none => rfl
  | some other => exact Function.update_of_ne (fun heq => h (congrArg some heq.symm)) _ _

@[simp] theorem relink_fresh (queue : Linked α) (previous next : Option Nat) :
    (queue.relink previous next).fresh = queue.fresh := by
  cases previous <;> rfl

/-! ## Rules -/

/-- Appending adds a value at the end. -/
theorem Holds.append {queue : Linked α} {values : List α} (h : Holds queue values) (value : α) :
    Holds (queue.append value) (values ++ [value]) := by
  obtain ⟨places, ⟨hchain, hnodup, hbounded, htail⟩, rfl⟩ := h
  have hnew : queue.fresh ∉ places.map Prod.fst :=
    fun hmem => absurd (hbounded _ hmem) (Nat.lt_irrefl _)
  have hchain := @segment_update _ _ _ _ _ _ (some ⟨value, none⟩) hnew hchain
  obtain ⟨allocated, hallocated⟩ : ∃ allocated : Linked α, allocated =
    { queue with
      cells := Function.update queue.cells queue.fresh (some ⟨value, none⟩)
      fresh := queue.fresh + 1 } := ⟨_, rfl⟩
  have hlinked : Segment (allocated.relink queue.tail (some queue.fresh)).cells
      (allocated.relink queue.tail (some queue.fresh)).head places (some queue.fresh) := by
    have hbefore : Segment allocated.cells allocated.head places none := by
      rw [hallocated]
      exact hchain
    exact segment_relink _ hbefore hnodup htail
  have hcell : (allocated.relink queue.tail (some queue.fresh)).cells queue.fresh =
      some ⟨value, none⟩ := by
    rw [relink_cells, hallocated]
    · exact Function.update_self _ _ _
    · rw [htail]
      intro hlast
      obtain ⟨entry, hentry, heq⟩ := Option.map_eq_some_iff.mp hlast
      exact hnew (heq ▸ List.mem_map_of_mem (List.mem_of_getLast? hentry))
  have hqueue : queue.append value =
      { allocated.relink queue.tail (some queue.fresh) with tail := some queue.fresh } := by
    rw [hallocated]
    rfl
  rw [hqueue]
  refine ⟨places ++ [(queue.fresh, value)], ⟨?_, ?_, ?_, ?_⟩, by simp⟩
  · exact segment_append.mpr ⟨_, hlinked, rfl, none, hcell, rfl⟩
  · rw [List.map_append, List.nodup_append]
    refine ⟨hnodup, List.nodup_singleton _, ?_⟩
    rintro place hplace other hother rfl
    rw [List.map_singleton, List.mem_singleton] at hother
    subst hother
    exact hnew hplace
  · intro place hplace
    show place < (allocated.relink queue.tail (some queue.fresh)).fresh
    rw [relink_fresh, hallocated]
    rw [List.map_append, List.mem_append, List.map_singleton, List.mem_singleton] at hplace
    rcases hplace with hold | rfl
    · exact Nat.lt_succ_of_lt (hbounded place hold)
    · exact Nat.lt_succ_self _
  · simp

theorem Holds.first_cons {queue : Linked α} {value : α} {rest : List α}
    (h : Holds queue (value :: rest)) :
    ∃ place node, queue.first = some (place, node) ∧ node.value = value := by
  obtain ⟨places, ⟨hchain, -, -, -⟩, hvalues⟩ := h
  cases places with
  | nil => cases hvalues
  | cons entry places =>
      obtain ⟨place, head⟩ := entry
      obtain ⟨hhead, next, hcell, -⟩ := hchain
      obtain ⟨rfl, -⟩ := List.cons.inj hvalues
      refine ⟨place, ⟨head, next⟩, ?_, rfl⟩
      rw [Linked.first, hhead, Option.bind_some, hcell]
      rfl

/-- An empty queue has no head. -/
theorem Holds.first_nil {queue : Linked α} (h : Holds queue []) : queue.first = none := by
  obtain ⟨places, ⟨hchain, -, -, -⟩, hvalues⟩ := h
  obtain rfl := List.map_eq_nil_iff.mp hvalues
  rw [Linked.first, show queue.head = none from hchain]
  rfl

/-- Taking off the head removes the first value. -/
theorem Holds.pop {queue : Linked α} {value : α} {rest : List α}
    (h : Holds queue (value :: rest)) : Holds queue.pop rest := by
  obtain ⟨places, ⟨hchain, hnodup, hbounded, htail⟩, hvalues⟩ := h
  cases places with
  | nil => cases hvalues
  | cons entry places =>
      obtain ⟨place, head⟩ := entry
      obtain ⟨hhead, next, hcell, hrest⟩ := hchain
      obtain ⟨-, rfl⟩ := List.cons.inj hvalues
      have hfirst : queue.first = some (place, ⟨head, next⟩) := by
        rw [Linked.first, hhead, Option.bind_some, hcell]
        rfl
      rw [List.map_cons, List.nodup_cons] at hnodup
      have hpop : queue.pop =
          { queue with
            cells := Function.update queue.cells place none
            head := next
            tail := if next.isNone then none else queue.tail } := by
        rw [Linked.pop, hfirst]
        rfl
      rw [hpop]
      refine ⟨places, ⟨segment_update hnodup.1 hrest, hnodup.2, ?_, ?_⟩, rfl⟩
      · exact fun other hother => hbounded other (List.mem_cons_of_mem _ hother)
      · show (if next.isNone then none else queue.tail) = _
        cases places with
        | nil =>
            rw [show next = none from hrest]
            rfl
        | cons second others =>
            obtain ⟨hnext, -⟩ := hrest
            rw [hnext, htail, List.getLast?_cons_cons]
            rfl

def dropWhile (test : σ → α → Bool) (release : σ → α → σ) : σ → List α → σ × List α
  | state, [] => (state, [])
  | state, value :: rest =>
      if test state value then dropWhile test release (release state value) rest
      else (state, value :: rest)

theorem dropWhile_suffix (test : σ → α → Bool) (release : σ → α → σ) (state : σ)
    (values : List α) : (dropWhile test release state values).2 <:+ values := by
  induction values generalizing state with
  | nil => exact List.suffix_refl _
  | cons value rest ih =>
      unfold dropWhile
      split
      · exact (ih (release state value)).trans (List.suffix_cons value rest)
      · exact List.suffix_refl _

theorem Holds.popWhile {test : σ → α → Bool} {release : σ → α → σ} {fuel : Nat} {state : σ}
    {queue : Linked α} {values : List α} (h : Holds queue values) (hfuel : values.length ≤ fuel) :
    (Linked.popWhile test release fuel state queue).1 = (dropWhile test release state values).1 ∧
      Holds (Linked.popWhile test release fuel state queue).2
        (dropWhile test release state values).2 := by
  induction values generalizing fuel state queue with
  | nil =>
      have hqueue : Linked.popWhile test release fuel state queue = (state, queue) := by
        cases fuel with
        | zero => rfl
        | succ fuel => rw [Linked.popWhile, h.first_nil]
      rw [hqueue]
      exact ⟨rfl, h⟩
  | cons value rest ih =>
      cases fuel with
      | zero => cases hfuel
      | succ fuel =>
          obtain ⟨place, node, hfirst, rfl⟩ := h.first_cons
          rw [Linked.popWhile, hfirst, dropWhile]
          dsimp only
          split
          · exact ih h.pop (Nat.le_of_succ_le_succ hfuel)
          · exact ⟨rfl, h⟩

/-- There are no more values than addresses handed out. -/
theorem Holds.length_le {queue : Linked α} {values : List α} (h : Holds queue values) :
    values.length ≤ queue.fresh := by
  obtain ⟨places, hlayout, rfl⟩ := h
  rw [List.length_map]
  exact hlayout.length_le

def sweepList (keep : α → Bool) (release : σ → α → σ) (state : σ) (values : List α) : σ :=
  (values.filter fun value => !keep value).foldl release state

/-- Releasing the node at `place` after unlinking it, seen from the nodes that stay. -/
theorem layout_unlink {queue : Linked α} {place : Nat} {value : α} {next previous : Option Nat}
    (hfront : Segment queue.cells queue.head front (some place))
    (hback : Segment queue.cells next back none)
    (hnodup : ((front ++ (place, value) :: back).map Prod.fst).Nodup)
    (hprevious : previous = front.getLast?.map Prod.fst) :
    Segment ((queue.relink previous next).free place).cells
        ((queue.relink previous next).free place).head front next ∧
      Segment ((queue.relink previous next).free place).cells next back none := by
  rw [List.map_append, List.map_cons, List.nodup_append, List.nodup_cons] at hnodup
  obtain ⟨hfrontNodup, ⟨hplace, -⟩, hapart⟩ := hnodup
  have hplaceFront : place ∉ front.map Prod.fst :=
    fun hmem => hapart place hmem place List.mem_cons_self rfl
  refine ⟨segment_update hplaceFront (segment_relink next hfront hfrontNodup hprevious), ?_⟩
  refine segment_update hplace (segment_congr (fun entry hentry => relink_cells queue ?_) hback)
  rw [hprevious]
  intro hlast
  obtain ⟨last, hmem, heq⟩ := Option.map_eq_some_iff.mp hlast
  refine hapart last.1 (List.mem_map_of_mem (List.mem_of_getLast? hmem)) entry.1 ?_ heq
  exact List.mem_cons_of_mem _ (List.mem_map_of_mem hentry)

/-- A sweep in progress: the nodes before `link` are kept, those from `link` on are ahead. -/
theorem sweepFrom_layout {keep : α → Bool} {release : σ → α → σ} {fuel : Nat} {state : σ}
    {queue : Linked α} {link previous : Option Nat}
    (hfront : Segment queue.cells queue.head front link)
    (hback : Segment queue.cells link back none) (hnodup : ((front ++ back).map Prod.fst).Nodup)
    (hbounded : ∀ place ∈ (front ++ back).map Prod.fst, place < queue.fresh)
    (hprevious : previous = front.getLast?.map Prod.fst) (hfuel : back.length ≤ fuel) :
    (Linked.sweepFrom keep release fuel state queue link previous).1 =
        sweepList keep release state (back.map Prod.snd) ∧
      Layout (Linked.sweepFrom keep release fuel state queue link previous).2
        (front ++ back.filter fun entry => keep entry.2) := by
  induction back generalizing fuel state queue link previous front with
  | nil =>
      obtain rfl : link = none := hback
      have hdone : Linked.sweepFrom keep release fuel state queue none previous =
          (state, { queue with tail := previous }) := by
        cases fuel <;> rfl
      rw [hdone, List.filter_nil]
      rw [List.append_nil] at hnodup hbounded ⊢
      exact ⟨rfl, hfront, hnodup, hbounded, hprevious⟩
  | cons entry back ih =>
      obtain ⟨place, value⟩ := entry
      obtain ⟨rfl, next, hcell, hrest⟩ := hback
      cases fuel with
      | zero => cases hfuel
      | succ fuel =>
          have hfuel := Nat.le_of_succ_le_succ hfuel
          rw [Linked.sweepFrom, hcell]
          dsimp only
          cases hkeep : keep value with
          | true =>
              rw [if_pos rfl, List.filter_cons_of_pos (by exact hkeep), sweepList, List.map_cons,
                List.filter_cons_of_neg (by simp [hkeep]), List.append_cons]
              rw [List.append_cons] at hnodup hbounded
              refine ih ?_ hrest hnodup hbounded ?_ hfuel
              · exact segment_append.mpr ⟨_, hfront, rfl, next, hcell, rfl⟩
              · rw [List.getLast?_concat]
                rfl
          | false =>
              rw [if_neg (by simp), List.filter_cons_of_neg (by simp [hkeep]), sweepList,
                List.map_cons, List.filter_cons_of_pos (by simp [hkeep]), List.foldl_cons]
              obtain ⟨hkept, hahead⟩ := layout_unlink hfront hrest hnodup hprevious
              have hsublist : ((front ++ back).map Prod.fst).Sublist
                  ((front ++ (place, value) :: back).map Prod.fst) :=
                (List.Sublist.append_left (List.sublist_cons_self _ _) front).map _
              refine ih hkept hahead (hsublist.nodup hnodup) ?_ hprevious hfuel
              intro other hother
              show other < (queue.relink previous next).fresh
              rw [relink_fresh]
              exact hbounded other (hsublist.subset hother)

theorem Holds.sweep {keep : α → Bool} {release : σ → α → σ} {state : σ} {queue : Linked α}
    {values : List α} (h : Holds queue values) :
    (queue.sweep keep release state).1 = sweepList keep release state values ∧
      Holds (queue.sweep keep release state).2 (values.filter keep) := by
  obtain ⟨places, hlayout, rfl⟩ := h
  obtain ⟨hstate, hafter⟩ := @sweepFrom_layout _ _ [] places keep release queue.fresh state queue
    queue.head none rfl hlayout.chain hlayout.nodup hlayout.bounded rfl hlayout.length_le
  refine ⟨hstate, places.filter fun entry => keep entry.2, hafter, ?_⟩
  rw [List.filter_map]
  rfl

theorem Holds.values {queue : Linked α} {values : List α} (h : Holds queue values) :
    queue.values = values := by
  obtain ⟨places, hlayout, rfl⟩ := h
  have hwalk (fuel : Nat) (link : Option Nat) (places : List (Nat × α))
      (hchain : Segment queue.cells link places none) (hfuel : places.length ≤ fuel) :
      queue.valuesFrom fuel link = places.map Prod.snd := by
    induction places generalizing fuel link with
    | nil =>
        obtain rfl : link = none := hchain
        cases fuel <;> rfl
    | cons entry rest ih =>
        obtain ⟨place, value⟩ := entry
        obtain ⟨rfl, next, hcell, hrest⟩ := hchain
        cases fuel with
        | zero => cases hfuel
        | succ fuel =>
            rw [Linked.valuesFrom, hcell, List.map_cons]
            exact congrArg (value :: ·) (ih fuel next hrest (Nat.le_of_succ_le_succ hfuel))
  exact hwalk _ _ _ hlayout.chain hlayout.length_le

theorem Holds.tail {queue : Linked α} {values : List α} (h : Holds queue values) :
    (queue.tail.bind queue.cells).map Node.value = values.getLast? ∧
      ∀ node ∈ queue.tail.bind queue.cells, node.next = none := by
  obtain ⟨places, ⟨hchain, -, -, htail⟩, rfl⟩ := h
  rcases List.eq_nil_or_concat' places with rfl | ⟨front, ⟨place, value⟩, rfl⟩
  · rw [htail]
    simp
  · obtain ⟨middle, -, -, next, hcell, rfl⟩ := segment_append.mp hchain
    rw [htail, List.getLast?_concat, Option.map_some, Option.bind_some, hcell]
    simp

end Library.LinkedQueue
