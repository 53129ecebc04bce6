import Mathlib.Data.List.Perm.Basic
import Mathlib.Tactic.Common
import Anettrace.RxContext.Model

/-!
# The pending list and its bookkeeping

`Shape` says that the count and the byte total describe the list, and that no null head was
followed. Each loop of the quarantine gets one lemma that says which nodes leave, what is reported
for them, and that the bookkeeping survives.
-/

namespace Anettrace.RxContext

variable {limits : Limits}

/-- The bytes the nodes of a list occupy. -/
def allocated (limits : Limits) (queue : List Pending) : Nat :=
  (queue.map fun entry => allocation limits entry.sample).sum

/-- The count and the byte total describe the list. -/
structure Shape (limits : Limits) (state : State) : Prop where
  count : state.count = state.queue.length
  bytes : state.bytes = allocated limits state.queue
  fault : state.fault = false

/-- The fields that no list operation touches. -/
def frame (state : State) : (Nat → Owner) × UInt64 × Nat :=
  (state.owners, state.watermark, state.allocated)

/-- The value of the counter of a cause. -/
def State.tally (state : State) : Cause → UInt64
  | .expired => state.expired
  | .capacityDropped => state.capacityDropped
  | .unresolved => state.unresolved

/-- The record of a node with the CPU it was seen on. -/
def Pending.held (entry : Pending) : Int × Sample :=
  (entry.cpu, entry.sample)

@[simp] theorem allocated_nil : allocated limits [] = 0 := rfl

@[simp] theorem allocated_cons (entry : Pending) (queue : List Pending) :
    allocated limits (entry :: queue) = allocation limits entry.sample + allocated limits queue :=
  rfl

@[simp] theorem allocated_append (first second : List Pending) :
    allocated limits (first ++ second) = allocated limits first + allocated limits second := by
  simp [allocated]

theorem allocated_perm {first second : List Pending} (h : first.Perm second) :
    allocated limits first = allocated limits second :=
  (h.map _).sum_nat

section

variable (state : State) (cause : Cause)

@[simp] theorem bump_queue :
    (state.bump cause).queue = state.queue := by
  cases cause <;> rfl

@[simp] theorem bump_tail :
    (state.bump cause).tail = state.tail := by
  cases cause <;> rfl

@[simp] theorem bump_count :
    (state.bump cause).count = state.count := by
  cases cause <;> rfl

@[simp] theorem bump_bytes :
    (state.bump cause).bytes = state.bytes := by
  cases cause <;> rfl

@[simp] theorem bump_fault :
    (state.bump cause).fault = state.fault := by
  cases cause <;> rfl

@[simp] theorem bump_replayed :
    (state.bump cause).replayed = state.replayed := by
  cases cause <;> rfl

@[simp] theorem bump_frame :
    frame (state.bump cause) = frame state := by
  cases cause <;> rfl

end

theorem bump_tally (state : State) (cause other : Cause) :
    (state.bump cause).tally other = state.tally other + if cause = other then 1 else 0 := by
  cases cause <;> cases other <;> simp [State.tally, State.bump]

theorem Shape.bump {state : State} (h : Shape limits state) (cause : Cause) :
    Shape limits (state.bump cause) := by
  refine ⟨?_, ?_, ?_⟩
  · simpa using h.count
  · simpa using h.bytes
  · simpa using h.fault

/-! ## Removal -/

@[simp] theorem remove_queue (state : State) (kept : List Pending) (entry : Pending)
    (rest : List Pending) : (remove limits state kept entry rest).queue = kept ++ rest := rfl

@[simp] theorem remove_frame (state : State) (kept : List Pending) (entry : Pending)
    (rest : List Pending) : frame (remove limits state kept entry rest) = frame state := rfl

section

variable (state : State) (kept : List Pending) (entry : Pending) (rest : List Pending)

@[simp] theorem remove_tally (cause : Cause) :
    (remove limits state kept entry rest).tally cause = state.tally cause := by
  cases cause <;> rfl

end

/-- Unlinking a node of the list keeps the bookkeeping. -/
theorem Shape.remove {state : State} {kept rest : List Pending} {entry : Pending}
    (h : Shape limits state) (hqueue : state.queue = kept ++ entry :: rest) :
    Shape limits (remove limits state kept entry rest) := by
  have hcount := h.count
  have hbytes := h.bytes
  rw [hqueue] at hcount hbytes
  refine ⟨?_, ?_, h.fault⟩
  · simp only [RxContext.remove, List.length_append, List.length_cons] at hcount ⊢
    omega
  · simp only [RxContext.remove, allocated_append, allocated_cons] at hbytes ⊢
    omega

theorem remove_head_tail {state : State} {entry : Pending} {rest : List Pending}
    (htail : state.tail = (entry :: rest).getLast?) :
    (remove limits state [] entry rest).tail = rest.getLast? := by
  cases rest with
  | nil => rfl
  | cons node rest =>
      simp only [RxContext.remove, List.nil_append, List.isEmpty_cons, Bool.false_eq_true, if_false,
        htail, List.getLast?_cons_cons]

/-! ## The loop at the head -/

/-- What a loop that drops nodes at the head leaves behind: it drops a prefix of nodes its condition
held for, stops at a node it does not hold for, reports each dropped node with the cause, and keeps
everything else. -/
structure Dropped (limits : Limits) (cause : Cause) (condition : State → Pending → Bool)
    (state : State) (gone : List Pending) (next : State × List Effect) : Prop where
  queue : state.queue = gone ++ next.1.queue
  effects : next.2 = gone.map fun entry => .drop cause entry.cpu entry.sample
  shape : Shape limits next.1
  tail : next.1.tail = next.1.queue.getLast?
  frame : frame next.1 = frame state
  replayed : next.1.replayed = state.replayed
  tally : ∀ other, next.1.tally other =
    state.tally other + if cause = other then UInt64.ofNat gone.length else 0
  held : ∀ entry ∈ gone, ∃ current, RxContext.frame current = RxContext.frame state ∧
    condition current entry = true
  stopped : ∀ entry rest, next.1.queue = entry :: rest → condition next.1 entry = false

/-- The head loop drops the prefix on which its condition held. -/
theorem drop_loop_dropped (cause : Cause) (condition : State → Pending → Bool)
    (queue : List Pending) (state : State) (hqueue : state.queue = queue)
    (hshape : Shape limits state) (htail : state.tail = queue.getLast?) :
    ∃ gone, Dropped limits cause condition state gone
      (dropLoop limits cause condition queue state) := by
  induction queue generalizing state with
  | nil =>
      refine ⟨[], by simp [dropLoop, hqueue], rfl, hshape, ?_, rfl, rfl, ?_, ?_, ?_⟩
      · simp [dropLoop, hqueue, htail]
      · simp [dropLoop]
      · simp
      · simp [dropLoop, hqueue]
  | cons entry rest ih =>
      simp only [dropLoop]
      split
      case isTrue hcondition =>
        have hremoved := (@Shape.remove limits state [] rest entry hshape hqueue).bump cause
        obtain ⟨gone, hgone⟩ := ih ((remove limits state [] entry rest).bump cause) (by simp)
          hremoved (by simpa using remove_head_tail htail)
        refine ⟨entry :: gone, ?_, ?_, hgone.shape, hgone.tail, ?_, ?_, ?_, ?_, hgone.stopped⟩
        · simpa [hqueue] using hgone.queue
        · simpa using hgone.effects
        · simpa using hgone.frame
        · simpa [RxContext.remove] using hgone.replayed
        · intro other
          rw [hgone.tally, bump_tally, remove_tally, List.length_cons]
          by_cases hcause : cause = other
          · rw [if_pos hcause, if_pos hcause, if_pos hcause, UInt64.ofNat_add, UInt64.add_assoc,
              UInt64.add_comm 1]
            rfl
          · rw [if_neg hcause, if_neg hcause, if_neg hcause, UInt64.add_zero]
        · intro node hnode
          rcases List.mem_cons.mp hnode with rfl | hnode
          · exact ⟨state, rfl, hcondition⟩
          · simpa using hgone.held node hnode
      case isFalse hcondition =>
        refine ⟨[], by simp, rfl, hshape, by simpa [hqueue] using htail, rfl, rfl, by simp,
          by simp, ?_⟩
        intro node others hnode
        have heq : entry = node := by
          rw [hqueue] at hnode
          exact (List.cons.inj hnode).1
        simpa [heq] using hcondition

/-! ## The release loop -/

/-- What releasing the nodes that match an evidence leaves behind. -/
structure Released (limits : Limits) (evidence : Owner) (kept rest : List Pending) (state : State)
    (next : State × List Effect) : Prop where
  queue : next.1.queue =
    kept ++ rest.filter fun entry => !matchesOwner limits entry.sample.detail evidence
  effects : next.2 = (rest.filter fun entry => matchesOwner limits entry.sample.detail evidence).map
    fun entry => .replay entry.cpu entry.sample evidence
  shape : Shape limits next.1
  tail : next.1.tail = next.1.queue.getLast?
  frame : frame next.1 = frame state
  replayed : next.1.replayed = state.replayed + UInt64.ofNat next.2.length
  tally : ∀ cause, next.1.tally cause = state.tally cause

/-- The release loop removes exactly the matching nodes, in list order, and rebuilds `tail`. The
induction is on the nodes still ahead; the invariant is that `tail` is the last node kept. -/
theorem release_loop_released (evidence : Owner) (rest kept : List Pending) (state : State)
    (hqueue : state.queue = kept ++ rest) (hshape : Shape limits state)
    (htail : state.tail = kept.getLast?) :
    Released limits evidence kept rest state
      (releaseLoop limits evidence kept rest state) := by
  induction rest generalizing kept state with
  | nil =>
      refine ⟨by simpa [releaseLoop] using hqueue, rfl, hshape, ?_, rfl, (UInt64.add_zero _).symm,
        fun _ => rfl⟩
      simpa [releaseLoop, hqueue] using htail
  | cons entry rest ih =>
      simp only [releaseLoop]
      split
      case isTrue hmatch =>
        have hcounted : Shape limits { state with replayed := state.replayed + 1 } :=
          ⟨hshape.count, hshape.bytes, hshape.fault⟩
        have htail' : (remove limits { state with replayed := state.replayed + 1 } kept entry
            rest).tail = kept.getLast? := by
          simp only [RxContext.remove, htail]
          split
          case isTrue hempty =>
            have hkept : kept = [] := by simp_all
            simp [hkept]
          case isFalse => rfl
        have hnext := ih kept (remove limits { state with replayed := state.replayed + 1 } kept
          entry rest) rfl (hcounted.remove hqueue) htail'
        refine ⟨?_, ?_, hnext.shape, hnext.tail, hnext.frame, ?_, ?_⟩
        · simpa [hmatch] using hnext.queue
        · simpa [hmatch] using hnext.effects
        · have hreplayed : _ = state.replayed + 1 + _ := hnext.replayed
          rw [hreplayed, List.length_cons, UInt64.ofNat_add, UInt64.add_assoc, UInt64.add_comm 1]
          rfl
        · intro cause
          rw [hnext.tally]
          cases cause <;> rfl
      case isFalse hmatch =>
        have hnext := ih (kept ++ [entry]) { state with tail := some entry } (by simpa using hqueue)
          ⟨hshape.count, hshape.bytes, hshape.fault⟩ (by simp)
        refine ⟨?_, ?_, hnext.shape, hnext.tail, hnext.frame, hnext.replayed, ?_⟩
        · simpa [hmatch] using hnext.queue
        · simpa [hmatch] using hnext.effects
        · intro cause
          rw [hnext.tally]
          cases cause <;> rfl

/-! ## Insertion -/

theorem linkAfter_append (tail entry : Pending) (queue : List Pending)
    (hlast : queue.getLast? = some tail) (hdistinct : (queue.map Pending.addr).Nodup) :
    linkAfter tail entry queue = queue ++ [entry] := by
  induction queue with
  | nil => simp at hlast
  | cons node rest ih =>
      simp only [List.map_cons, List.nodup_cons] at hdistinct
      cases rest with
      | nil =>
          have heq : node = tail := by simpa using hlast
          simp [linkAfter, heq]
      | cons second rest =>
          have hlast' : (second :: rest).getLast? = some tail := by simpa using hlast
          have hmem : tail ∈ second :: rest := List.mem_of_getLast? hlast'
          have hne : node.addr ≠ tail.addr := by
            intro heq
            exact hdistinct.1 (heq ▸ List.mem_map_of_mem hmem)
          rw [linkAfter, if_neg hne, ih hlast' hdistinct.2]
          rfl

/-- The link search only places the node. -/
theorem insertSorted_perm (entry : Pending) (queue : List Pending) :
    (insertSorted entry queue).Perm (entry :: queue) := by
  induction queue with
  | nil => exact .refl _
  | cons node rest ih =>
      rw [insertSorted]
      split
      · exact (ih.cons node).trans (.swap entry node rest)
      · exact .refl _

/-- The link search keeps a list sorted. -/
theorem insertSorted_sorted (entry : Pending) (queue : List Pending)
    (h : queue.Pairwise fun a b => a.ts ≤ b.ts) :
    (insertSorted entry queue).Pairwise fun a b => a.ts ≤ b.ts := by
  induction queue with
  | nil => simp [insertSorted]
  | cons node rest ih =>
      obtain ⟨hnode, hrest⟩ := List.pairwise_cons.mp h
      rw [insertSorted]
      split
      case isTrue hle =>
        refine List.pairwise_cons.mpr ⟨?_, ih hrest⟩
        intro other hother
        rcases List.mem_cons.mp ((insertSorted_perm entry rest).mem_iff.mp hother) with rfl | hmem
        · exact hle
        · exact hnode other hmem
      case isFalse hlt =>
        have hle : entry.ts ≤ node.ts := UInt64.le_of_lt (UInt64.not_le.mp hlt)
        refine List.pairwise_cons.mpr ⟨?_, h⟩
        intro other hother
        rcases List.mem_cons.mp hother with rfl | hmem
        · exact hle
        · exact UInt64.le_trans hle (hnode other hmem)

/-- A node with a later time than the inserted one stays last. -/
theorem insertSorted_getLast (entry tail : Pending) (queue : List Pending)
    (hlast : queue.getLast? = some tail) (hlt : ¬ tail.ts ≤ entry.ts) :
    (insertSorted entry queue).getLast? = some tail := by
  induction queue with
  | nil => simp at hlast
  | cons node rest ih =>
      rw [insertSorted]
      split
      case isTrue hle =>
        cases rest with
        | nil =>
            have heq : node = tail := by simpa using hlast
            exact absurd (heq ▸ hle) hlt
        | cons second rest =>
            have hrec := ih (by simpa using hlast)
            rw [List.getLast?_cons, hrec]
            rfl
      case isFalse =>
        rw [List.getLast?_cons, hlast]
        rfl

end Anettrace.RxContext
