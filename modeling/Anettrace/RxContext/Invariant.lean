import Anettrace.Library.Run
import Anettrace.RxContext.Queue

/-!
# What every call preserves

`Listed` is the invariant of the pending list, and `Inv` adds that no queued record is older than
the window. `Accounts` says where the records of one call went. Each operation satisfies both, and
`feed` composes them.
-/

namespace Anettrace.RxContext

open Library.Run

variable {limits : Limits}

/-! ## Times -/

theorem stale_iff {watermark ts : UInt64} :
    stale limits watermark ts = true ↔
      ts ≤ watermark ∧ limits.windowNs < watermark.toNat - ts.toNat := by
  simp only [stale, Bool.and_eq_true, decide_eq_true_eq, ge_iff_le, gt_iff_lt]
  refine and_congr_right fun hle => ?_
  rw [UInt64.toNat_sub_of_le _ _ hle]

theorem matchesOwner_iff {detail : DetailEvent} {owner : Owner} :
    matchesOwner limits detail owner = true ↔
      owner.key = detail.key ∧ owner.generation = detail.keyGeneration ∧
        detail.ts ≤ owner.timestamp ∧
        owner.timestamp.toNat ≤ detail.ts.toNat + limits.windowNs := by
  simp only [matchesOwner, Bool.and_eq_true, decide_eq_true_eq, beq_iff_eq, ge_iff_le, and_assoc]
  refine and_congr_right fun _ => and_congr_right fun _ => and_congr_right fun hle => ?_
  rw [UInt64.toNat_sub_of_le _ _ hle]
  omega

/-! ## The invariant -/

/-- The list is sorted, `tail` and the bookkeeping describe it, its nodes are distinct allocations,
and it respects the limits. -/
structure Listed (limits : Limits) (state : State) : Prop where
  shape : Shape limits state
  tail : state.tail = state.queue.getLast?
  sorted : state.queue.Pairwise fun a b => a.ts ≤ b.ts
  distinct : (state.queue.map Pending.addr).Nodup
  fresh : ∀ entry ∈ state.queue, entry.addr < state.allocated
  count_le : state.count ≤ limits.maxEvents
  bytes_le : state.bytes + limits.ownersSize ≤ limits.maxBytes
  seen : ∀ entry ∈ state.queue, entry.ts ≤ state.watermark

/-- No queued record is older than the window. -/
structure Inv (limits : Limits) (state : State) : Prop extends Listed limits state where
  recent : ∀ entry ∈ state.queue,
    state.watermark.toNat ≤ entry.ts.toNat + limits.windowNs

theorem inv_init : Inv limits State.init where
  shape := ⟨rfl, rfl, rfl⟩
  tail := rfl
  sorted := .nil
  distinct := .nil
  fresh := by simp [State.init]
  count_le := Nat.zero_le _
  bytes_le := by simpa [State.init, Limits.ownersSize] using limits.owners_fit
  seen := by simp [State.init]
  recent := by simp [State.init]

/-- Fewer nodes occupy fewer bytes. -/
theorem allocated_sublist {first second : List Pending} (h : first.Sublist second) :
    allocated limits first ≤ allocated limits second := by
  induction h with
  | slnil => exact Nat.le_refl _
  | cons entry _ ih =>
      rw [allocated_cons]
      omega
  | cons_cons entry _ ih =>
      rw [allocated_cons, allocated_cons]
      omega

/-- Losing nodes keeps the list invariant. -/
theorem Listed.sublist {state next : State} (h : Listed limits state)
    (hqueue : next.queue.Sublist state.queue) (hshape : Shape limits next)
    (htail : next.tail = next.queue.getLast?) (hwatermark : next.watermark = state.watermark)
    (hallocated : next.allocated = state.allocated) : Listed limits next := by
  have hbytes := @allocated_sublist limits _ _ hqueue
  have hlength := hqueue.length_le
  have hcount := h.count_le
  rw [h.shape.count] at hcount
  refine ⟨hshape, htail, h.sorted.sublist hqueue, h.distinct.sublist (hqueue.map _), ?_, ?_, ?_, ?_⟩
  · intro entry hentry
    rw [hallocated]
    exact h.fresh entry (hqueue.subset hentry)
  · rw [hshape.count]
    omega
  · have hle := h.bytes_le
    rw [h.shape.bytes] at hle
    rw [hshape.bytes]
    omega
  · intro entry hentry
    rw [hwatermark]
    exact h.seen entry (hqueue.subset hentry)

/-- A loop at the head keeps the list invariant. -/
theorem Listed.dropped {cause : Cause} {condition : State → Pending → Bool} {state : State}
    {gone : List Pending} {next : State × List Effect} (h : Listed limits state)
    (hdropped : Dropped limits cause condition state gone next) : Listed limits next.1 := by
  have hframe := hdropped.frame
  simp only [frame, Prod.mk.injEq] at hframe
  refine h.sublist ?_ hdropped.shape hdropped.tail hframe.2.1 hframe.2.2
  rw [hdropped.queue]
  exact List.sublist_append_right _ _

/-! ## Where the records go -/

/-- The pending record whose fate an effect settles. -/
def Effect.fate : Effect → Option (Int × Sample)
  | .pass .. => none
  | .replay cpu sample _ => some (cpu, sample)
  | .drop _ cpu sample => some (cpu, sample)

def Effect.passed : Effect → Option (Int × Sample)
  | .pass cpu sample => some (cpu, sample)
  | _ => none

/-- The effect emits a pending record with an owner. -/
def Effect.isReplay : Effect → Bool
  | .replay .. => true
  | _ => false

def Effect.isDrop (cause : Cause) : Effect → Bool
  | .drop other .. => cause == other
  | _ => false

/-- The records of a call and of the list before it are the settled ones and the list after it, and
the counters count the effects. -/
structure Accounts (state : State) (pending passed : List (Int × Sample))
    (next : State × List Effect) : Prop where
  conserve : (state.queue.map Pending.held ++ pending).Perm
    (next.2.filterMap Effect.fate ++ next.1.queue.map Pending.held)
  passed : next.2.filterMap Effect.passed = passed
  replayed : next.1.replayed = state.replayed + UInt64.ofNat (next.2.countP Effect.isReplay)
  tally : ∀ cause,
    next.1.tally cause = state.tally cause + UInt64.ofNat (next.2.countP (Effect.isDrop cause))

/-- The accounts of two operations in sequence. -/
theorem Accounts.append {state : State} {pending pending' passed passed' : List (Int × Sample)}
    {first next : State × List Effect} (hfirst : Accounts state pending passed first)
    (hnext : Accounts first.1 pending' passed' next) :
    Accounts state (pending ++ pending') (passed ++ passed') (next.1, first.2 ++ next.2) where
  conserve := by
    have h := hfirst.conserve.append_right pending'
    rw [List.append_assoc, List.append_assoc] at h
    refine h.trans ?_
    rw [List.filterMap_append, List.append_assoc]
    exact hnext.conserve.append_left _
  passed := by rw [List.filterMap_append, hfirst.passed, hnext.passed]
  replayed := by
    rw [hnext.replayed, hfirst.replayed, List.countP_append, UInt64.ofNat_add, UInt64.add_assoc]
  tally := by
    intro cause
    rw [hnext.tally, hfirst.tally, List.countP_append, UInt64.ofNat_add, UInt64.add_assoc]

theorem Accounts.dropped {cause : Cause} {condition : State → Pending → Bool} {state : State}
    {gone : List Pending} {next : State × List Effect}
    (h : Dropped limits cause condition state gone next) : Accounts state [] [] next where
  conserve := by
    have hfates : next.2.filterMap Effect.fate = gone.map Pending.held := by
      rw [h.effects, List.filterMap_map]
      simp [Function.comp_def, Effect.fate, Pending.held, List.filterMap_eq_map']
    rw [hfates, h.queue, List.map_append, List.append_nil]
  passed := by simp [h.effects, Function.comp_def, Effect.passed]
  replayed := by simp [h.effects, h.replayed, Function.comp_def, Effect.isReplay]
  tally := by
    intro other
    rw [h.tally, h.effects, List.countP_map]
    by_cases hcause : cause = other
    · simp [hcause, Function.comp_def, Effect.isDrop]
    · have hne : (other == cause) = false := by simpa using fun heq => hcause heq.symm
      simp [hcause, hne, Function.comp_def, Effect.isDrop]

end Anettrace.RxContext
