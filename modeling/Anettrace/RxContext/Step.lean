import Anettrace.RxContext.Invariant

/-!
# One call

`Fed` lists everything `rx_context_feed` can do once it has expired old records. `step_inv` and
`step_accounts` say what one call of the quarantine preserves.
-/

namespace Anettrace.RxContext

variable {limits : Limits}

/-! ## Expiry -/

def raised (state : State) (timestamp : UInt64) : State :=
  if timestamp > state.watermark then { state with watermark := timestamp } else state

theorem raised_queue (state : State) (timestamp : UInt64) :
    (raised state timestamp).queue = state.queue := by
  unfold raised
  split <;> rfl

/-- The watermark reaches the time and does not move backwards. -/
theorem raised_watermark (state : State) (timestamp : UInt64) :
    state.watermark ≤ (raised state timestamp).watermark ∧
      timestamp ≤ (raised state timestamp).watermark ∧
      ((raised state timestamp).watermark = timestamp ∨
        (raised state timestamp).watermark = state.watermark) := by
  unfold raised
  split
  case isTrue hlt => exact ⟨UInt64.le_of_lt hlt, UInt64.le_refl _, Or.inl rfl⟩
  case isFalse hle => exact ⟨UInt64.le_refl _, UInt64.not_lt.mp hle, Or.inr rfl⟩

theorem Listed.raised {state : State} (h : Listed limits state) (timestamp : UInt64) :
    Listed limits (raised state timestamp) := by
  have hle := (raised_watermark state timestamp).1
  have hseen : ∀ entry ∈ state.queue, entry.ts ≤ (RxContext.raised state timestamp).watermark :=
    fun entry hentry => UInt64.le_trans (h.seen entry hentry) hle
  unfold RxContext.raised at *
  split
  case isTrue hlt =>
    rw [if_pos hlt] at hseen
    exact { h with shape := ⟨h.shape.count, h.shape.bytes, h.shape.fault⟩, seen := hseen }
  case isFalse => exact h

/-- What expiry leaves behind: it drops a prefix of records older than the window. -/
structure Expired (limits : Limits) (state : State) (timestamp : UInt64) (gone : List Pending)
    (next : State × List Effect) : Prop where
  dropped : Dropped limits .expired (fun state entry => stale limits state.watermark entry.ts)
    (raised state timestamp) gone next
  old : ∀ entry ∈ gone, stale limits next.1.watermark entry.ts = true
  watermark : next.1.watermark = (raised state timestamp).watermark
  owners : next.1.owners = state.owners

section

variable {state : State} (h : Listed limits state) (timestamp : UInt64)
include h

theorem expire_expired :
    ∃ gone, Expired limits state timestamp gone (expire limits state timestamp) := by
  have hraised := h.raised timestamp
  obtain ⟨gone, hgone⟩ := drop_loop_dropped .expired
    (fun state entry => stale limits state.watermark entry.ts) (raised state timestamp).queue
    (raised state timestamp) rfl hraised.shape hraised.tail
  change Dropped limits .expired _ _ gone (expire limits state timestamp) at hgone
  have hframe := hgone.frame
  simp only [frame, Prod.mk.injEq] at hframe
  refine ⟨gone, hgone, ?_, hframe.2.1, ?_⟩
  · intro entry hentry
    obtain ⟨current, hcurrent, hstale⟩ := hgone.held entry hentry
    simp only [frame, Prod.mk.injEq] at hcurrent
    rw [hframe.2.1, ← hcurrent.2.1]
    exact hstale
  · have howners : (raised state timestamp).owners = state.owners := by
      unfold raised
      split <;> rfl
    exact hframe.1.trans howners

/-- Expiry keeps the list invariant and leaves no record older than the window: the head survives
its test, and the list is sorted. -/
theorem expire_inv :
    Inv limits (expire limits state timestamp).1 := by
  obtain ⟨gone, hexpired⟩ := expire_expired h timestamp
  have hlisted := (h.raised timestamp).dropped hexpired.dropped
  refine { hlisted with recent := ?_ }
  intro entry hentry
  cases hqueue : (expire limits state timestamp).1.queue with
  | nil =>
      rw [hqueue] at hentry
      exact absurd hentry List.not_mem_nil
  | cons head rest =>
      have hhead := hexpired.dropped.stopped head rest hqueue
      have hsorted := hlisted.sorted
      have hle : head.ts ≤ entry.ts := by
        rw [hqueue] at hentry hsorted
        rcases List.mem_cons.mp hentry with rfl | hmem
        · exact UInt64.le_refl _
        · exact (List.pairwise_cons.mp hsorted).1 entry hmem
      have hseen : head.ts ≤ (expire limits state timestamp).1.watermark :=
        hlisted.seen head (hqueue ▸ List.mem_cons_self)
      have hrecent : ¬ (head.ts ≤ (expire limits state timestamp).1.watermark ∧ limits.windowNs <
          (expire limits state timestamp).1.watermark.toNat - head.ts.toNat) := by
        rw [← stale_iff, hhead]
        exact Bool.false_ne_true
      have hle' := UInt64.le_iff_toNat_le.mp hle
      have hseen' := UInt64.le_iff_toNat_le.mp hseen
      have hbound : ¬ limits.windowNs <
          (expire limits state timestamp).1.watermark.toNat - head.ts.toNat :=
        fun hlt => hrecent ⟨hseen, hlt⟩
      omega

theorem expire_accounts :
    Accounts state [] [] (expire limits state timestamp) := by
  obtain ⟨gone, hexpired⟩ := expire_expired h timestamp
  have haccounts := Accounts.dropped hexpired.dropped
  unfold raised at haccounts
  split at haccounts
  · exact ⟨haccounts.conserve, haccounts.passed, haccounts.replayed, fun cause => by
      rw [haccounts.tally]
      cases cause <;> rfl⟩
  · exact haccounts

end

/-! ## What a record does -/

/-- Everything `rx_context_feed` can do with a record of sufficient size, from the state expiry
leaves. -/
inductive Fed (limits : Limits) (state : State) (cpu : Int) (sample : Sample) :
    State × List Effect → Prop where
  /-- Not a packet instance received, and pending. -/
  | unresolved (hpending : sample.detail.ownerPending ≠ 0) :
      Fed limits state cpu sample (state.bump .unresolved, [.drop .unresolved cpu sample])
  /-- A record that waits for nothing and proves nothing. -/
  | passed (howned : sample.detail.ownerPending = 0)
      (hindirect : (isInstance sample.detail && isDirect sample.detail) = false) :
      Fed limits state cpu sample (state, [.pass cpu sample])
  /-- Direct evidence, stored or not in its slot. -/
  | evidence (howned : sample.detail.ownerPending = 0) (hinstance : isInstance sample.detail = true)
      (hdirect : isDirect sample.detail = true) (owners : Nat → Owner)
      (howners : owners = state.owners ∨ owners = Function.update state.owners
        (slotOf limits sample.detail) (evidenceOf sample.detail))
      (next : State × List Effect)
      (hnext : next = releaseLoop limits (evidenceOf sample.detail) [] state.queue
        { state with owners := owners, tail := none }) :
      Fed limits state cpu sample (next.1, next.2 ++ [.pass cpu sample])
  /-- Pending, and refused: too old, too long or no memory. -/
  | refused (hpending : sample.detail.ownerPending ≠ 0)
      (hinstance : isInstance sample.detail = true)
      (cause : Cause) (hcause : cause ≠ .unresolved) :
      Fed limits state cpu sample (state.bump cause, [.drop cause cpu sample])
  /-- Pending, and its slot holds the evidence it needs. -/
  | matched (hpending : sample.detail.ownerPending ≠ 0)
      (hinstance : isInstance sample.detail = true)
      (hmatch : matchesOwner limits sample.detail (state.owners (slotOf limits sample.detail)) =
        true) :
      Fed limits state cpu sample
        ({ state with allocated := state.allocated + 1, replayed := state.replayed + 1 },
          [.replay cpu sample (state.owners (slotOf limits sample.detail))])
  /-- Pending, and queued after making room. -/
  | queued (hpending : sample.detail.ownerPending ≠ 0) (hinstance : isInstance sample.detail = true)
      (hrecent : (state.watermark - sample.detail.ts).toNat ≤ limits.windowNs)
      (hroom : allocation limits sample + limits.ownersSize ≤ limits.maxBytes)
      (next : State × List Effect)
      (hnext : next = evict limits { state with allocated := state.allocated + 1 }
        (allocation limits sample)) :
      Fed limits state cpu sample (insert limits next.1 ⟨state.allocated, cpu, sample⟩, next.2)

/-- A record of sufficient size expires old records and then does one of these things. -/
theorem feed_fed (state : State) (cpu : Int) (sample : Sample) (memory : Bool)
    (hsize : limits.detailSize ≤ sample.size.toNat) :
    ∃ next, Fed limits (expire limits state sample.detail.ts).1 cpu sample next ∧
      feed limits state cpu sample memory =
        (next.1, (expire limits state sample.detail.ts).2 ++ next.2) := by
  rw [feed, if_neg (Nat.not_lt.mpr hsize)]
  refine ⟨_, ?_, rfl⟩
  generalize (expire limits state sample.detail.ts).1 = first
  by_cases hinstance : isInstance sample.detail = true
  case neg =>
    have hnot : (!isInstance sample.detail) = true := by simpa using hinstance
    simp only [hnot, if_true]
    split
    case isTrue hpending => exact .unresolved hpending
    case isFalse howned =>
      refine .passed (not_not.mp howned) ?_
      simp [hinstance]
  case pos =>
    simp only [hinstance, Bool.not_true, Bool.false_eq_true, if_false]
    split
    case isTrue howned =>
      unfold feedOwned
      by_cases hdirect : isDirect sample.detail = true
      case neg =>
        simp only [hdirect]
        exact .passed howned (by simp [hdirect])
      case pos =>
        simp only [hdirect, if_true]
        split
        · exact .evidence howned hinstance hdirect _ (Or.inr rfl) _ rfl
        · exact .evidence howned hinstance hdirect _ (Or.inl rfl) _ rfl
    case isFalse hpending =>
      unfold feedPending
      dsimp only
      split
      · exact .refused hpending hinstance .expired (by decide)
      split
      · exact .refused hpending hinstance .capacityDropped (by decide)
      split
      · exact .matched hpending hinstance ‹_›
      · rename_i hrecent hroom _
        refine .queued hpending hinstance (Nat.not_lt.mp hrecent) ?_ _ rfl
        exact Nat.not_lt.mp fun hlt => hroom (Or.inl hlt)

/-! ## Making room and queueing -/

/-- Eviction drops a prefix, makes room for the record, and never follows a null head: an empty list
is not over capacity. -/
theorem evict_dropped {state : State} {size : Nat} (h : Listed limits state)
    (hroom : size + limits.ownersSize ≤ limits.maxBytes) :
    (∃ gone, Dropped limits .capacityDropped (fun state _ => overCapacity limits state size) state
      gone (evict limits state size)) ∧ overCapacity limits (evict limits state size).1
        size = false := by
  obtain ⟨gone, hgone⟩ := drop_loop_dropped .capacityDropped
    (fun state _ => overCapacity limits state size) state.queue state rfl h.shape h.tail
  unfold evict
  generalize dropLoop limits .capacityDropped (fun state _ => overCapacity limits state size)
    state.queue state = next at hgone ⊢
  have hroomy : overCapacity limits next.1 size = false := by
    cases hqueue : next.1.queue with
    | nil =>
        have hcount := hgone.shape.count
        have hbytes := hgone.shape.bytes
        rw [hqueue] at hcount hbytes
        simp only [List.length_nil, allocated_nil] at hcount hbytes
        have hpos := limits.maxEvents_pos
        simp only [overCapacity, hcount, hbytes, Bool.or_eq_false_iff, decide_eq_false_iff_not]
        omega
    | cons entry rest => exact hgone.stopped entry rest hqueue
  have hfault : (next.1.fault || (next.1.queue.isEmpty && overCapacity limits next.1 size)) =
      next.1.fault := by
    rw [hroomy, Bool.and_false, Bool.or_false]
  simp only [hfault]
  exact ⟨⟨gone, hgone⟩, hroomy⟩

/-- Every node of a sorted list is at most as late as its last node. -/
theorem le_getLast {queue : List Pending} {last : Pending}
    (hsorted : queue.Pairwise fun a b => a.ts ≤ b.ts) (hlast : queue.getLast? = some last) :
    ∀ entry ∈ queue, entry.ts ≤ last.ts := by
  obtain ⟨front, rfl⟩ := List.getLast?_eq_some_iff.mp hlast
  intro entry hentry
  rcases List.mem_append.mp hentry with hfront | hmem
  · exact (List.pairwise_append.mp hsorted).2.2 entry hfront last (List.mem_singleton.mpr rfl)
  · rw [List.mem_singleton.mp hmem]
    exact UInt64.le_refl _

/-- The list an insertion produces: the old nodes and the new one, sorted, with `tail` last. -/
structure Inserted (state : State) (entry : Pending) (next : State) : Prop where
  perm : next.queue.Perm (entry :: state.queue)
  sorted : next.queue.Pairwise fun a b => a.ts ≤ b.ts
  tail : next.tail = next.queue.getLast?
  frame : frame next = frame state
  replayed : next.replayed = state.replayed
  tally : ∀ cause, next.tally cause = state.tally cause

section

variable {state : State} (h : Listed limits state) (entry : Pending)
include h

theorem insert_inserted :
    Inserted state entry (insert limits state entry) := by
  have hcounters : ∀ cause, (insert limits state entry).tally cause = state.tally cause := by
    intro cause
    unfold insert
    cases state.tail with
    | none => cases cause <;> rfl
    | some tail =>
        dsimp only
        split <;> cases cause <;> rfl
  unfold insert at hcounters ⊢
  cases htail : state.tail with
  | none =>
      have hqueue : state.queue = [] := by
        rw [h.tail] at htail
        exact List.getLast?_eq_none_iff.mp htail
      rw [htail] at hcounters
      refine ⟨?_, ?_, rfl, rfl, rfl, hcounters⟩
      · simp [hqueue]
      · exact List.pairwise_singleton _ _
  | some tail =>
      have hlast : state.queue.getLast? = some tail := by rw [← h.tail, htail]
      rw [htail] at hcounters
      dsimp only at hcounters ⊢
      split
      case isTrue hle =>
        rw [if_pos hle] at hcounters
        have hlink := linkAfter_append tail entry state.queue hlast h.distinct
        refine ⟨?_, ?_, ?_, rfl, rfl, hcounters⟩
        · show (linkAfter tail entry state.queue).Perm _
          rw [hlink]
          exact List.perm_append_singleton entry state.queue
        · show (linkAfter tail entry state.queue).Pairwise _
          rw [hlink]
          refine List.pairwise_append.mpr ⟨h.sorted, List.pairwise_singleton _ _, ?_⟩
          intro node hnode other hother
          rw [List.mem_singleton.mp hother]
          exact UInt64.le_trans (le_getLast h.sorted hlast node hnode) hle
        · show some entry = (linkAfter tail entry state.queue).getLast?
          rw [hlink, List.getLast?_concat]
      case isFalse hlt =>
        rw [if_neg hlt] at hcounters
        refine ⟨insertSorted_perm entry state.queue, insertSorted_sorted entry state.queue h.sorted,
          ?_, rfl, rfl, hcounters⟩
        rw [insertSorted_getLast entry tail state.queue hlast hlt]

theorem insert_shape :
    Shape limits (insert limits state entry) := by
  have hperm := (insert_inserted h entry).perm
  have hcount : (insert limits state entry).count = state.count + 1 := by
    unfold insert
    cases state.tail with
    | none => rfl
    | some tail =>
        dsimp only
        split <;> rfl
  have hbytes : (insert limits state entry).bytes =
      state.bytes + allocation limits entry.sample := by
    unfold insert
    cases state.tail with
    | none => rfl
    | some tail =>
        dsimp only
        split <;> rfl
  refine ⟨?_, ?_, ?_⟩
  · rw [hcount, hperm.length_eq, List.length_cons, h.shape.count]
  · rw [hbytes, allocated_perm hperm, allocated_cons, h.shape.bytes, Nat.add_comm]
  · unfold insert
    cases state.tail with
    | none => exact h.shape.fault
    | some tail =>
        dsimp only
        split <;> exact h.shape.fault

/-- Queueing a fresh node that fits keeps the list invariant. -/
theorem insert_listed (haddr : ∀ node ∈ state.queue, node.addr < entry.addr)
    (hfresh : entry.addr < state.allocated)
    (hroomy : overCapacity limits state (allocation limits entry.sample) = false)
    (hseen : entry.ts ≤ state.watermark) : Listed limits (insert limits state entry) := by
  have hinserted := insert_inserted h entry
  have hshape := insert_shape h entry
  have hperm := hinserted.perm
  have hframe := hinserted.frame
  simp only [frame, Prod.mk.injEq] at hframe
  simp only [overCapacity, Bool.or_eq_false_iff, decide_eq_false_iff_not] at hroomy
  refine ⟨hshape, hinserted.tail, hinserted.sorted, ?_, ?_, ?_, ?_, ?_⟩
  · have hnodup : ((entry :: state.queue).map Pending.addr).Nodup := by
      refine List.nodup_cons.mpr ⟨?_, h.distinct⟩
      intro hmem
      obtain ⟨node, hnode, heq⟩ := List.mem_map.mp hmem
      have hlt := haddr node hnode
      omega
    exact (hperm.map Pending.addr).nodup_iff.mpr hnodup
  · intro node hnode
    rw [hframe.2.2]
    rcases List.mem_cons.mp (hperm.mem_iff.mp hnode) with rfl | hmem
    · exact hfresh
    · exact h.fresh node hmem
  · rw [hshape.count, hperm.length_eq, List.length_cons, ← h.shape.count]
    omega
  · rw [hshape.bytes, allocated_perm hperm, allocated_cons, ← h.shape.bytes]
    omega
  · intro node hnode
    rw [hframe.2.1]
    rcases List.mem_cons.mp (hperm.mem_iff.mp hnode) with rfl | hmem
    · exact hseen
    · exact h.seen node hmem

end

end Anettrace.RxContext
