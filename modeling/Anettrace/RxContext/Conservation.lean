import Anettrace.RxContext.Step

/-!
# Conservation and bounds of the quarantine

Every pending record has one fate, every other record passes through, and the list stays within its
limits, over every sequence of calls. `quarantine_conserved` collects these facts, with the release
of every matching record when direct evidence arrives.
-/

namespace Anettrace.RxContext

open Library.Run

variable {limits : Limits}

def Call.pending (limits : Limits) : Call → List (Int × Sample)
  | .feed cpu sample _ =>
      if limits.detailSize ≤ sample.size.toNat ∧ sample.detail.ownerPending ≠ 0 then [(cpu, sample)]
      else []
  | _ => []

def Call.owned (limits : Limits) : Call → List (Int × Sample)
  | .feed cpu sample _ =>
      if limits.detailSize ≤ sample.size.toNat ∧ sample.detail.ownerPending = 0 then [(cpu, sample)]
      else []
  | _ => []

/-! ## The invariant over one call -/

/-- Losing nodes keeps the invariant. -/
theorem Inv.sublist {state next : State} (h : Inv limits state)
    (hqueue : next.queue.Sublist state.queue) (hshape : Shape limits next)
    (htail : next.tail = next.queue.getLast?) (hwatermark : next.watermark = state.watermark)
    (hallocated : next.allocated = state.allocated) : Inv limits next := by
  refine { h.toListed.sublist hqueue hshape htail hwatermark hallocated with recent := ?_ }
  intro entry hentry
  rw [hwatermark]
  exact h.recent entry (hqueue.subset hentry)

theorem Inv.bump {state : State} (h : Inv limits state) (cause : Cause) :
    Inv limits (state.bump cause) := by
  refine h.sublist ?_ (h.shape.bump cause) ?_ ?_ ?_
  · rw [bump_queue]
  · rw [bump_tail, bump_queue]
    exact h.tail
  · cases cause <;> rfl
  · cases cause <;> rfl

theorem Listed.allocate {state : State} (h : Listed limits state) :
    Listed limits { state with allocated := state.allocated + 1 } :=
  { h with
    shape := ⟨h.shape.count, h.shape.bytes, h.shape.fault⟩
    fresh := fun entry hentry => Nat.lt_succ_of_lt (h.fresh entry hentry) }

theorem evidence_released {state : State} (h : Inv limits state) (evidence : Owner)
    (owners : Nat → Owner) :
    Released limits evidence [] state.queue { state with owners := owners, tail := none }
      (releaseLoop limits evidence [] state.queue { state with owners := owners, tail := none }) :=
  release_loop_released evidence state.queue [] { state with owners := owners, tail := none } rfl
    ⟨h.shape.count, h.shape.bytes, h.shape.fault⟩ rfl

section

variable {state : State} {cpu : Int} {sample : Sample} {next : State × List Effect}
  (hfed : Fed limits state cpu sample next) (h : Inv limits state)
include hfed h

/-- A record keeps the invariant. -/
theorem Fed.inv (hts : sample.detail.ts ≤ state.watermark) : Inv limits next.1 := by
  cases hfed with
  | unresolved => exact h.bump .unresolved
  | passed => exact h
  | evidence _ _ _ owners _ next hnext =>
      have hreleased := evidence_released h (evidenceOf sample.detail) owners
      rw [← hnext] at hreleased
      have hframe := hreleased.frame
      simp only [frame, Prod.mk.injEq] at hframe
      refine h.sublist ?_ hreleased.shape hreleased.tail hframe.2.1 hframe.2.2
      rw [hreleased.queue, List.nil_append]
      exact List.filter_sublist
  | refused _ _ cause => exact h.bump cause
  | matched =>
      have hallocated := h.toListed.allocate
      exact { h with
        shape := ⟨h.shape.count, h.shape.bytes, h.shape.fault⟩
        fresh := hallocated.fresh }
  | queued _ _ hrecent hroom next hnext =>
      have hallocated := h.toListed.allocate
      obtain ⟨⟨gone, hgone⟩, hroomy⟩ := evict_dropped hallocated hroom
      rw [← hnext] at hgone hroomy
      have hlisted := hallocated.dropped hgone
      have hframe := hgone.frame
      simp only [frame, Prod.mk.injEq] at hframe
      have hsublist : next.1.queue.Sublist state.queue := by
        rw [show state.queue = gone ++ next.1.queue from hgone.queue]
        exact List.sublist_append_right _ _
      have hinserted := insert_inserted hlisted ⟨state.allocated, cpu, sample⟩
      have hlisted' : Listed limits (insert limits next.1 ⟨state.allocated, cpu, sample⟩) := by
        refine insert_listed hlisted _ ?_ ?_ hroomy ?_
        · exact fun node hnode => h.fresh node (hsublist.subset hnode)
        · rw [hframe.2.2]
          exact Nat.lt_succ_self _
        · rw [hframe.2.1]
          exact hts
      refine { hlisted' with recent := ?_ }
      have hframe' := hinserted.frame
      simp only [frame, Prod.mk.injEq] at hframe'
      intro entry hentry
      rw [hframe'.2.1, hframe.2.1]
      rcases List.mem_cons.mp (hinserted.perm.mem_iff.mp hentry) with rfl | hmem
      · rw [UInt64.toNat_sub_of_le _ _ hts] at hrecent
        show state.watermark.toNat ≤ sample.detail.ts.toNat + limits.windowNs
        omega
      · exact h.recent entry (hsublist.subset hmem)

/-- A record does not move the watermark that expiry left. -/
theorem Fed.watermark :
    next.1.watermark = state.watermark := by
  cases hfed with
  | unresolved => rfl
  | passed => rfl
  | evidence _ _ _ owners _ next hnext =>
      have hreleased := evidence_released h (evidenceOf sample.detail) owners
      rw [← hnext] at hreleased
      have hframe := hreleased.frame
      simp only [frame, Prod.mk.injEq] at hframe
      exact hframe.2.1
  | refused _ _ cause => cases cause <;> rfl
  | matched => rfl
  | queued _ _ _ hroom next hnext =>
      have hallocated := h.toListed.allocate
      obtain ⟨⟨gone, hgone⟩, -⟩ := evict_dropped hallocated hroom
      rw [← hnext] at hgone
      have hinserted := insert_inserted (hallocated.dropped hgone) ⟨state.allocated, cpu, sample⟩
      have hdropped := hgone.frame
      have hframe := hinserted.frame
      simp only [frame, Prod.mk.injEq] at hdropped hframe
      exact hframe.2.1.trans hdropped.2.1

end

section

variable {state : State} (h : Inv limits state)
include h

theorem feed_inv (cpu : Int) (sample : Sample) (memory : Bool) :
    Inv limits (feed limits state cpu sample memory).1 := by
  by_cases hsize : limits.detailSize ≤ sample.size.toNat
  case neg =>
    rw [feed, if_pos (Nat.not_le.mp hsize)]
    exact h
  case pos =>
    obtain ⟨next, hfed, hnext⟩ := feed_fed state cpu sample memory hsize
    obtain ⟨gone, hexpired⟩ := expire_expired h.toListed sample.detail.ts
    rw [hnext]
    refine hfed.inv (expire_inv h.toListed _) ?_
    rw [hexpired.watermark]
    exact (raised_watermark state sample.detail.ts).2.1

/-- `rx_context_finish` drops the whole list. -/
theorem finish_dropped :
    ∃ gone next, Dropped limits .unresolved (fun _ _ => true) state gone next ∧
      next.1.queue = [] ∧
      finish limits state = ({ next.1 with owners := fun _ => Owner.zero }, next.2) := by
  obtain ⟨gone, hgone⟩ := drop_loop_dropped .unresolved (fun _ _ => true) state.queue state rfl
    h.shape h.tail
  refine ⟨gone, _, hgone, ?_, rfl⟩
  cases hqueue : (dropLoop limits .unresolved (fun _ _ => true) state.queue state).1.queue with
  | nil => rfl
  | cons entry rest => exact absurd (hgone.stopped entry rest hqueue) (by decide)

theorem finish_inv : Inv limits (finish limits state).1 := by
  obtain ⟨gone, next, hgone, hempty, hfinish⟩ := finish_dropped h
  have hframe := hgone.frame
  simp only [frame, Prod.mk.injEq] at hframe
  rw [hfinish]
  refine h.sublist ?_ ⟨hgone.shape.count, hgone.shape.bytes, hgone.shape.fault⟩ hgone.tail
    hframe.2.1 hframe.2.2
  rw [hempty]
  exact List.nil_sublist _

theorem step_inv (call : Call) :
    Inv limits (step limits state call).1 := by
  cases call with
  | feed cpu sample memory => exact feed_inv h cpu sample memory
  | expire timestamp => exact expire_inv h.toListed timestamp
  | finish => exact finish_inv h

end

/-! ## The accounts of one call -/

/-- The release of the matching nodes, followed by the evidence itself. -/
theorem Accounts.released {state next : State} {effects : List Effect} {evidence : Owner}
    {cpu : Int} {sample : Sample} {start : State} (hreplayed : start.replayed = state.replayed)
    (htally : ∀ cause, start.tally cause = state.tally cause)
    (h : Released limits evidence [] state.queue start (next, effects)) :
    Accounts state [] [(cpu, sample)] (next, effects ++ [.pass cpu sample]) where
  conserve := by
    have hfates : effects.filterMap Effect.fate =
        (state.queue.filter fun entry =>
          matchesOwner limits entry.sample.detail evidence).map Pending.held := by
      rw [show effects = _ from h.effects, List.filterMap_map]
      simp [Function.comp_def, Effect.fate, Pending.held, List.filterMap_eq_map']
    have hrest : next.queue = state.queue.filter fun entry =>
        !matchesOwner limits entry.sample.detail evidence := h.queue
    rw [List.filterMap_append, hfates, hrest, List.append_nil]
    simp only [List.filterMap_cons, Effect.fate, List.filterMap_nil, List.append_nil]
    rw [← List.map_append]
    exact (List.filter_append_perm _ state.queue).symm.map _
  passed := by
    rw [List.filterMap_append, show effects = _ from h.effects, List.filterMap_map]
    simp [Function.comp_def, Effect.passed]
  replayed := by
    have hcount : effects.countP Effect.isReplay = effects.length := by
      rw [show effects = _ from h.effects]
      simp [Effect.isReplay]
    rw [List.countP_append, hcount, show next.replayed = _ from h.replayed, hreplayed]
    simp [Effect.isReplay]
  tally := by
    intro cause
    rw [List.countP_append, show effects = _ from h.effects,
      show next.tally cause = _ from h.tally cause, htally]
    simp [List.countP_map, Function.comp_def, Effect.isDrop]

/-- A discarded record is settled by its counter. -/
theorem Accounts.bump (state : State) (cause : Cause) (cpu : Int) (sample : Sample) :
    Accounts state [(cpu, sample)] [] (state.bump cause, [.drop cause cpu sample]) where
  conserve := by
    rw [bump_queue]
    exact List.perm_append_comm
  passed := rfl
  replayed := by simp [Effect.isReplay]
  tally := by
    intro other
    rw [bump_tally]
    cases cause <;> cases other <;> rfl

/-- The pending and the passing records of a record of sufficient size. -/
theorem Fed.accounts {state : State} {cpu : Int} {sample : Sample} {next : State × List Effect}
    (hfed : Fed limits state cpu sample next) (h : Inv limits state) :
    Accounts state (if sample.detail.ownerPending ≠ 0 then [(cpu, sample)] else [])
      (if sample.detail.ownerPending = 0 then [(cpu, sample)] else []) next := by
  cases hfed with
  | unresolved hpending =>
      rw [if_pos hpending, if_neg hpending]
      exact .bump state .unresolved cpu sample
  | passed howned =>
      rw [if_neg (not_not.mpr howned), if_pos howned]
      refine ⟨?_, rfl, (UInt64.add_zero _).symm, fun _ => (UInt64.add_zero _).symm⟩
      rw [List.append_nil]
      exact .refl _
  | evidence howned _ _ owners _ next hnext =>
      rw [if_neg (not_not.mpr howned), if_pos howned]
      have hreleased := evidence_released h (evidenceOf sample.detail) owners
      rw [← hnext] at hreleased
      refine .released ?_ ?_ hreleased
      · rfl
      · intro cause
        cases cause <;> rfl
  | refused hpending _ cause =>
      rw [if_pos hpending, if_neg hpending]
      exact .bump state cause cpu sample
  | matched hpending =>
      rw [if_pos hpending, if_neg hpending]
      refine ⟨?_, rfl, rfl, fun cause => by cases cause <;> exact (UInt64.add_zero _).symm⟩
      exact List.perm_append_comm
  | queued hpending _ _ hroom next hnext =>
      rw [if_pos hpending, if_neg hpending]
      have hallocated := h.toListed.allocate
      obtain ⟨⟨gone, hgone⟩, hroomy⟩ := evict_dropped hallocated hroom
      rw [← hnext] at hgone hroomy
      have hinserted := insert_inserted (hallocated.dropped hgone) ⟨state.allocated, cpu, sample⟩
      have hdropped := Accounts.dropped hgone
      refine ⟨?_, hdropped.passed, ?_, ?_⟩
      · have hqueue := (hinserted.perm.map Pending.held).append_left
          (next.2.filterMap Effect.fate)
        refine List.Perm.trans ?_ hqueue.symm
        have hconserve := hdropped.conserve.append_right [(cpu, sample)]
        rw [List.append_nil, List.append_assoc] at hconserve
        refine hconserve.trans (List.Perm.append_left _ ?_)
        exact List.perm_append_comm
      · exact hinserted.replayed.trans hdropped.replayed
      · intro cause
        rw [hinserted.tally]
        refine (hdropped.tally cause).trans ?_
        cases cause <;> rfl

/-- Every call accounts for the records it takes and the records it held. -/
theorem step_accounts {state : State} (h : Inv limits state) (call : Call) :
    Accounts state (call.pending limits) (call.owned limits) (step limits state call) := by
  cases call with
  | feed cpu sample memory =>
      by_cases hsize : limits.detailSize ≤ sample.size.toNat
      case neg =>
        simp only [step, feed, if_pos (Nat.not_le.mp hsize), Call.pending, Call.owned, hsize,
          false_and, if_false]
        exact ⟨by simp, rfl, (UInt64.add_zero _).symm, fun _ => (UInt64.add_zero _).symm⟩
      case pos =>
        obtain ⟨next, hfed, hnext⟩ := feed_fed state cpu sample memory hsize
        simp only [step, hnext, Call.pending, Call.owned, hsize, true_and]
        exact (expire_accounts h.toListed sample.detail.ts).append
          (hfed.accounts (expire_inv h.toListed sample.detail.ts))
  | expire timestamp => exact expire_accounts h.toListed timestamp
  | finish =>
      obtain ⟨gone, next, hgone, _, hfinish⟩ := finish_dropped h
      have hdropped := Accounts.dropped hgone
      simp only [step, hfinish]
      exact ⟨hdropped.conserve, hdropped.passed, hdropped.replayed, fun cause => by
        refine Eq.trans ?_ (hdropped.tally cause)
        cases cause <;> rfl⟩

/-! ## Direct evidence -/

def matching (limits : Limits) (queue : List Pending) (evidence : Owner) : List Pending :=
  queue.filter fun entry => matchesOwner limits entry.sample.detail evidence

/-- Expiry at the time of an evidence removes no record that the evidence matches: a record that old
is outside the window of the evidence, or was already too old for the watermark before. -/
theorem expired_not_matching {state : State} {evidence : Owner} {gone : List Pending}
    {next : State × List Effect} (h : Inv limits state)
    (hexpired : Expired limits state evidence.timestamp gone next) :
    matching limits next.1.queue evidence = matching limits state.queue evidence := by
  have hqueue : state.queue = gone ++ next.1.queue := by
    rw [← hexpired.dropped.queue, raised_queue]
  have hgone : matching limits gone evidence = [] := by
    refine List.filter_eq_nil_iff.mpr fun entry hentry hmatch => ?_
    obtain ⟨-, -, hle, hbound⟩ := matchesOwner_iff.mp hmatch
    obtain ⟨-, hold⟩ := stale_iff.mp (hexpired.old entry hentry)
    have hrecent := h.recent entry (hqueue ▸ List.mem_append_left _ hentry)
    rw [hexpired.watermark] at hold
    rcases (raised_watermark state evidence.timestamp).2.2 with heq | heq
    · rw [heq] at hold
      simp only [Pending.ts] at hold
      omega
    · rw [heq] at hold
      omega
  rw [hqueue]
  unfold matching at hgone ⊢
  rw [List.filter_append, hgone, List.nil_append]

/-- Direct evidence releases every queued record it matches, in list order and before itself, and
leaves none. -/
theorem feed_evidence {state : State} (h : Inv limits state) (cpu : Int) (sample : Sample)
    (memory : Bool) (hsize : limits.detailSize ≤ sample.size.toNat)
    (howned : sample.detail.ownerPending = 0) (hinstance : isInstance sample.detail = true)
    (hdirect : isDirect sample.detail = true) :
    (∃ gone : List Pending, (feed limits state cpu sample memory).2 =
      gone.map (fun entry => .drop .expired entry.cpu entry.sample) ++
        (matching limits state.queue (evidenceOf sample.detail)).map
          (fun entry => .replay entry.cpu entry.sample (evidenceOf sample.detail)) ++
        [.pass cpu sample]) ∧
      ∀ entry ∈ (feed limits state cpu sample memory).1.queue,
        matchesOwner limits entry.sample.detail (evidenceOf sample.detail) = false := by
  obtain ⟨next, hfed, hnext⟩ := feed_fed state cpu sample memory hsize
  obtain ⟨gone, hexpired⟩ := expire_expired h.toListed sample.detail.ts
  have hmatching : matching limits _ (evidenceOf sample.detail) = _ :=
    expired_not_matching h hexpired
  rw [hnext]
  cases hfed with
  | unresolved hpending => exact absurd howned hpending
  | passed _ hindirect => simp [hinstance, hdirect] at hindirect
  | refused hpending => exact absurd howned hpending
  | matched hpending => exact absurd howned hpending
  | queued hpending => exact absurd howned hpending
  | evidence _ _ _ owners _ next hrelease =>
      have hreleased := evidence_released (expire_inv h.toListed sample.detail.ts)
        (evidenceOf sample.detail) owners
      rw [← hrelease] at hreleased
      constructor
      · refine ⟨gone, ?_⟩
        rw [← hexpired.dropped.effects, ← hmatching, hreleased.effects, List.append_assoc]
        rfl
      · intro entry hentry
        rw [hreleased.queue, List.nil_append] at hentry
        simpa using (List.mem_filter.mp hentry).2

/-! ## Every sequence of calls -/

/-- The quarantine reached by a sequence of calls, with what it did on the way. -/
def quarantine (limits : Limits) (calls : List Call) : State × List Effect :=
  run (logged (step limits)) (State.init, []) calls

theorem quarantine_concat (calls : List Call) (call : Call) :
    quarantine limits (calls ++ [call]) =
      logged (step limits) (quarantine limits calls) call :=
  run_concat ..

/-- The invariant holds after every sequence of calls. -/
theorem quarantine_inv (limits : Limits) (calls : List Call) :
    Inv limits (quarantine limits calls).1 :=
  @run_invariant _ _ (logged (step limits)) (State.init, [])
    (fun reached : State × List Effect => Inv limits reached.1) inv_init
    (fun _ call h => step_inv h call) calls

theorem quarantine_accounts (limits : Limits) (calls : List Call) :
    Accounts State.init (calls.flatMap (Call.pending limits)) (calls.flatMap (Call.owned limits))
      (quarantine limits calls) := by
  have hstep : ∀ calls call,
      Accounts State.init (calls.flatMap (Call.pending limits))
        (calls.flatMap (Call.owned limits)) (quarantine limits calls) →
      Accounts State.init ((calls ++ [call]).flatMap (Call.pending limits))
        ((calls ++ [call]).flatMap (Call.owned limits))
        (logged (step limits) (quarantine limits calls) call) := by
    intro calls call h
    rw [List.flatMap_append, List.flatMap_append, List.flatMap_singleton, List.flatMap_singleton]
    exact h.append (step_accounts (quarantine_inv limits calls) call)
  exact @run_history _ _ _ _ (fun calls reached => Accounts State.init
    (calls.flatMap (Call.pending limits)) (calls.flatMap (Call.owned limits)) reached)
    ⟨.refl _, rfl, rfl, fun _ => (UInt64.add_zero _).symm⟩ hstep calls

/-- The watermark never moves backwards. -/
theorem step_watermark {state : State} (h : Inv limits state) (call : Call) :
    state.watermark ≤ (step limits state call).1.watermark := by
  have hexpire : ∀ timestamp, state.watermark ≤ (expire limits state timestamp).1.watermark := by
    intro timestamp
    obtain ⟨gone, hexpired⟩ := expire_expired h.toListed timestamp
    rw [hexpired.watermark]
    exact (raised_watermark state timestamp).1
  cases call with
  | feed cpu sample memory =>
      by_cases hsize : limits.detailSize ≤ sample.size.toNat
      case neg =>
        rw [step, feed, if_pos (Nat.not_le.mp hsize)]
        exact UInt64.le_refl _
      case pos =>
        obtain ⟨next, hfed, hnext⟩ := feed_fed state cpu sample memory hsize
        rw [step, hnext, hfed.watermark (expire_inv h.toListed _)]
        exact hexpire sample.detail.ts
  | expire timestamp => exact hexpire timestamp
  | finish =>
      obtain ⟨gone, next, hgone, _, hfinish⟩ := finish_dropped h
      have hframe := hgone.frame
      simp only [frame, Prod.mk.injEq] at hframe
      rw [step, hfinish]
      exact UInt64.le_of_eq hframe.2.1.symm

/-- Where every record went, and the bounds of the list. -/
structure Conserved (limits : Limits) (calls : List Call) (reached : State × List Effect) :
    Prop where
  /-- A pending record was emitted with an owner, was counted by a cause, or is queued. -/
  fates : (calls.flatMap (Call.pending limits)).Perm
    (reached.2.filterMap Effect.fate ++ reached.1.queue.map Pending.held)
  /-- Every other record was emitted once, unmodified and in order. -/
  passed : reached.2.filterMap Effect.passed = calls.flatMap (Call.owned limits)
  replayed : reached.1.replayed = UInt64.ofNat (reached.2.countP Effect.isReplay)
  expired : reached.1.expired = UInt64.ofNat (reached.2.countP (Effect.isDrop .expired))
  capacityDropped : reached.1.capacityDropped =
    UInt64.ofNat (reached.2.countP (Effect.isDrop .capacityDropped))
  unresolved : reached.1.unresolved = UInt64.ofNat (reached.2.countP (Effect.isDrop .unresolved))
  sorted : reached.1.queue.Pairwise fun a b => a.ts ≤ b.ts
  tail : reached.1.tail = reached.1.queue.getLast?
  count : reached.1.count = reached.1.queue.length
  count_le : reached.1.count ≤ limits.maxEvents
  bytes : reached.1.bytes = allocated limits reached.1.queue
  bytes_le : reached.1.bytes + limits.ownersSize ≤ limits.maxBytes
  /-- Eviction never followed a null head. -/
  fault : reached.1.fault = false

/-- Over every sequence of calls records are conserved and the list stays within its bounds; the
next call does not move the watermark back; direct evidence releases every queued record it matches,
in time order and before itself; and finishing empties the list. -/
theorem quarantine_conserved (limits : Limits) (calls : List Call) :
    Conserved limits calls (quarantine limits calls) ∧
      (∀ more, (quarantine limits calls).1.watermark ≤
        (quarantine limits (calls ++ more)).1.watermark) ∧
      (∀ cpu sample memory, limits.detailSize ≤ sample.size.toNat →
        sample.detail.ownerPending = 0 → isInstance sample.detail = true →
        isDirect sample.detail = true →
        (∃ gone : List Pending, (feed limits (quarantine limits calls).1 cpu sample memory).2 =
          gone.map (fun entry => .drop .expired entry.cpu entry.sample) ++
            (matching limits (quarantine limits calls).1.queue (evidenceOf sample.detail)).map
              (fun entry => .replay entry.cpu entry.sample (evidenceOf sample.detail)) ++
            [.pass cpu sample]) ∧
        (matching limits (quarantine limits calls).1.queue (evidenceOf sample.detail)).Pairwise
          (fun a b => a.ts ≤ b.ts) ∧
        ∀ entry ∈ (feed limits (quarantine limits calls).1 cpu sample memory).1.queue,
          matchesOwner limits entry.sample.detail (evidenceOf sample.detail) = false) ∧
      (quarantine limits (calls ++ [.finish])).1.queue = [] := by
  have hinv := quarantine_inv limits calls
  have haccounts := quarantine_accounts limits calls
  have htally : ∀ cause, (quarantine limits calls).1.tally cause =
      UInt64.ofNat ((quarantine limits calls).2.countP (Effect.isDrop cause)) := by
    intro cause
    rw [haccounts.tally]
    cases cause <;> exact UInt64.zero_add _
  refine ⟨?_, ?_, ?_, ?_⟩
  · exact {
      fates := haccounts.conserve
      passed := haccounts.passed
      replayed := haccounts.replayed.trans (UInt64.zero_add _)
      expired := htally .expired
      capacityDropped := htally .capacityDropped
      unresolved := htally .unresolved
      sorted := hinv.sorted
      tail := hinv.tail
      count := hinv.shape.count
      count_le := hinv.count_le
      bytes := hinv.shape.bytes
      bytes_le := hinv.bytes_le
      fault := hinv.shape.fault }
  · intro more
    induction more using List.reverseRecOn with
    | nil =>
        rw [List.append_nil]
        exact UInt64.le_refl _
    | append_singleton more call ih =>
        rw [← List.append_assoc, quarantine_concat]
        exact UInt64.le_trans ih (step_watermark (quarantine_inv limits _) call)
  · intro cpu sample memory hsize howned hinstance hdirect
    obtain ⟨heffects, hrest⟩ := feed_evidence hinv cpu sample memory hsize howned hinstance hdirect
    exact ⟨heffects, hinv.sorted.sublist List.filter_sublist, hrest⟩
  · obtain ⟨_, next, _, hempty, hfinish⟩ := finish_dropped hinv
    rw [quarantine_concat]
    show (finish limits (quarantine limits calls).1).1.queue = []
    rw [hfinish]
    exact hempty

end Anettrace.RxContext
