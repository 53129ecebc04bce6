import Anettrace.Analysis.Contexts

/-!
# Contexts end once

The condition under which one event of the callback keeps the counts, the step for each kind of
event, and what a run then guarantees: counts that say what is held, and contexts that are output
and freed once, when their last clone was freed and their last return came.
-/

namespace Anettrace.Analysis

open Library Library.Run
open Selection (Analyzer Kernel TraceArgs TraceType literal tracePrepare)

variable {config : Config} {state before after : State} {trace : Selection.Trace}
  {event : EntryEvent}
  {entry : PendingEntry} {c f : Nat} {ctx : AnalyCtx} {fake : FakeAnalyCtx}

/-- Whether the callback gets a context for an entry event. -/
def fetches (state : State) (event : EntryEvent) : Bool :=
  event.entryMemory && ((state.find event.key).isSome || (event.ctxMemory && event.fakeMemory))

/-- A trace whose events say that the packet is freed: its analyzer is `free` or `drop`, or
`--trace-free` names it. -/
def frees (trace : Selection.Trace) : Bool :=
  trace.analyzer = .free || trace.analyzer = .drop || trace.cfree

/-- The condition under which an event keeps the counts. The trace of an entry is known; a trace
that frees is handled either by its analyzer, which runs in the modes with contexts only, or by
`--trace-free`, and not by both; and no counter is at its end. -/
def Meets (config : Config) (state : State) : Event → Prop
  | .entry event => fetches state event →
      ∃ trace, config.getTrace event.func = some trace ∧
        (trace.cfree → ¬analyzerFrees config trace event) ∧
        (frees trace → analyzerFrees config trace event ∨ trace.cfree) ∧
        (mounts config trace event → ∀ f fake, state.find event.key = some f →
          state.fakes f = some fake → fake.refs ≠ 0xffff) ∧
        (state.find event.key = none → state.ctxCount ≠ 0xffffffff)
  | .ret event => ∀ entry trace, config.ops = .probe → state.found event = some entry →
      config.getTrace event.func = some trace → clones config trace → config.noclone = false →
      event.val ≠ 0 → event.fakeMemory → ∀ fake ctx, state.fakes entry.fakeCtx = some fake →
        state.ctxs entry.ctx = some ctx → fake.refs = 1 ∨ ctx.refs ≠ 0xffff

/-- A fake context in the hash, or an entry whose return is pending, uses the context. -/
def InUse (state : State) (c : Nat) : Prop :=
  (∃ f ∈ state.hash, Named state f c) ∨ ∃ entry ∈ state.pending, entry.ctx = c

/-- What holds of every state that is reached. -/
structure Sound (state : State) : Prop where
  /-- The references of a context are its fake contexts with references. -/
  ctx_refs : ∀ c ctx, state.ctxs c = some ctx → ctx.refs.toNat = ctx.fakes.countP fun f =>
    (state.fakes f).any fun fake => fake.refs != 0
  ctx_fakes : ∀ c ctx, state.ctxs c = some ctx →
    ctx.fakes.Nodup ∧ ∀ f, f ∈ ctx.fakes ↔ Named state f c
  /-- The references of a fake context are one for the hash and one for each pending return. -/
  fake_refs : ∀ f fake, state.fakes f = some fake → fake.refs.toNat =
    (if f ∈ state.hash then 1 else 0) + state.pending.countP fun entry => entry.fakeCtx = f
  hash_once : state.hash.Nodup
  /-- The hash holds fake contexts of live contexts only. -/
  hash_live : ∀ f ∈ state.hash, ∃ fake ctx, state.fakes f = some fake ∧
    state.ctxs fake.ctx = some ctx
  /-- A context in use is live, and was not output. -/
  in_use : ∀ c < state.nextCtx, InUse state c →
    (state.ctxs c).isSome ∧ (state.outputs.map (·.ctx)).count c = 0
  /-- A context that is not in use any more was output once, and freed. -/
  unused : ∀ c < state.nextCtx, ¬InUse state c →
    state.ctxs c = none ∧ (state.outputs.map (·.ctx)).count c = 1
  count : state.ctxCount.toNat = (List.range state.nextCtx).countP fun c => (state.ctxs c).isSome
  no_fault : state.faults = []

/-- What an event does to the fake contexts in the hash: it takes out the one whose packet it frees,
and no other. -/
def Unlinks (config : Config) (state : State) (event : Event) : Prop :=
  ∀ f ∈ state.hash, f ∉ (ctxAsyncPollCb config state event).hash ↔
    ∃ entry trace, event = .entry entry ∧ entry.entryMemory ∧
      config.getTrace entry.func = some trace ∧ frees trace ∧ state.find entry.key = some f

/-! ## One event -/

/-- What the callback fetches for an entry event. -/
theorem Kept.fetch (h : Kept config state) (hfetches : fetches state event)
    (hcount : state.find event.key = none → state.ctxCount ≠ 0xffffffff) :
    ∃ middle f c, analyFakeCtxFetch state event = some (middle, f) ∧
      Advances config c state middle ∧
      f ∈ middle.hash ∧ Named middle f c ∧
      ((state.find event.key = some f ∧ middle = state) ∨
        (state.find event.key = none ∧ f = state.nextFake ∧ middle.hash = f :: state.hash ∧
          ∀ fake, middle.fakes f = some fake → fake.refs ≠ 0xffff)) := by
  unfold analyFakeCtxFetch
  cases hfind : state.find event.key with
  | some f =>
      have hmem := List.mem_of_find?_eq_some hfind
      obtain ⟨fake, hfake⟩ := h.hash_fake hmem
      exact ⟨state, f, fake.ctx, rfl, Advances.refl h _, hmem, ⟨fake, hfake, rfl⟩, .inl ⟨rfl, rfl⟩⟩
  | none =>
      have hmemory : (event.ctxMemory && event.fakeMemory) = true := by
        unfold fetches at hfetches
        rw [hfind, Bool.and_eq_true] at hfetches
        simpa using hfetches.2
      obtain ⟨hadvances, hhash, hnamed⟩ := h.alloc_ctx (hcount hfind) event.key
      refine ⟨_, _, _, if_pos hmemory, hadvances, ?_, hnamed, .inr ⟨rfl, rfl, hhash, ?_⟩⟩
      · rw [hhash]
        exact List.mem_cons_self
      · intro fake hfake heq
        have hrefs := (h.counted.alloc_ctx (hcount hfind) event.key).fake_refs _ fake hfake
        rw [Function.update_self, heq] at hrefs
        cases hrefs

/-- What an entry does to the context that was fetched for it. -/
theorem Advances.handle {middle : State} (h : Advances config c before middle)
    (hsettled : Settled before) (hnamed : Named middle f c) (hmem : f ∈ middle.hash)
    (htrace : config.getTrace event.func = some trace)
    (honce : trace.cfree → ¬analyzerFrees config trace event)
    (hfrees : frees trace → analyzerFrees config trace event ∨ trace.cfree)
    (hfits : mounts config trace event → ∀ fake, middle.fakes f = some fake → fake.refs ≠ 0xffff) :
    Kept config (handleEntry config middle event f) ∧ Settled (handleEntry config middle event f) ∧
      (handleEntry config middle event f).hash =
        if frees trace then middle.hash.erase f else middle.hash := by
  obtain ⟨fake, hfake, rfl⟩ := hnamed
  have hnamed : Named middle f fake.ctx := ⟨fake, hfake, rfl⟩
  -- the entry waits for its return
  have hglobal :
      Advances config fake.ctx middle (runGlobalEntry config middle trace event fake.ctx f) ∧
      (runGlobalEntry config middle trace event fake.ctx f).hash = middle.hash := by
    unfold runGlobalEntry
    by_cases hmounts : mounts config trace event
    case neg =>
      rw [if_neg hmounts]
      exact ⟨Advances.refl h.kept _, rfl⟩
    case pos =>
      rw [if_pos hmounts]
      exact @Kept.mount config middle
        { func := event.func, tid := event.tid, ctx := fake.ctx, fakeCtx := f }
        h.kept hnamed hmem (hfits hmounts) (by rw [htrace]; rfl)
  -- the packet is freed, by the analyzer or by `--trace-free`
  have hrelease : ∃ freed, (if trace.cfree then
      release (if analyzerFrees config trace event then
        release (runGlobalEntry config middle trace event fake.ctx f) f
        else runGlobalEntry config middle trace event fake.ctx f) f
      else if analyzerFrees config trace event then
        release (runGlobalEntry config middle trace event fake.ctx f) f
        else runGlobalEntry config middle trace event fake.ctx f) = freed ∧
      Advances config fake.ctx middle freed ∧
        freed.hash = if frees trace then middle.hash.erase f else middle.hash := by
    obtain ⟨hreleased, hhash⟩ := hglobal.1.kept.release (hglobal.1.touches.named _ _ hnamed)
      (by rw [hglobal.2]; exact hmem)
    rw [hglobal.2] at hhash
    cases hcfree : trace.cfree with
    | true =>
        have hfree : frees trace = true := by simp [frees, hcfree]
        rw [if_pos rfl, if_neg (honce hcfree), hfree, if_pos rfl]
        exact ⟨_, rfl, hglobal.1.trans hreleased, hhash⟩
    | false =>
        rw [if_neg (by decide)]
        cases hanalyzer : analyzerFrees config trace event with
        | true =>
            have hfree : frees trace = true := by
              unfold analyzerFrees at hanalyzer
              unfold frees
              rw [hcfree]
              simp only [Bool.and_eq_true, Bool.or_eq_true, decide_eq_true_eq] at hanalyzer ⊢
              exact .inl (hanalyzer.2.imp_right And.left)
            rw [if_pos rfl, hfree, if_pos rfl]
            exact ⟨_, rfl, hglobal.1.trans hreleased, hhash⟩
        | false =>
            have hfree : frees trace = false := by
              rw [Bool.eq_false_iff]
              intro hfree
              rcases hfrees hfree with h | h
              · rw [hanalyzer] at h
                cases h
              · rw [hcfree] at h
                cases h
            rw [if_neg (by decide), hfree, if_neg (by decide)]
            exact ⟨_, rfl, hglobal.1, hglobal.2⟩
  obtain ⟨freed, hfreed, hadvances, hhash⟩ := hrelease
  obtain ⟨-, ctx, -, -, hctx⟩ :=
    hadvances.kept.counted.of_named (hadvances.touches.named _ _ hnamed)
  obtain ⟨hadded, haddedHash⟩ := hadvances.kept.addEntry hctx event
  obtain ⟨-, next, -, -, hnext⟩ := hadded.kept.counted.of_named
    (hadded.touches.named _ _ (hadvances.touches.named _ _ hnamed))
  have hcheck := ((h.trans hadvances).trans hadded).check hsettled hnext
  have heq : handleEntry config middle event f =
      checkPending (addEntry freed event fake.ctx) fake.ctx := by
    unfold handleEntry
    rw [hfake]
    dsimp only
    rw [htrace]
    dsimp only
    rw [hfreed]
  rw [heq]
  exact ⟨hcheck.1, hcheck.2.1, by rw [hcheck.2.2, haddedHash, hhash]⟩

theorem Kept.handle_entry (h : Kept config state) (hsettled : Settled state)
    (hmeets : Meets config state (.entry event)) :
    Kept config (ctxAsyncPollCb config state (.entry event)) ∧
      Settled (ctxAsyncPollCb config state (.entry event)) ∧
        Unlinks config state (.entry event) := by
  by_cases hfetches : fetches state event
  case neg =>
    have hsame : ctxAsyncPollCb config state (.entry event) = state := by
      unfold ctxAsyncPollCb
      dsimp only
      by_cases hmemory : event.entryMemory
      case neg => exact if_neg hmemory
      case pos =>
        rw [if_pos hmemory]
        unfold fetches at hfetches
        simp only [hmemory, Bool.true_and, Bool.or_eq_true, not_or] at hfetches
        have hfind : state.find event.key = none := Option.not_isSome_iff_eq_none.mp hfetches.1
        unfold analyFakeCtxFetch
        rw [hfind]
        dsimp only
        rw [if_neg hfetches.2]
    refine ⟨by rw [hsame]; exact h, by rw [hsame]; exact hsettled, fun f hmem => ?_⟩
    rw [hsame]
    refine ⟨fun hnot => absurd hmem hnot, ?_⟩
    rintro ⟨entry, trace, hentry, hmemory, -, -, hfind⟩
    obtain rfl := Event.entry.inj hentry
    exact absurd (by simp [fetches, hmemory, hfind]) hfetches
  case pos =>
    obtain ⟨trace, htrace, honce, hfrees, hfits, hcount⟩ := hmeets hfetches
    obtain ⟨middle, f, c, hfetch, hadvances, hmem, hnamed, hfrom⟩ := h.fetch hfetches hcount
    have hmemory : event.entryMemory = true := by
      unfold fetches at hfetches
      exact (Bool.and_eq_true_iff.mp hfetches).1
    have hroom : mounts config trace event → ∀ fake, middle.fakes f = some fake →
        fake.refs ≠ 0xffff := by
      intro hmounts fake hfake
      rcases hfrom with ⟨hfind, rfl⟩ | ⟨-, -, -, hnew⟩
      · exact hfits hmounts f fake hfind hfake
      · exact hnew fake hfake
    obtain ⟨hkept, hafter, hhash⟩ := hadvances.handle hsettled hnamed hmem htrace honce hfrees hroom
    have heq : ctxAsyncPollCb config state (.entry event) = handleEntry config middle event f := by
      unfold ctxAsyncPollCb
      dsimp only
      rw [if_pos hmemory, hfetch]
    refine ⟨by rw [heq]; exact hkept, by rw [heq]; exact hafter, fun g hg => ?_⟩
    rw [heq, hhash]
    have hback : (∃ entry trace, Event.entry event = .entry entry ∧ entry.entryMemory ∧
        config.getTrace entry.func = some trace ∧ frees trace ∧ state.find entry.key = some g) ↔
        frees trace ∧ state.find event.key = some g := by
      constructor
      · rintro ⟨entry, other, hentry, -, hother, hfree, hfind⟩
        obtain rfl := Event.entry.inj hentry
        rw [htrace] at hother
        exact ⟨Option.some.inj hother ▸ hfree, hfind⟩
      · rintro ⟨hfree, hfind⟩
        exact ⟨event, trace, rfl, hmemory, htrace, hfree, hfind⟩
    rw [hback]
    by_cases hfree : frees trace
    case neg =>
      rw [if_neg hfree]
      refine iff_of_false (fun hnot => hnot ?_) fun hboth => hfree hboth.1
      rcases hfrom with ⟨-, rfl⟩ | ⟨-, -, hnew, -⟩
      · exact hg
      · rw [hnew]
        exact List.mem_cons_of_mem _ hg
    case pos =>
      rw [if_pos hfree]
      rcases hfrom with ⟨hfind, rfl⟩ | ⟨hnone, rfl, hnew, -⟩
      · rw [hfind, h.hash.mem_erase_iff]
        simp [hfree, hg, eq_comm]
      · rw [hnew, List.erase_cons_head, hnone]
        simp [hg]

/-- After a return there is room for a clone: the context had room before, or the return took the
last reference of one of its fake contexts. -/
theorem Kept.unmount_room (h : Kept config state) (hmem : entry ∈ state.pending)
    (hroom : ∀ fake ctx, state.fakes entry.fakeCtx = some fake → state.ctxs entry.ctx = some ctx →
      fake.refs = 1 ∨ ctx.refs ≠ 0xffff)
    (hctx : (putFakeAnalyCtx { state with pending := state.pending.erase entry } entry.fakeCtx).ctxs
      entry.ctx = some ctx) : ctx.refs ≠ 0xffff := by
  obtain ⟨hnamed, -⟩ := h.pending entry hmem
  obtain ⟨fake, found, hfake, hhome, hfound⟩ := h.counted.of_named hnamed
  have hroom := hroom fake found hfake hfound
  rw [← hhome] at hfound hctx
  have hheld := held_pending hmem
  have hrefs := mt (h.counted.refs_zero hfake).mp hheld
  have hcounted := h.counted.ctx_held hfake hfound hheld
  rw [@putFakeAnalyCtx_eq { state with pending := state.pending.erase entry } _ found fake
    hfake hfound hrefs
    hcounted] at hctx
  dsimp only at hctx
  rw [Keyed.put_same] at hctx
  obtain rfl := Option.some.inj hctx
  dsimp only
  by_cases hlast : fake.refs - 1 = 0
  case pos =>
    rw [if_pos hlast]
    intro heq
    have hpred := toNat_pred hcounted
    have hlt := found.refs.toNat_lt
    rw [heq] at hpred
    have hpos : found.refs.toNat ≠ 0 := fun hzero => hcounted (UInt16.toNat_inj.mp hzero)
    simp only [UInt16.reduceToNat] at hpred
    omega
  case neg =>
    rw [if_neg hlast]
    refine hroom.resolve_left fun hone => hlast ?_
    rw [hone]
    rfl

/-- A return event. -/
theorem Kept.handle_ret {ret : RetEvent} (h : Kept config state) (hsettled : Settled state)
    (hmeets : Meets config state (.ret ret)) :
    Kept config (ctxAsyncPollCb config state (.ret ret)) ∧
      Settled (ctxAsyncPollCb config state (.ret ret)) ∧ Unlinks config state (.ret ret) := by
  have hnone : ∀ f, ¬∃ entry trace, Event.ret ret = .entry entry ∧ entry.entryMemory ∧
      config.getTrace entry.func = some trace ∧ frees trace ∧ state.find entry.key = some f := by
    rintro f ⟨entry, trace, hentry, -⟩
    cases hentry
  suffices hsuffices : Kept config (handleRet config state ret) ∧
      Settled (handleRet config state ret) ∧
      ∀ f ∈ state.hash, f ∈ (handleRet config state ret).hash from
    ⟨hsuffices.1, hsuffices.2.1, fun f hmem =>
      iff_of_false (not_not_intro (hsuffices.2.2 f hmem)) (hnone f)⟩
  unfold handleRet
  split
  case h_2 => exact ⟨h, hsettled, fun f hmem => hmem⟩
  case h_1 entry hops hfound =>
    have hmem : entry ∈ state.pending := List.mem_of_find?_eq_some hfound
    have hfunc : entry.func = ret.func := by
      have htest := List.find?_some hfound
      simp only [Bool.and_eq_true, beq_iff_eq] at htest
      exact htest.1
    obtain ⟨hnamed, hknown⟩ := h.pending entry hmem
    obtain ⟨trace, htrace⟩ := Option.isSome_iff_exists.mp hknown
    rw [hfunc] at htrace
    obtain ⟨hunmount, hhash⟩ := h.unmount hmem
    have hnamed := hunmount.touches.named _ _ hnamed
    obtain ⟨-, ctx, -, -, hctx⟩ := hunmount.kept.counted.of_named hnamed
    have hstill : ∀ f ∈ state.hash, f ∈ (putFakeAnalyCtx
        { state with pending := state.pending.erase entry } entry.fakeCtx).hash := by
      intro f hmem
      rw [hhash]
      exact hmem
    dsimp only
    rw [htrace]
    dsimp only
    have hclone : ∃ cloned, (if clones config trace then cloneExit config
        (putFakeAnalyCtx { state with pending := state.pending.erase entry } entry.fakeCtx) entry
          ret
        else putFakeAnalyCtx { state with pending := state.pending.erase entry } entry.fakeCtx) =
          cloned ∧
        Advances config entry.ctx
          (putFakeAnalyCtx { state with pending := state.pending.erase entry } entry.fakeCtx)
            cloned ∧
        ∀ f ∈ state.hash, f ∈ cloned.hash := by
      by_cases hclones : clones config trace
      case neg =>
        rw [if_neg hclones]
        exact ⟨_, rfl, Advances.refl hunmount.kept _, hstill⟩
      case pos =>
        rw [if_pos hclones]
        unfold cloneExit
        split
        case isTrue => exact ⟨_, rfl, Advances.refl hunmount.kept _, hstill⟩
        case isFalse hruns =>
          simp only [Bool.or_eq_true, decide_eq_true_eq, Bool.not_eq_true', not_or,
            Bool.not_eq_true,
            Bool.not_eq_false] at hruns
          have hroom := h.unmount_room hmem
            (hmeets entry trace hops hfound htrace hclones hruns.1.1 hruns.1.2 hruns.2) hctx
          obtain ⟨hcloned, hlinked, -⟩ := hunmount.kept.alloc hctx hroom ret.val
          refine ⟨_, rfl, hcloned, fun f hmem => ?_⟩
          rw [hlinked, hhash]
          exact List.mem_cons_of_mem _ hmem
    obtain ⟨cloned, hcloned, hadvances, hstays⟩ := hclone
    rw [hcloned]
    obtain ⟨-, next, -, -, hnext⟩ :=
      hadvances.kept.counted.of_named (hadvances.touches.named _ _ hnamed)
    obtain ⟨hkept, hafter, hend⟩ := (hunmount.trans hadvances).check hsettled hnext
    exact ⟨hkept, hafter, fun f hmem => hend ▸ hstays f hmem⟩

theorem Kept.step (h : Kept config state) (hsettled : Settled state) {event : Event}
    (hmeets : Meets config state event) :
    Kept config (ctxAsyncPollCb config state event) ∧ Settled (ctxAsyncPollCb config state event) ∧
      Unlinks config state event := by
  cases event with
  | entry event => exact h.handle_entry hsettled hmeets
  | ret event => exact h.handle_ret hsettled hmeets

/-! ## Runs -/

/-- A context that is there is in use exactly when it is referenced. -/
theorem Kept.in_use_iff (h : Kept config state) (hctx : state.ctxs c = some ctx) :
    InUse state c ↔ ctx.refs ≠ 0 := by
  constructor
  · rintro (⟨f, hmem, fake, hfake, rfl⟩ | ⟨entry, hmem, rfl⟩)
    · exact h.counted.ctx_held hfake hctx (held_hash hmem)
    · obtain ⟨fake, hfake, hhome⟩ := (h.pending entry hmem).1
      exact h.counted.ctx_held hfake (hhome ▸ hctx) (held_pending hmem)
  · intro hrefs
    have hpos : 0 < ctx.fakes.countP fun f => held state f != 0 := by
      rw [← h.counted.ctx_refs c ctx hctx]
      exact Nat.pos_of_ne_zero fun heq => hrefs (UInt16.toNat_inj.mp heq)
    obtain ⟨f, hmem, hheld⟩ := List.countP_pos_iff.mp hpos
    obtain ⟨fake, hfake, hhome⟩ := (h.counted.member c ctx hctx f).mp hmem
    by_cases hhash : f ∈ state.hash
    case pos => exact .inl ⟨f, hhash, fake, hfake, hhome⟩
    case neg =>
      unfold held at hheld
      rw [if_neg hhash, Nat.zero_add, bne_iff_ne] at hheld
      obtain ⟨entry, hentry, hof⟩ := List.countP_pos_iff.mp (Nat.pos_of_ne_zero hheld)
      obtain ⟨other, hother, hsame⟩ := (h.pending entry hentry).1
      rw [of_decide_eq_true hof, hfake] at hother
      obtain rfl := Option.some.inj hother
      exact .inr ⟨entry, hentry, hsame.symm.trans hhome⟩

theorem Kept.in_use_live (h : Kept config state) (huse : InUse state c) :
    ∃ ctx, state.ctxs c = some ctx := by
  obtain ⟨f, hmem, hnamed⟩ | ⟨entry, hmem, rfl⟩ := huse
  · obtain ⟨-, ctx, -, -, hctx⟩ := h.counted.of_named hnamed
    exact ⟨ctx, hctx⟩
  · obtain ⟨-, ctx, -, -, hctx⟩ := h.counted.of_named (h.pending entry hmem).1
    exact ⟨ctx, hctx⟩

/-- Counts that agree, between two events, are what was to be shown of a state. -/
theorem Kept.sound (h : Kept config state) (hsettled : Settled state) : Sound state where
  ctx_refs c ctx hctx := by
    rw [h.counted.ctx_refs c ctx hctx]
    refine List.countP_congr fun f hmem => ?_
    obtain ⟨fake, hfake, -⟩ := (h.counted.member c ctx hctx f).mp hmem
    have hzero := h.counted.refs_zero hfake
    rw [hfake, Option.any_some, bne_iff_ne, bne_iff_ne, ne_eq, ne_eq, hzero]
  ctx_fakes c ctx hctx := ⟨h.counted.nodup c ctx hctx, h.counted.member c ctx hctx⟩
  fake_refs := h.counted.fake_refs
  hash_once := h.hash
  hash_live f hmem := by
    obtain ⟨fake, hfake⟩ := h.hash_fake hmem
    obtain ⟨ctx, hctx⟩ := h.counted.home f fake hfake
    exact ⟨fake, ctx, hfake, hctx⟩
  in_use c _ huse := by
    obtain ⟨ctx, hctx⟩ := h.in_use_live huse
    refine ⟨by rw [hctx]; rfl, List.count_eq_zero.mpr fun hmem => ?_⟩
    rw [((h.counted.ended c).mp hmem).2] at hctx
    cases hctx
  unused c hlt hunused := by
    have hnone : state.ctxs c = none := by
      by_contra hsome
      obtain ⟨ctx, hctx⟩ := Option.ne_none_iff_exists'.mp hsome
      exact hunused ((h.in_use_iff hctx).mpr (hsettled c ctx hctx))
    exact ⟨hnone, List.count_eq_one_of_mem h.counted.outputs ((h.counted.ended c).mpr ⟨hlt, hnone⟩)⟩
  count := h.counted.count
  no_fault := h.counted.no_fault

theorem Settled.start : Settled State.start := by
  intro c ctx h
  cases h

/-- A run whose events meet the condition keeps the counts, and each of its events takes out of the
hash what it frees. The induction is on the events, from any state whose counts agree. -/
theorem Kept.run {events : List Event} (h : Kept config state) (hsettled : Settled state)
    (hmeets : Along (ctxAsyncPollCb config) (Meets config) state events) :
    Kept config (run (ctxAsyncPollCb config) state events) ∧
      Settled (run (ctxAsyncPollCb config) state events) ∧
        Along (ctxAsyncPollCb config) (Unlinks config) state events := by
  induction events generalizing state with
  | nil => exact ⟨h, hsettled, trivial⟩
  | cons event rest ih =>
      obtain ⟨hfirst, hrest⟩ := hmeets
      obtain ⟨hkept, hafter, hunlinks⟩ := h.step hsettled hfirst
      obtain ⟨hfinal, hend, halong⟩ := ih hkept hafter hrest
      exact ⟨hfinal, hend, hunlinks, halong⟩

/-- In every run whose events meet the condition, every state has counts that say what is held, no
reference was put twice and no counter wrapped, and a context that is not in use any more was output
and freed once; the clones in use are those whose packets were not freed. -/
theorem contexts_counted (config : Config) (events : List Event)
    (hmeets : Along (ctxAsyncPollCb config) (Meets config) State.start events) :
    Sound (run (ctxAsyncPollCb config) State.start events) ∧
      Along (ctxAsyncPollCb config) (Unlinks config) State.start events := by
  obtain ⟨hkept, hsettled, hunlinks⟩ := Kept.start.run Settled.start hmeets
  exact ⟨hkept.sound hsettled, hunlinks⟩

/-- A trace of `trace.yaml` for packets, as it is compiled in. -/
def lifeTrace (define : String) (type : TraceType) (analyzer : Analyzer) : Selection.Trace where
  define := define
  name := literal define
  type := type
  cond := none
  tp := []
  skb := 1
  sk := 0
  analyzer := analyzer
  backup := none
  isBackup := false
  probe := false
  «def» := true
  connectRequired := false
  monitor := 0

def lifeTraces : List Selection.Trace :=
  [lifeTrace "ip_rcv" .function .default, lifeTrace "skb_clone" .function .clone,
    lifeTrace "consume_skb" .tp .free]

/-- A system with the functions of these traces. -/
def lifeKernel : Kernel where
  btf := true
  tracefs := true
  dropReason := true
  resetReason := false
  netns := 1
  condition := fun _ => true
  tracepoint := fun _ => true
  kallsyms := literal "ffff T ip_rcv\nfff1 T skb_clone\n"
  trampolines := false
  root := true
  loads := fun _ => true

/-- The traces are asked for with these options. -/
def lifeContext (args : TraceArgs) : Selection.Context where
  args := { args with traces := some (literal "all") }
  bpf := { pid := 1 }
  mode := .timeline
  catalogue :=
    { root := .mk (literal "all") [] ["ip_rcv", "skb_clone", "consume_skb"], traces := lifeTraces }

/-- What a capture with these options is analysed with. -/
def lifeConfig (args : TraceArgs) : Option Config :=
  (tracePrepare lifeKernel (lifeContext args)).toOption.bind Config.ofPreparation

def EntryEvent.simple (func : Nat) (key : UInt64) : EntryEvent :=
  { func, key, tid := 7, tiny := false, entryMemory := true, ctxMemory := true, fakeMemory := true }

/-- The traces as `--intel` sets them. -/
def diagConfig : Config :=
  { mode := .diag, ops := .probe, noclone := false,
    traces := [(lifeTrace "ip_rcv" .function .default).setEnable.setRet,
      (lifeTrace "skb_clone" .function .clone).setEnable.setRet,
      { (lifeTrace "consume_skb" .tp .free).setEnable with func := { free := true } }] }

/-- A packet is received and cloned, both calls return, and both packets are freed. -/
def cloneEvents : List Event :=
  [.entry (.simple 0 0x1000), .entry (.simple 1 0x1000),
    .ret { func := 1, tid := 7, val := 0x2000, fakeMemory := true },
    .ret { func := 0, tid := 7, val := 0, fakeMemory := true },
    .entry (.simple 2 0x1000), .entry (.simple 2 0x2000)]

/-- The events of a packet and its clone meet the condition, and their context ends once. -/
theorem contexts_counted_clone :
    lifeConfig { intel := true } = some diagConfig ∧
      (Sound (run (ctxAsyncPollCb diagConfig) State.start cloneEvents) ∧
        Along (ctxAsyncPollCb diagConfig) (Unlinks diagConfig) State.start cloneEvents) ∧
      (run (ctxAsyncPollCb diagConfig) State.start cloneEvents).outputs.map (·.ctx) = [0] := by
  have hfirst : Meets diagConfig State.start (.entry (.simple 0 0x1000)) := fun _ =>
    ⟨_, rfl, by decide, by decide, fun _ f fake hfind _ => (by cases hfind), fun _ => by decide⟩
  have hfree : ∀ state : State, ∀ key, state.ctxCount = 1 →
      Meets diagConfig state (.entry (.simple 2 key)) := by
    intro state key hcount _
    have hruns : analyzerFrees diagConfig diagConfig.traces[2] (.simple 2 0) = true := by decide
    have hplain : ¬mounts diagConfig diagConfig.traces[2] (.simple 2 0) = true := by decide
    exact ⟨diagConfig.traces[2], rfl, fun hcfree => (by cases hcfree), fun _ => .inl hruns,
      fun hmounts => absurd hmounts hplain, fun _ => (by rw [hcount]; decide)⟩
  refine ⟨by decide, contexts_counted diagConfig cloneEvents ⟨hfirst, fun _ => ⟨_, rfl, by
    decide, by decide,
    fun _ f fake hfind hfake => ?_, fun hfind => ?_⟩, ?_, ?_, hfree _ _ (by decide),
      hfree _ _ (by decide),
    trivial⟩, by decide⟩
  · obtain rfl := Option.some.inj hfind
    obtain rfl := Option.some.inj hfake
    decide
  · cases hfind
  · intro entry trace _ hfound _ _ _ _ _ fake ctx _ hctx
    obtain rfl := Option.some.inj hfound
    obtain rfl := Option.some.inj hctx
    exact .inr (by decide)
  · intro entry trace _ _ htrace hclones
    obtain rfl := Option.some.inj htrace
    exact absurd hclones (by decide)

/-- The traces as `--trace-free consume_skb` sets them. -/
def freeConfig : Config :=
  { mode := .timeline, ops := .probe, noclone := false,
    traces := [(lifeTrace "ip_rcv" .function .default).setEnable,
      (lifeTrace "skb_clone" .function .clone).setEnable.setRet,
      { (lifeTrace "consume_skb" .tp .free).setEnable with
        cfree := true, explicit := true, func := { free := true, cfree := true } }] }

/-- With `--trace-free consume_skb` a packet that is consumed has its reference put by the analyzer
and again by the callback: the reference is put twice, and the node unlinked twice. -/
theorem custom_free_puts_twice :
    lifeConfig { traceFree := some (literal "consume_skb") } = some freeConfig ∧
      ¬Sound (run (ctxAsyncPollCb freeConfig) State.start
        [.entry (.simple 0 0x1000), .entry (.simple 2 0x1000)]) := by
  refine ⟨by decide, fun h => ?_⟩
  have hfaults := h.no_fault
  rw [show (run (ctxAsyncPollCb freeConfig) State.start
    [.entry (.simple 0 0x1000), .entry (.simple 2 0x1000)]).faults = [.putTwice, .unlinkedTwice] by
      decide +kernel] at hfaults
  cases hfaults

end Anettrace.Analysis
