import Anettrace.Library.Run
import Anettrace.Analysis.References

/-!
# The life of contexts

A fake context is held once by the hash, while it is in it, and once by every entry that waits for
its return. Each event of the callback keeps the counts in step with that, provided that a free puts
the reference of the hash once; then a context ends when its last clone was freed and its last
return came.
-/

namespace Anettrace.Analysis

open Library Library.Run

variable {config : Config} {state before after : State} {trace : Selection.Trace}
  {event : EntryEvent}
  {entry : PendingEntry} {c f : Nat} {ctx : AnalyCtx} {fake : FakeAnalyCtx}

/-- What holds a fake context: the hash, and the entries whose returns are pending. -/
def held (state : State) (f : Nat) : Nat :=
  (if f ∈ state.hash then 1 else 0) + state.pending.countP fun entry => entry.fakeCtx = f

/-- The fake context `f` is one of the context `c`. -/
def Named (state : State) (f c : Nat) : Prop :=
  ∃ fake, state.fakes f = some fake ∧ fake.ctx = c

/-- The counts agree with what the hash and the pending entries hold. -/
structure Kept (config : Config) (state : State) : Prop where
  counted : Counted (held state) state
  hash : state.hash.Nodup
  pending : ∀ entry ∈ state.pending,
    Named state entry.fakeCtx entry.ctx ∧ (config.getTrace entry.func).isSome

theorem Kept.start : Kept config State.start where
  counted := Counted.start
  hash := List.nodup_nil
  pending entry h := by cases h

theorem held_hash (hmem : f ∈ state.hash) : held state f ≠ 0 := by
  unfold held
  rw [if_pos hmem]
  omega

theorem held_pending (hmem : entry ∈ state.pending) : held state entry.fakeCtx ≠ 0 := by
  have hpos : 0 < state.pending.countP fun other => other.fakeCtx = entry.fakeCtx :=
    List.countP_pos_iff.mpr ⟨entry, hmem, by simp⟩
  unfold held
  omega

theorem Kept.hash_fake (h : Kept config state) (hmem : f ∈ state.hash) :
    ∃ fake, state.fakes f = some fake :=
  Option.ne_none_iff_exists'.mp (mt (h.counted.unheld f) (held_hash hmem))

/-- A fake context that is there was allocated before. -/
theorem Kept.fake_lt (h : Kept config state) (hfake : state.fakes f = some fake) :
    f < state.nextFake := by
  by_contra hle
  rw [h.counted.fresh_fake f (Nat.le_of_not_lt hle)] at hfake
  cases hfake

/-- What an operation on a context leaves: the other contexts, and to which context each fake
context belongs. -/
structure Touches (c : Nat) (before after : State) : Prop where
  others : ∀ other, other ≠ c → after.ctxs other = before.ctxs other
  named : ∀ f c, Named before f c → Named after f c

theorem Touches.refl (c : Nat) (state : State) : Touches c state state :=
  ⟨fun _ _ => rfl, fun _ _ h => h⟩

theorem Touches.trans {middle : State} (hfirst : Touches c before middle)
    (hsecond : Touches c middle after) : Touches c before after :=
  ⟨fun other hne => (hsecond.others other hne).trans (hfirst.others other hne),
    fun f c h => hsecond.named f c (hfirst.named f c h)⟩

/-- A fake context whose context stays, and its context, are changed. -/
theorem touches_put (hfake : state.fakes f = some fake) (new : FakeAnalyCtx)
    (hnew : new.ctx = fake.ctx) (next : AnalyCtx) :
    Touches fake.ctx state
      { state with fakes := state.fakes.put f new, ctxs := state.ctxs.put fake.ctx next } := by
  refine ⟨fun other hne => Keyed.put_other _ hne _, ?_⟩
  rintro g c ⟨old, hold, rfl⟩
  by_cases hg : g = f
  case neg => exact ⟨old, (Keyed.put_other _ hg _).trans hold, rfl⟩
  case pos =>
    subst hg
    rw [hfake] at hold
    obtain rfl := Option.some.inj hold
    exact ⟨new, Keyed.put_same _ _ _, hnew⟩

theorem getFakeAnalyCtx_touches (hfake : state.fakes f = some fake)
    (hctx : state.ctxs fake.ctx = some ctx)
    (hfits : fake.refs ≠ 0xffff) (hroom : fake.refs = 0 → ctx.refs ≠ 0xffff) :
    Touches fake.ctx state (getFakeAnalyCtx state f) ∧
      (getFakeAnalyCtx state f).hash = state.hash ∧
        (getFakeAnalyCtx state f).pending = state.pending := by
  rw [getFakeAnalyCtx_eq hfake hctx hfits hroom]
  exact ⟨touches_put hfake { fake with refs := fake.refs + 1 } rfl _, rfl, rfl⟩

theorem putFakeAnalyCtx_touches (hfake : state.fakes f = some fake)
    (hctx : state.ctxs fake.ctx = some ctx) (hheld : fake.refs ≠ 0) (hcounted : ctx.refs ≠ 0) :
    Touches fake.ctx state (putFakeAnalyCtx state f) ∧
      (putFakeAnalyCtx state f).hash = state.hash ∧
        (putFakeAnalyCtx state f).pending = state.pending := by
  rw [putFakeAnalyCtx_eq hfake hctx hheld hcounted]
  exact ⟨touches_put hfake { fake with refs := fake.refs - 1 } rfl _, rfl, rfl⟩

theorem pending_stay (h : ∀ entry ∈ before.pending,
      Named before entry.fakeCtx entry.ctx ∧ (config.getTrace entry.func).isSome)
    (htouches : Touches c before after) (hsub : ∀ entry ∈ after.pending, entry ∈ before.pending) :
    ∀ entry ∈ after.pending,
      Named after entry.fakeCtx entry.ctx ∧ (config.getTrace entry.func).isSome :=
  fun entry hmem =>
    ⟨htouches.named _ _ (h entry (hsub entry hmem)).1, (h entry (hsub entry hmem)).2⟩

/-! ## What holds a fake context, after each operation -/

/-- An entry that waits for its return holds its fake context. -/
theorem held_mount (state : State) (entry : PendingEntry) :
    held { state with pending := entry :: state.pending } =
      Function.update (held state) entry.fakeCtx (held state entry.fakeCtx + 1) := by
  funext f
  unfold held
  dsimp only
  rw [List.countP_cons]
  by_cases hf : f = entry.fakeCtx
  case pos =>
    subst hf
    rw [Function.update_self]
    simp [Nat.add_assoc]
  case neg =>
    rw [Function.update_of_ne hf]
    simp [Ne.symm hf]

/-- An entry whose return came holds it no longer. -/
theorem held_unmount (hmem : entry ∈ state.pending) :
    held { state with pending := state.pending.erase entry } =
      Function.update (held state) entry.fakeCtx (held state entry.fakeCtx - 1) := by
  funext f
  unfold held
  dsimp only
  have hcount := (List.perm_cons_erase hmem).countP_eq fun other => decide (other.fakeCtx = f)
  rw [List.countP_cons] at hcount
  by_cases hf : f = entry.fakeCtx
  case pos =>
    subst hf
    simp only [decide_true, if_true] at hcount
    rw [Function.update_self]
    omega
  case neg =>
    simp only [Ne.symm hf, decide_false, Bool.false_eq_true, if_false, Nat.add_zero] at hcount
    rw [Function.update_of_ne hf]
    omega

theorem held_unlink (hnodup : state.hash.Nodup) (hmem : f ∈ state.hash) :
    held { state with hash := state.hash.erase f } =
      Function.update (held state) f (held state f - 1) := by
  funext g
  unfold held
  dsimp only
  by_cases hg : g = f
  case pos =>
    subst hg
    rw [Function.update_self, if_pos hmem, if_neg hnodup.not_mem_erase]
    omega
  case neg => simp [hg, List.mem_erase_of_ne hg]

theorem held_link {hash : List Nat} (hhash : hash = f :: state.hash) (hzero : held state f = 0) :
    held { state with hash } = Function.update (held state) f 1 := by
  subst hhash
  funext g
  unfold held at hzero ⊢
  dsimp only
  by_cases hg : g = f
  case pos =>
    subst hg
    rw [Function.update_self, if_pos List.mem_cons_self]
    omega
  case neg => simp [hg]

theorem held_congr (hhash : after.hash = before.hash) (hpending : after.pending = before.pending) :
    held after = held before := by
  unfold held
  rw [hhash, hpending]

/-! ## The operations of the handlers -/

theorem Counted.of_named {holds : Nat → Nat} (h : Counted holds state) (hnamed : Named state f c) :
    ∃ fake ctx, state.fakes f = some fake ∧ fake.ctx = c ∧ state.ctxs c = some ctx := by
  obtain ⟨fake, hfake, rfl⟩ := hnamed
  obtain ⟨ctx, hctx⟩ := h.home f fake hfake
  exact ⟨fake, ctx, hfake, rfl, hctx⟩

/-- An operation on a context kept the counts, and left the other contexts. -/
structure Advances (config : Config) (c : Nat) (before after : State) : Prop where
  kept : Kept config after
  touches : Touches c before after

theorem Advances.refl (h : Kept config state) (c : Nat) : Advances config c state state :=
  ⟨h, Touches.refl c state⟩

theorem Advances.trans {middle : State} (hfirst : Advances config c before middle)
    (hsecond : Advances config c middle after) : Advances config c before after :=
  ⟨hsecond.kept, hfirst.touches.trans hsecond.touches⟩

section

variable (h : Kept config state)
include h

/-- An entry is put on the list of pending entries, and its fake context referenced once more. -/
theorem Kept.mount (hnamed : Named state entry.fakeCtx entry.ctx)
    (hhash : entry.fakeCtx ∈ state.hash)
    (hfits : ∀ fake, state.fakes entry.fakeCtx = some fake → fake.refs ≠ 0xffff)
    (htrace : (config.getTrace entry.func).isSome) :
    Advances config entry.ctx state
        (getFakeAnalyCtx { state with pending := entry :: state.pending } entry.fakeCtx) ∧
      (getFakeAnalyCtx { state with pending := entry :: state.pending } entry.fakeCtx).hash =
        state.hash := by
  obtain ⟨fake, ctx, hfake, hctx, hfound⟩ := h.counted.of_named hnamed
  rw [← hctx] at hfound
  have hheld : fake.refs ≠ 0 := mt (h.counted.refs_zero hfake).mp (held_hash hhash)
  obtain ⟨htouches, hhash', hpending⟩ := @getFakeAnalyCtx_touches
    { state with pending := entry :: state.pending } entry.fakeCtx ctx fake hfake hfound
      (hfits fake hfake)
    fun hzero => absurd hzero hheld
  have hcounted :=
    (h.counted.links state.hash (entry :: state.pending)).get hfake (hfits fake hfake)
    fun hzero => absurd hzero hheld
  refine ⟨⟨⟨?_, ?_, ?_⟩, hctx ▸ ⟨htouches.others, htouches.named⟩⟩, hhash'⟩
  · rw [held_congr hhash' hpending, held_mount]
    exact hcounted
  · rw [hhash']
    exact h.hash
  · refine @pending_stay config { state with pending := entry :: state.pending } _ _ ?_ htouches
      fun other hmem => hpending ▸ hmem
    intro other hmem
    rcases List.mem_cons.mp hmem with rfl | hmem
    · exact ⟨hnamed, htrace⟩
    · exact h.pending other hmem

/-- The reference of the hash is put, and the fake context unlinked. -/
theorem Kept.release (hnamed : Named state f c) (hhash : f ∈ state.hash) :
    Advances config c state (release state f) ∧ (release state f).hash = state.hash.erase f := by
  obtain ⟨fake, ctx, hfake, hctx, hfound⟩ := h.counted.of_named hnamed
  have hheld := held_hash hhash
  have hcounted := h.counted.put hheld
  subst hctx
  obtain ⟨htouches, hhash', hpending⟩ := putFakeAnalyCtx_touches hfake hfound
    (mt (h.counted.refs_zero hfake).mp hheld) (h.counted.ctx_held hfake hfound hheld)
  have heq : release state f = { putFakeAnalyCtx state f with
      hash := (putFakeAnalyCtx state f).hash.erase f } := by
    unfold Analysis.release hlistDel
    exact State.faultIf_neg (by rw [hhash']; exact not_not_intro hhash) _
  rw [heq]
  refine ⟨⟨⟨?_, ?_, ?_⟩, htouches.others, htouches.named⟩, by rw [hhash']⟩
  · rw [@held_unlink (putFakeAnalyCtx state f) f (by rw [hhash']; exact h.hash)
      (by rw [hhash']; exact hhash),
      held_congr hhash' hpending]
    exact hcounted.links _ _
  · dsimp only
    rw [hhash']
    exact h.hash.erase f
  · exact @pending_stay config state { putFakeAnalyCtx state f with
      hash := (putFakeAnalyCtx state f).hash.erase f } _ h.pending ⟨htouches.others, htouches.named⟩
      fun other hmem => hpending ▸ hmem

/-- A pending entry leaves its list, and its reference is put. -/
theorem Kept.unmount (hmem : entry ∈ state.pending) :
    Advances config entry.ctx state
        (putFakeAnalyCtx { state with pending := state.pending.erase entry } entry.fakeCtx) ∧
      (putFakeAnalyCtx { state with pending := state.pending.erase entry } entry.fakeCtx).hash =
        state.hash := by
  obtain ⟨hnamed, -⟩ := h.pending entry hmem
  obtain ⟨fake, ctx, hfake, hctx, hfound⟩ := h.counted.of_named hnamed
  rw [← hctx] at hfound
  have hheld := held_pending hmem
  obtain ⟨htouches, hhash', hpending⟩ := @putFakeAnalyCtx_touches
    { state with pending := state.pending.erase entry } entry.fakeCtx ctx fake hfake hfound
    (mt (h.counted.refs_zero hfake).mp hheld) (h.counted.ctx_held hfake hfound hheld)
  have hcounted := (h.counted.links state.hash (state.pending.erase entry)).put hheld
  refine ⟨⟨⟨?_, ?_, ?_⟩, hctx ▸ ⟨htouches.others, htouches.named⟩⟩, hhash'⟩
  · rw [held_congr hhash' hpending, held_unmount hmem]
    exact hcounted
  · rw [hhash']
    exact h.hash
  · exact @pending_stay config state _ _ h.pending ⟨htouches.others, htouches.named⟩
      fun other hother => List.mem_of_mem_erase (hpending ▸ hother)

/-- Every fake context of the hash or of a pending entry was allocated before. -/
theorem Kept.fresh : held state state.nextFake = 0 :=
  h.counted.unheld _ (h.counted.fresh_fake _ le_rfl)

theorem Kept.fresh_hash : state.nextFake ∉ state.hash :=
  fun hmem => held_hash hmem h.fresh

theorem Kept.withFake_touches (key : UInt64) (c : Nat) (ctx : AnalyCtx) :
    Touches c state (state.withFake key c ctx) := by
  refine ⟨fun other hne => Keyed.put_other _ hne _, ?_⟩
  rintro g c' ⟨fake, hfake, rfl⟩
  exact ⟨fake, (Keyed.put_other _ (Nat.ne_of_lt (h.fake_lt hfake)) _).trans hfake, rfl⟩

/-- A fake context is allocated for a context. -/
theorem Kept.alloc (hctx : state.ctxs c = some ctx) (hroom : ctx.refs ≠ 0xffff) (key : UInt64) :
    Advances config c state (analyFakeCtxAlloc state key c) ∧
      (analyFakeCtxAlloc state key c).hash = state.nextFake :: state.hash ∧
        Named (analyFakeCtxAlloc state key c) state.nextFake c := by
  have hcounted := h.counted.alloc hctx hroom key
  have heq : analyFakeCtxAlloc state key c =
      getFakeAnalyCtx (state.withFake key c ctx) state.nextFake := by
    unfold analyFakeCtxAlloc
    rw [hctx]
  rw [heq] at hcounted ⊢
  have hfake : (state.withFake key c ctx).fakes state.nextFake =
      some { ctx := c, key, refs := 0 } :=
    Keyed.put_same _ _ _
  have hnext : (state.withFake key c ctx).ctxs c =
      some { ctx with fakes := ctx.fakes ++ [state.nextFake] } := Keyed.put_same _ _ _
  have hfits : (0 : UInt16) ≠ 0xffff := by decide
  obtain ⟨htouches, hhash, hpending⟩ := getFakeAnalyCtx_touches hfake hnext hfits fun _ => hroom
  have hall := (h.withFake_touches key c ctx).trans htouches
  refine ⟨⟨⟨?_, ?_, ?_⟩, hall⟩, hhash, htouches.named _ _ ⟨_, hfake, rfl⟩⟩
  · rw [held_congr hhash hpending]
    rw [← held_link rfl h.fresh] at hcounted
    exact hcounted
  · rw [hhash]
    exact List.nodup_cons.mpr ⟨h.fresh_hash, h.hash⟩
  · exact pending_stay h.pending hall fun other hmem => hpending ▸ hmem

theorem Kept.alloc_ctx (hcount : state.ctxCount ≠ 0xffffffff) (key : UInt64) :
    Advances config state.nextCtx state (analyCtxAlloc state key) ∧
      (analyCtxAlloc state key).hash = state.nextFake :: state.hash ∧
        Named (analyCtxAlloc state key) state.nextFake state.nextCtx := by
  have hkept : Kept config state.withCtx := ⟨h.counted.withCtx hcount, h.hash, h.pending⟩
  have hctx : state.withCtx.ctxs state.nextCtx = some { entries := [], fakes := [], refs := 0 } :=
    Keyed.put_same _ _ _
  have halloc := hkept.alloc hctx (by decide) key
  unfold analyCtxAlloc
  rw [State.faultIf_neg hcount]
  refine ⟨⟨halloc.1.kept, ?_⟩, halloc.2⟩
  exact (⟨fun other hne => Keyed.put_other _ hne _, fun _ _ hnamed => hnamed⟩ :
    Touches state.nextCtx state state.withCtx).trans halloc.1.touches

theorem Kept.addEntry (hctx : state.ctxs c = some ctx) (event : EntryEvent) :
    Advances config c state (addEntry state event c) ∧
      (addEntry state event c).hash = state.hash := by
  have hcounted := h.counted.addEntry hctx event
  have heq : Analysis.addEntry state event c = { state with
      ctxs := state.ctxs.put c { ctx with entries := ctx.entries ++ [event] } } := by
    unfold Analysis.addEntry
    rw [hctx]
  rw [heq] at hcounted ⊢
  exact ⟨⟨⟨hcounted, h.hash, h.pending⟩, fun other hne =>
    Keyed.put_other _ hne _, fun _ _ hnamed => hnamed⟩,
    rfl⟩

end

/-- Every context is referenced. -/
def Settled (state : State) : Prop :=
  ∀ c ctx, state.ctxs c = some ctx → ctx.refs ≠ 0

/-- The end of the callback: a context that is not referenced is output and freed. -/
theorem Advances.check (h : Advances config c before state) (hsettled : Settled before)
    (hctx : state.ctxs c = some ctx) :
    Kept config (checkPending state c) ∧ Settled (checkPending state c) ∧
      (checkPending state c).hash = state.hash := by
  have hother : ∀ other found, other ≠ c → state.ctxs other = some found → found.refs ≠ 0 :=
    fun other found hne hfound =>
      hsettled other found ((h.touches.others other hne).symm.trans hfound)
  unfold checkPending
  rw [hctx]
  dsimp only
  by_cases hzero : ctx.refs = 0
  case neg =>
    rw [if_neg hzero]
    refine ⟨h.kept, fun other found hfound => ?_, rfl⟩
    by_cases hne : other = c
    case neg => exact hother other found hne hfound
    case pos =>
      rw [hne, hctx] at hfound
      exact Option.some.inj hfound ▸ hzero
  case pos =>
    rw [if_pos hzero]
    have hpending : ∀ entry ∈ state.pending, entry.ctx ≠ c := by
      intro entry hmem heq
      obtain ⟨fake, hfake, hhome⟩ := (h.kept.pending entry hmem).1
      rw [heq] at hhome
      exact h.kept.counted.ctx_held hfake (hhome ▸ hctx) (held_pending hmem) hzero
    have hcounted := h.kept.counted.output hctx hzero hpending
    have houtput := @analyCtxOutput_eq state c ctx hpending
    have hhash : (analyCtxOutput state c ctx).hash = state.hash := by rw [houtput]
    have hsame : (analyCtxOutput state c ctx).pending = state.pending := by rw [houtput]
    rw [← held_congr hhash hsame] at hcounted
    refine ⟨⟨hcounted, hhash ▸ h.kept.hash, fun entry hmem => ?_⟩, fun other found hfound =>
      ?_, hhash⟩
    · rw [hsame] at hmem
      obtain ⟨⟨fake, hfake, hhome⟩, htrace⟩ := h.kept.pending entry hmem
      obtain ⟨still, hstill⟩ := Option.ne_none_iff_exists'.mp
        (mt (hcounted.unheld entry.fakeCtx) (held_pending (hsame ▸ hmem)))
      refine ⟨⟨still, hstill, ?_⟩, htrace⟩
      rw [houtput] at hstill
      dsimp only at hstill
      rw [Keyed.foldl_remove_apply] at hstill
      split at hstill
      case isTrue => cases hstill
      case isFalse =>
        rw [hfake] at hstill
        exact Option.some.inj hstill ▸ hhome
    · rw [houtput] at hfound
      obtain ⟨hne, hold⟩ := Keyed.remove_cases hfound
      exact hother other found hne hold

end Anettrace.Analysis
