import Anettrace.Library.Table
import Anettrace.Analysis.Model

/-!
# References of contexts

What the two counts say, whatever holds the references: a fake context is referenced as often as it
is held, and a context by each of its fake contexts that is held. The operations on references keep
this, and say what is held after them.
-/

namespace Anettrace.Analysis

open Library

variable {state : State} {holds : Nat → Nat} {c f : Nat} {ctx : AnalyCtx} {fake : FakeAnalyCtx}

/-- The fake contexts are held as `holds` says, the contexts by the fake contexts that are held, and
nothing has gone wrong. -/
structure Counted (holds : Nat → Nat) (state : State) : Prop where
  fake_refs : ∀ f fake, state.fakes f = some fake → fake.refs.toNat = holds f
  ctx_refs : ∀ c ctx, state.ctxs c = some ctx → ctx.refs.toNat =
    ctx.fakes.countP fun f => holds f != 0
  nodup : ∀ c ctx, state.ctxs c = some ctx → ctx.fakes.Nodup
  member : ∀ c ctx, state.ctxs c = some ctx → ∀ f,
    f ∈ ctx.fakes ↔ ∃ fake, state.fakes f = some fake ∧ fake.ctx = c
  home : ∀ f fake, state.fakes f = some fake → ∃ ctx, state.ctxs fake.ctx = some ctx
  unheld : ∀ f, state.fakes f = none → holds f = 0
  fresh_ctx : ∀ c, state.nextCtx ≤ c → state.ctxs c = none
  fresh_fake : ∀ f, state.nextFake ≤ f → state.fakes f = none
  outputs : (state.outputs.map (·.ctx)).Nodup
  ended : ∀ c, c ∈ state.outputs.map (·.ctx) ↔ c < state.nextCtx ∧ state.ctxs c = none
  count : state.ctxCount.toNat = (List.range state.nextCtx).countP fun c => (state.ctxs c).isSome
  no_fault : state.faults = []

theorem Counted.start : Counted (fun _ => 0) State.start where
  fake_refs f fake h := by cases h
  ctx_refs c ctx h := by cases h
  nodup c ctx h := by cases h
  member c ctx h := by cases h
  home f fake h := by cases h
  unheld f _ := rfl
  fresh_ctx c _ := rfl
  fresh_fake f _ := rfl
  outputs := List.nodup_nil
  ended c := by simp [State.start]
  count := rfl
  no_fault := rfl

theorem Counted.links (h : Counted holds state) (hash : List Nat) (pending : List PendingEntry) :
    Counted holds { state with hash, pending } :=
  ⟨h.fake_refs, h.ctx_refs, h.nodup, h.member, h.home, h.unheld, h.fresh_ctx,
    h.fresh_fake, h.outputs,
    h.ended, h.count, h.no_fault⟩

@[simp] theorem State.faultIf_neg {test : Prop} [Decidable test] (h : ¬test) (fault : Fault) :
    state.faultIf test fault = state :=
  if_neg h

theorem Counted.other_ctx (h : Counted holds state) (hfake : state.fakes f = some fake)
    (hctx : state.ctxs c = some ctx) (hother : c ≠ fake.ctx) : f ∉ ctx.fakes := by
  intro hmem
  obtain ⟨found, hfound, rfl⟩ := (h.member c ctx hctx f).mp hmem
  rw [hfake] at hfound
  obtain rfl := Option.some.inj hfound
  exact hother rfl

theorem Counted.refs_zero (h : Counted holds state) (hfake : state.fakes f = some fake) :
    fake.refs = 0 ↔ holds f = 0 := by
  rw [← h.fake_refs f fake hfake, ← UInt16.toNat_inj]
  rfl

/-- A context changed in a way that does not concern its end. -/
theorem isSome_put (hctx : state.ctxs c = some ctx) (next : AnalyCtx) (other : Nat) :
    ((state.ctxs.put c next) other).isSome = (state.ctxs other).isSome := by
  by_cases hother : other = c
  case pos => rw [hother, Keyed.put_same, hctx]; rfl
  case neg => rw [Keyed.put_other _ hother]

/-- Contexts that change without a new or an ended one are counted as before. -/
theorem Counted.alive (h : Counted holds state) {ctxs : Keyed Nat AnalyCtx}
    (hsome : ∀ c, (ctxs c).isSome = (state.ctxs c).isSome) :
    (∀ c, state.nextCtx ≤ c → ctxs c = none) ∧
      (∀ c, c ∈ state.outputs.map (·.ctx) ↔ c < state.nextCtx ∧ ctxs c = none) ∧
      state.ctxCount.toNat = (List.range state.nextCtx).countP fun c => (ctxs c).isSome := by
  have hnone (c : Nat) : ctxs c = none ↔ state.ctxs c = none := by
    rw [← Option.not_isSome_iff_eq_none, ← Option.not_isSome_iff_eq_none, hsome]
  refine ⟨fun c hle => (hnone c).mpr (h.fresh_ctx c hle), fun c => ?_, ?_⟩
  · rw [h.ended c, hnone]
  · rw [h.count]
    exact List.countP_congr fun c _ => by rw [hsome]

/-- One fake context is held differently, and its context is counted accordingly. -/
theorem Counted.recount {held refs : Nat} {ctxs : Keyed Nat AnalyCtx}
    {fakes : Keyed Nat FakeAnalyCtx} (new : FakeAnalyCtx) (next : AnalyCtx)
    (h : Counted holds state) (hfake : state.fakes f = some fake)
    (hctx : state.ctxs fake.ctx = some ctx) (hnew : new.ctx = fake.ctx ∧ new.refs.toNat = held)
    (hnext : next.fakes = ctx.fakes) (hrefs : next.refs.toNat = refs)
    (hchange : refs + (if holds f != 0 then 1 else 0) = ctx.refs.toNat +
      (if held != 0 then 1 else 0)) (hfakes : fakes = state.fakes.put f new)
    (hctxs : ctxs = state.ctxs.put fake.ctx next) :
    Counted (Function.update holds f held) { state with fakes, ctxs } := by
  subst hfakes hctxs
  have hmem : f ∈ ctx.fakes := (h.member _ ctx hctx f).mpr ⟨fake, hfake, rfl⟩
  have hsome := isSome_put hctx next
  obtain ⟨hfreshCtx, hended, hcounted⟩ := h.alive hsome
  have hback : ∀ other found, (state.fakes.put f new) other = some found →
      ∃ old, state.fakes other = some old ∧ old.ctx = found.ctx :=
    Keyed.put_forall ⟨fake, hfake, hnew.1.symm⟩ fun _ found _ hold => ⟨found, hold, rfl⟩
  have hforth : ∀ other old, state.fakes other = some old →
      ∃ found, (state.fakes.put f new) other = some found ∧ found.ctx = old.ctx := by
    intro other old hold
    by_cases hother : other = f
    case neg => exact ⟨old, by rw [Keyed.put_other _ hother, hold], rfl⟩
    case pos =>
      subst hother
      rw [hfake] at hold
      obtain rfl := Option.some.inj hold
      exact ⟨new, Keyed.put_same _ _ _, hnew.1⟩
  have hmembers : ∀ c ctx, state.ctxs c = some ctx → ∀ other,
      other ∈ ctx.fakes ↔ ∃ found, (state.fakes.put f new) other = some found ∧ found.ctx = c := by
    intro c ctx hctx other
    rw [h.member c ctx hctx other]
    constructor
    · rintro ⟨old, hold, rfl⟩
      exact hforth other old hold
    · rintro ⟨found, hfound, rfl⟩
      exact hback other found hfound
  constructor
  case fake_refs =>
    refine Keyed.put_forall ?_ fun other found hother hold => ?_
    · rw [Function.update_self, hnew.2]
    · rw [Function.update_of_ne hother, h.fake_refs other found hold]
  case ctx_refs =>
    refine Keyed.put_forall ?_ fun c found hother hold => ?_
    · have hcount := @Table.countP_change _ ctx.fakes (fun f => holds f != 0)
        (fun other => Function.update holds f held other != 0) f (h.nodup _ ctx hctx) hmem
        fun other hother => by rw [Function.update_of_ne hother]
      simp only [Function.update_self] at hcount
      rw [← h.ctx_refs _ ctx hctx] at hcount
      rw [hnext, hrefs]
      omega
    · rw [h.ctx_refs c found hold]
      refine List.countP_congr fun other hmem => ?_
      have hne : other ≠ f := fun heq => h.other_ctx hfake hold hother (heq ▸ hmem)
      rw [Function.update_of_ne hne]
  case nodup =>
    refine Keyed.put_forall ?_ fun c found _ hold => h.nodup c found hold
    rw [hnext]
    exact h.nodup _ ctx hctx
  case member =>
    refine Keyed.put_forall ?_ fun c found _ hold => hmembers c found hold
    rw [hnext]
    exact hmembers _ ctx hctx
  case home =>
    intro other found hfound
    obtain ⟨old, hold, hhome⟩ := hback other found hfound
    refine Option.isSome_iff_exists.mp ?_
    rw [hsome, ← hhome]
    exact Option.isSome_iff_exists.mpr (h.home other old hold)
  case unheld =>
    intro other hnone
    have hother : other ≠ f := by
      rintro rfl
      rw [show (state.fakes.put other new) other = some new from Keyed.put_same _ _ _] at hnone
      cases hnone
    rw [Function.update_of_ne hother]
    exact h.unheld other ((Keyed.put_other _ hother new).symm.trans hnone)
  case fresh_ctx => exact hfreshCtx
  case fresh_fake =>
    intro other hle
    have hother : other ≠ f := by
      rintro rfl
      rw [h.fresh_fake other hle] at hfake
      cases hfake
    exact (Keyed.put_other _ hother new).trans (h.fresh_fake other hle)
  case outputs => exact h.outputs
  case ended => exact hended
  case count => exact hcounted
  case no_fault => exact h.no_fault

/-! ## Getting and putting -/

theorem toNat_succ {refs : UInt16} (h : refs ≠ 0xffff) : (refs + 1).toNat = refs.toNat + 1 := by
  have hlt := refs.toNat_lt
  have hne : refs.toNat ≠ 65535 := fun heq => h (UInt16.toNat_inj.mp heq)
  rw [UInt16.toNat_add]
  exact Nat.mod_eq_of_lt (by simp only [UInt16.toNat_one]; omega)

theorem toNat_pred {refs : UInt16} (h : refs ≠ 0) : (refs - 1).toNat = refs.toNat - 1 := by
  have hpos : 0 < refs.toNat := Nat.pos_of_ne_zero fun heq => h (UInt16.toNat_inj.mp heq)
  exact UInt16.toNat_sub_of_le refs 1 (UInt16.le_iff_toNat_le.mpr hpos)

theorem getFakeAnalyCtx_eq (hfake : state.fakes f = some fake)
    (hctx : state.ctxs fake.ctx = some ctx)
    (hfits : fake.refs ≠ 0xffff) (hroom : fake.refs = 0 → ctx.refs ≠ 0xffff) :
    getFakeAnalyCtx state f = { state with
      fakes := state.fakes.put f { fake with refs := fake.refs + 1 }
      ctxs := state.ctxs.put fake.ctx
        { ctx with refs := if fake.refs = 0 then ctx.refs + 1 else ctx.refs } } := by
  unfold getFakeAnalyCtx
  rw [hfake]
  dsimp only
  rw [State.faultIf_neg hfits]
  by_cases hzero : fake.refs = 0
  case pos =>
    rw [if_pos hzero, if_pos hzero]
    unfold getAnalyCtx
    rw [hctx]
    dsimp only
    rw [State.faultIf_neg (hroom hzero)]
  case neg => rw [if_neg hzero, if_neg hzero, Keyed.put_self hctx]

/-- A reference that is got is held. -/
theorem Counted.get (h : Counted holds state) (hfake : state.fakes f = some fake)
    (hfits : fake.refs ≠ 0xffff)
    (hroom : fake.refs = 0 → ∀ ctx, state.ctxs fake.ctx = some ctx → ctx.refs ≠ 0xffff) :
    Counted (Function.update holds f (holds f + 1)) (getFakeAnalyCtx state f) := by
  obtain ⟨ctx, hctx⟩ := h.home f fake hfake
  have hroom' : fake.refs = 0 → ctx.refs ≠ 0xffff := fun hzero => hroom hzero ctx hctx
  rw [getFakeAnalyCtx_eq hfake hctx hfits hroom']
  refine Counted.recount { fake with refs := fake.refs + 1 }
    { ctx with refs := if fake.refs = 0 then ctx.refs + 1 else ctx.refs } h hfake hctx
      ⟨rfl, ?_⟩ rfl rfl
    ?_ rfl rfl
  · rw [← h.fake_refs f fake hfake]
    exact toNat_succ hfits
  · by_cases hzero : fake.refs = 0
    case pos =>
      have hheld := (h.refs_zero hfake).mp hzero
      rw [if_pos hzero, toNat_succ (hroom' hzero), hheld]
      simp
    case neg =>
      have hheld := mt (h.refs_zero hfake).mpr hzero
      simp [hzero, hheld]

theorem putFakeAnalyCtx_eq (hfake : state.fakes f = some fake)
    (hctx : state.ctxs fake.ctx = some ctx) (hheld : fake.refs ≠ 0) (hcounted : ctx.refs ≠ 0) :
    putFakeAnalyCtx state f = { state with
      fakes := state.fakes.put f { fake with refs := fake.refs - 1 }
      ctxs := state.ctxs.put fake.ctx
        { ctx with refs := if fake.refs - 1 = 0 then ctx.refs - 1 else ctx.refs } } := by
  unfold putFakeAnalyCtx
  rw [hfake]
  dsimp only
  rw [State.faultIf_neg hheld]
  by_cases hzero : fake.refs - 1 = 0
  case pos =>
    rw [if_pos hzero, if_pos hzero]
    unfold putAnalyCtx
    dsimp only
    rw [hctx]
    dsimp only
    rw [State.faultIf_neg hcounted]
  case neg => rw [if_neg hzero, if_neg hzero, Keyed.put_self hctx]

theorem Counted.ctx_held (h : Counted holds state) (hfake : state.fakes f = some fake)
    (hctx : state.ctxs fake.ctx = some ctx) (hheld : holds f ≠ 0) : ctx.refs ≠ 0 := by
  intro hzero
  have hcount := h.ctx_refs _ ctx hctx
  have hpos : 0 < ctx.fakes.countP fun f => holds f != 0 :=
    List.countP_pos_iff.mpr ⟨f, (h.member _ ctx hctx f).mpr ⟨fake, hfake, rfl⟩, by
      simpa using hheld⟩
  rw [hzero] at hcount
  rw [← hcount] at hpos
  cases hpos

/-- A reference that is put is held no longer. -/
theorem Counted.put (h : Counted holds state) (hheld : holds f ≠ 0) :
    Counted (Function.update holds f (holds f - 1)) (putFakeAnalyCtx state f) := by
  obtain ⟨fake, hfake⟩ := Option.ne_none_iff_exists'.mp (mt (h.unheld f) hheld)
  obtain ⟨ctx, hctx⟩ := h.home f fake hfake
  have hrefs := mt (h.refs_zero hfake).mp hheld
  have hcounted := h.ctx_held hfake hctx hheld
  rw [putFakeAnalyCtx_eq hfake hctx hrefs hcounted]
  have hpred : (fake.refs - 1).toNat = holds f - 1 := by
    rw [toNat_pred hrefs, h.fake_refs f fake hfake]
  have hlast : fake.refs - 1 = 0 ↔ holds f - 1 = 0 := by
    rw [← hpred, ← UInt16.toNat_inj]
    rfl
  refine Counted.recount { fake with refs := fake.refs - 1 }
    { ctx with refs := if fake.refs - 1 = 0 then ctx.refs - 1 else ctx.refs } h hfake hctx
    ⟨rfl, hpred⟩ rfl rfl ?_ rfl rfl
  have hpos : ctx.refs.toNat ≠ 0 := fun heq => hcounted (UInt16.toNat_inj.mp heq)
  by_cases hzero : fake.refs - 1 = 0
  case pos =>
    rw [if_pos hzero, toNat_pred hcounted]
    simp only [hlast.mp hzero, bne_self_eq_false, Bool.false_eq_true, if_false,
      bne_iff_ne, ne_eq, hheld,
      not_false_eq_true, if_true]
    omega
  case neg =>
    have hmore := mt hlast.mpr hzero
    simp [hzero, hheld, hmore]

/-! ## Allocating and freeing -/

section

variable (h : Counted holds state)
include h

theorem Counted.withFake (hctx : state.ctxs c = some ctx) (key : UInt64) :
    Counted holds (state.withFake key c ctx) := by
  have hfresh := h.fresh_fake state.nextFake le_rfl
  have hheld := h.unheld state.nextFake hfresh
  have hnone : state.nextFake ∉ ctx.fakes := by
    intro hmem
    obtain ⟨fake, hfake, -⟩ := (h.member c ctx hctx _).mp hmem
    rw [hfresh] at hfake
    cases hfake
  have hsome := isSome_put hctx { ctx with fakes := ctx.fakes ++ [state.nextFake] }
  obtain ⟨hfreshCtx, hended, hcounted⟩ := h.alive hsome
  constructor
  case fake_refs => exact Keyed.put_forall hheld.symm fun f fake _ hold => h.fake_refs f fake hold
  case ctx_refs =>
    refine Keyed.put_forall ?_ fun other found _ hold => h.ctx_refs other found hold
    dsimp only
    rw [h.ctx_refs _ ctx hctx, List.countP_append, List.countP_singleton, hheld]
    rfl
  case nodup =>
    refine Keyed.put_forall ?_ fun other found _ hold => h.nodup other found hold
    exact List.nodup_append.mpr ⟨h.nodup _ ctx hctx, List.nodup_singleton _, fun f hf g hg heq =>
      hnone (List.mem_singleton.mp hg ▸ heq ▸ hf)⟩
  case member =>
    intro other found hfound f
    by_cases hf : f = state.nextFake
    case pos =>
      subst hf
      obtain ⟨rfl, rfl⟩ | ⟨hother, hold⟩ := Keyed.put_cases hfound
      · simp [State.withFake]
      · have habsent : state.nextFake ∉ found.fakes := by
          intro hmem
          obtain ⟨fake, hfake, -⟩ := (h.member other found hold _).mp hmem
          rw [hfresh] at hfake
          cases hfake
        simp [State.withFake, habsent, Ne.symm hother]
    case neg =>
      have hsame : (state.withFake key c ctx).fakes f = state.fakes f := Keyed.put_other _ hf _
      rw [hsame]
      obtain ⟨rfl, rfl⟩ | ⟨-, hold⟩ := Keyed.put_cases hfound
      · rw [← h.member _ ctx hctx f]
        simp [hf]
      · exact h.member other found hold f
  case home =>
    intro f fake hfake
    refine Option.isSome_iff_exists.mp ((hsome _).trans ?_)
    obtain ⟨rfl, rfl⟩ | ⟨-, hold⟩ := Keyed.put_cases hfake
    · rw [hctx]
      rfl
    · exact Option.isSome_iff_exists.mpr (h.home f fake hold)
  case unheld =>
    intro f hf
    by_cases heq : f = state.nextFake
    case pos => rw [heq, hheld]
    case neg => exact h.unheld f ((Keyed.put_other _ heq _).symm.trans hf)
  case fresh_ctx => exact hfreshCtx
  case fresh_fake =>
    intro f hle
    have hle : state.nextFake + 1 ≤ f := hle
    exact (Keyed.put_other _ (by omega) _).trans (h.fresh_fake f (by omega))
  case outputs => exact h.outputs
  case ended => exact hended
  case count => exact hcounted
  case no_fault => exact h.no_fault

theorem Counted.alloc (hctx : state.ctxs c = some ctx) (hroom : ctx.refs ≠ 0xffff) (key : UInt64) :
    Counted (Function.update holds state.nextFake 1) (analyFakeCtxAlloc state key c) := by
  have hfresh := h.fresh_fake state.nextFake le_rfl
  have hheld := h.unheld state.nextFake hfresh
  have hfits : (0 : UInt16) ≠ 0xffff := by decide
  have hgot := (h.withFake hctx key).get (Keyed.put_same state.fakes state.nextFake _) hfits
    fun _ found hfound => by
      rw [show (state.withFake key c ctx).ctxs c =
        some { ctx with fakes := ctx.fakes ++ [state.nextFake] }
        from Keyed.put_same _ _ _] at hfound
      obtain rfl := Option.some.inj hfound
      exact hroom
  rw [hheld] at hgot
  unfold analyFakeCtxAlloc
  rw [hctx]
  exact hgot

theorem Counted.withCtx (hcount : state.ctxCount ≠ 0xffffffff) :
    Counted holds state.withCtx := by
  have hfresh := h.fresh_ctx state.nextCtx le_rfl
  have hempty : ∀ f fake, state.fakes f = some fake → fake.ctx ≠ state.nextCtx := by
    intro f fake hfake heq
    obtain ⟨ctx, hctx⟩ := h.home f fake hfake
    rw [heq, hfresh] at hctx
    cases hctx
  have hother : ∀ other, other ≠ state.nextCtx → state.withCtx.ctxs other = state.ctxs other :=
    fun other hne => Keyed.put_other _ hne _
  have hnew : state.withCtx.ctxs state.nextCtx = some { entries := [], fakes := [], refs := 0 } :=
    Keyed.put_same _ _ _
  constructor
  case fake_refs => exact h.fake_refs
  case ctx_refs => exact Keyed.put_forall rfl fun c ctx _ hold => h.ctx_refs c ctx hold
  case nodup => exact Keyed.put_forall List.nodup_nil fun c ctx _ hold => h.nodup c ctx hold
  case member =>
    refine Keyed.put_forall (fun f => ⟨fun hmem => (List.not_mem_nil hmem).elim, ?_⟩)
      fun c ctx _ hold => h.member c ctx hold
    rintro ⟨fake, hfake, heq⟩
    exact absurd heq (hempty f fake hfake)
  case home =>
    intro f fake hfake
    rw [hother _ (hempty f fake hfake)]
    exact h.home f fake hfake
  case unheld => exact h.unheld
  case fresh_ctx =>
    intro c hle
    have hle : state.nextCtx + 1 ≤ c := hle
    rw [hother c (by omega)]
    exact h.fresh_ctx c (by omega)
  case fresh_fake => exact h.fresh_fake
  case outputs => exact h.outputs
  case ended =>
    intro c
    refine (h.ended c).trans ?_
    have hlt : c < state.withCtx.nextCtx ↔ c < state.nextCtx ∨ c = state.nextCtx :=
      Nat.lt_succ_iff_lt_or_eq
    rw [hlt]
    by_cases hc : c = state.nextCtx
    case pos => simp [hc, hnew]
    case neg => simp [hc, hother c hc]
  case count =>
    have hlt := state.ctxCount.toNat_lt
    have hne : state.ctxCount.toNat ≠ 4294967295 := fun heq => hcount (UInt32.toNat_inj.mp heq)
    have hsucc : (state.ctxCount + 1).toNat = state.ctxCount.toNat + 1 := by
      rw [UInt32.toNat_add]
      exact Nat.mod_eq_of_lt (by simp only [UInt32.toNat_one]; omega)
    have hrange : (List.range state.nextCtx).countP (fun c => (state.withCtx.ctxs c).isSome) =
        (List.range state.nextCtx).countP fun c => (state.ctxs c).isSome := by
      refine List.countP_congr fun c hc => ?_
      rw [hother c (Nat.ne_of_lt (List.mem_range.mp hc))]
    calc (state.ctxCount + 1).toNat
        = (List.range state.nextCtx).countP (fun c => (state.withCtx.ctxs c).isSome) + 1 := by
          rw [hsucc, h.count, hrange]
      _ = (List.range (state.nextCtx + 1)).countP fun c => (state.withCtx.ctxs c).isSome := by
          rw [List.range_succ, List.countP_append, List.countP_singleton, hnew]
          rfl
  case no_fault => exact h.no_fault

theorem Counted.alloc_ctx (hcount : state.ctxCount ≠ 0xffffffff) (key : UInt64) :
    Counted (Function.update holds state.nextFake 1) (analyCtxAlloc state key) := by
  have hctx : state.withCtx.ctxs state.nextCtx = some { entries := [], fakes := [], refs := 0 } :=
    Keyed.put_same _ _ _
  have halloc := (h.withCtx hcount).alloc hctx (by decide) key
  unfold analyCtxAlloc
  rw [State.faultIf_neg hcount]
  exact halloc

/-- Adding an entry to a context leaves its references. -/
theorem Counted.addEntry (hctx : state.ctxs c = some ctx) (event : EntryEvent) :
    Counted holds (addEntry state event c) := by
  have hsome := isSome_put hctx { ctx with entries := ctx.entries ++ [event] }
  have hback :
      ∀ other found, (state.ctxs.put c { ctx with entries := ctx.entries ++ [event] }) other =
      some found → ∃ old, state.ctxs other = some old ∧ found.refs = old.refs ∧
        found.fakes = old.fakes :=
    Keyed.put_forall ⟨ctx, hctx, rfl, rfl⟩ fun _ found _ hold => ⟨found, hold, rfl, rfl⟩
  obtain ⟨hfreshCtx, hended, hcounted⟩ := h.alive hsome
  unfold Analysis.addEntry
  rw [hctx]
  constructor
  case fake_refs => exact h.fake_refs
  case ctx_refs =>
    intro other found hfound
    obtain ⟨old, hold, hrefs, hfakes⟩ := hback other found hfound
    rw [hrefs, hfakes]
    exact h.ctx_refs other old hold
  case nodup =>
    intro other found hfound
    obtain ⟨old, hold, -, hfakes⟩ := hback other found hfound
    rw [hfakes]
    exact h.nodup other old hold
  case member =>
    intro other found hfound
    obtain ⟨old, hold, -, hfakes⟩ := hback other found hfound
    rw [hfakes]
    exact h.member other old hold
  case home =>
    intro f fake hfake
    exact Option.isSome_iff_exists.mp ((hsome _).trans
      (Option.isSome_iff_exists.mpr (h.home f fake hfake)))
  case unheld => exact h.unheld
  case fresh_ctx => exact hfreshCtx
  case fresh_fake => exact h.fresh_fake
  case outputs => exact h.outputs
  case ended => exact hended
  case count => exact hcounted
  case no_fault => exact h.no_fault

end

theorem analyCtxOutput_eq (hpending : ∀ entry ∈ state.pending, entry.ctx ≠ c) :
    analyCtxOutput state c ctx = { state with
      ctxs := state.ctxs.remove c
      fakes := ctx.fakes.foldl Keyed.remove state.fakes
      ctxCount := state.ctxCount - 1
      outputs := state.outputs ++ [{ ctx := c, entries := ctx.entries }] } := by
  have hnone : ¬∃ entry ∈ state.pending, entry.ctx = c := fun ⟨entry, hmem, heq⟩ =>
    hpending entry hmem heq
  have hkept : (state.pending.filter fun entry => entry.ctx ≠ c) = state.pending :=
    List.filter_eq_self.mpr fun entry hmem => by simpa using hpending entry hmem
  unfold analyCtxOutput
  dsimp only
  rw [State.faultIf_neg hnone, hkept]

/-- A context without references is output and freed. -/
theorem Counted.output (h : Counted holds state) (hctx : state.ctxs c = some ctx)
    (hzero : ctx.refs = 0) (hpending : ∀ entry ∈ state.pending, entry.ctx ≠ c) :
    Counted holds (analyCtxOutput state c ctx) := by
  rw [analyCtxOutput_eq hpending]
  have hlt : c < state.nextCtx := by
    by_contra hle
    rw [h.fresh_ctx c (Nat.le_of_not_lt hle)] at hctx
    cases hctx
  have hfakes := Keyed.foldl_remove_apply ctx.fakes state.fakes
  have hkept : ∀ f fake, (ctx.fakes.foldl Keyed.remove state.fakes) f = some fake →
      state.fakes f = some fake ∧ fake.ctx ≠ c := by
    intro f fake hfake
    rw [hfakes] at hfake
    split at hfake
    case isTrue => cases hfake
    case isFalse hmem =>
      exact ⟨hfake, fun heq => hmem ((h.member c ctx hctx f).mpr ⟨fake, hfake, heq⟩)⟩
  have hstays : ∀ f fake, state.fakes f = some fake → fake.ctx ≠ c →
      (ctx.fakes.foldl Keyed.remove state.fakes) f = some fake := by
    intro f fake hfake hne
    rw [hfakes, if_neg]
    · exact hfake
    · intro hmem
      obtain ⟨found, hfound, heq⟩ := (h.member c ctx hctx f).mp hmem
      rw [hfake] at hfound
      exact hne (Option.some.inj hfound ▸ heq)
  have hunheld : ∀ f ∈ ctx.fakes, holds f = 0 := by
    intro f hmem
    have hcount := h.ctx_refs c ctx hctx
    rw [hzero] at hcount
    have hnone := List.countP_eq_zero.mp hcount.symm f hmem
    simpa using hnone
  constructor
  case fake_refs => exact fun f fake hfake => h.fake_refs f fake (hkept f fake hfake).1
  case ctx_refs =>
    exact fun other found hfound => h.ctx_refs other found (Keyed.remove_cases hfound).2
  case nodup => exact fun other found hfound => h.nodup other found (Keyed.remove_cases hfound).2
  case member =>
    intro other found hfound f
    obtain ⟨hother, hold⟩ := Keyed.remove_cases hfound
    rw [h.member other found hold f]
    constructor
    · rintro ⟨fake, hfake, rfl⟩
      exact ⟨fake, hstays f fake hfake hother, rfl⟩
    · rintro ⟨fake, hfake, rfl⟩
      exact ⟨fake, (hkept f fake hfake).1, rfl⟩
  case home =>
    intro f fake hfake
    obtain ⟨hold, hne⟩ := hkept f fake hfake
    rw [Keyed.remove_other _ hne]
    exact h.home f fake hold
  case unheld =>
    intro f hnone
    by_cases hmem : f ∈ ctx.fakes
    case pos => exact hunheld f hmem
    case neg =>
      rw [hfakes, if_neg hmem] at hnone
      exact h.unheld f hnone
  case fresh_ctx =>
    intro other hle
    have hle : state.nextCtx ≤ other := hle
    rw [Keyed.remove_other _ (by omega)]
    exact h.fresh_ctx other hle
  case fresh_fake =>
    intro f hle
    rw [hfakes]
    split
    case isTrue => rfl
    case isFalse => exact h.fresh_fake f hle
  case outputs =>
    dsimp only
    rw [List.map_append, List.map_singleton]
    refine List.nodup_append.mpr ⟨h.outputs, List.nodup_singleton _,
      fun first hfirst second hsecond heq => ?_⟩
    obtain rfl := List.mem_singleton.mp hsecond
    rw [heq, h.ended, hctx] at hfirst
    cases hfirst.2
  case ended =>
    intro other
    dsimp only
    rw [List.map_append, List.map_singleton, List.mem_append, h.ended, List.mem_singleton]
    by_cases hother : other = c
    case pos => simp [hother, hlt]
    case neg => simp [hother, Keyed.remove_other]
  case count =>
    have hchange :=
      @Table.countP_change _ (List.range state.nextCtx) (fun c => (state.ctxs c).isSome)
      (fun other => ((state.ctxs.remove c) other).isSome) c List.nodup_range
        (List.mem_range.mpr hlt)
      fun other hother => by rw [Keyed.remove_other _ hother]
    simp only [hctx, Keyed.remove_same, Option.isSome_some, Option.isSome_none, if_true,
      Bool.false_eq_true,
      if_false, ← h.count] at hchange
    dsimp only
    rw [UInt32.toNat_sub_of_le _ _ (UInt32.le_iff_toNat_le.mpr
      (by simp only [UInt32.toNat_one]; omega)),
      UInt32.toNat_one]
    omega
  case no_fault => exact h.no_fault

end Anettrace.Analysis
