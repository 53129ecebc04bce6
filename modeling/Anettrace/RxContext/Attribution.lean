import Anettrace.RxContext.Conservation
import Anettrace.Shared.Trace

/-!
# Every owner has a proof

`Sourced` says where the contents of the quarantine come from: slots hold the evidence of direct
records, and the list holds pending records. `step_sourced` carries it over one call and says what
each effect is made of. The soundness of attribution follows over every sequence of calls, and, with
the test `perfetto_export_event` makes, the identity of every owner it lends.
-/

namespace Anettrace.RxContext

open Library.Run

variable {limits : Limits}

/-- A record that can prove an owner when it is fed. -/
def Proves (detail : DetailEvent) : Prop :=
  detail.ownerPending = 0 ∧ isInstance detail = true ∧ isDirect detail = true

/-- A record that can wait in the list when it is fed. -/
def Waits (detail : DetailEvent) : Prop :=
  detail.ownerPending ≠ 0 ∧ isInstance detail = true

/-- The slots hold evidence of direct records that satisfy `proof`, and the list holds pending
records that satisfy `waiting`. -/
structure Sourced (proof : DetailEvent → Prop) (waiting : Int → Sample → Prop) (state : State) :
    Prop where
  owners : ∀ slot, state.owners slot = Owner.zero ∨
    ∃ detail, proof detail ∧ Proves detail ∧ state.owners slot = evidenceOf detail
  queue : ∀ entry ∈ state.queue, waiting entry.cpu entry.sample ∧ Waits entry.sample.detail

/-- An effect passes the record its call feeds, or lends the owner of a direct record that
matches. -/
def Effect.Justified (limits : Limits) (proof : DetailEvent → Prop) (waiting : Int → Sample → Prop)
    (call : Call) : Effect → Prop
  | .pass cpu sample => (∃ memory, call = .feed cpu sample memory) ∧ sample.detail.ownerPending = 0
  | .replay cpu sample owner => waiting cpu sample ∧ Waits sample.detail ∧
      ∃ detail, proof detail ∧ Proves detail ∧ owner = evidenceOf detail ∧
        matchesOwner limits sample.detail owner = true
  | .drop .. => True

variable {proof : DetailEvent → Prop} {waiting : Int → Sample → Prop}

theorem Sourced.init : Sourced proof waiting State.init where
  owners := fun _ => Or.inl rfl
  queue := by simp [State.init]

/-- Weaker descriptions of the sources. -/
theorem Sourced.mono {proof' : DetailEvent → Prop} {waiting' : Int → Sample → Prop} {state : State}
    (h : Sourced proof waiting state) (hproof : ∀ detail, proof detail → proof' detail)
    (hwaiting : ∀ cpu sample, waiting cpu sample → waiting' cpu sample) :
    Sourced proof' waiting' state where
  owners := by
    intro slot
    rcases h.owners slot with hzero | ⟨detail, hdetail, hproves, heq⟩
    · exact Or.inl hzero
    · exact Or.inr ⟨detail, hproof detail hdetail, hproves, heq⟩
  queue := by
    intro entry hentry
    obtain ⟨hwaits, hpending⟩ := h.queue entry hentry
    exact ⟨hwaiting _ _ hwaits, hpending⟩

/-- Losing nodes loses no source. -/
theorem Sourced.sublist {state next : State} (h : Sourced proof waiting state)
    (hqueue : next.queue.Sublist state.queue)
    (howners : next.owners = state.owners) : Sourced proof waiting next where
  owners := by
    rw [howners]
    exact h.owners
  queue := fun entry hentry => h.queue entry (hqueue.subset hentry)

theorem matchesOwner_zero {detail : DetailEvent} (hinstance : isInstance detail = true) :
    matchesOwner limits detail Owner.zero = false := by
  refine Bool.eq_false_iff.mpr fun hmatch => ?_
  obtain ⟨hkey, -⟩ := matchesOwner_iff.mp hmatch
  simp only [isInstance, Bool.and_eq_true, bne_iff_ne] at hinstance
  exact hinstance.1.2 hkey.symm

/-- A record fed to a state with known sources. The case of evidence is the only one that changes a
slot, and the case of a queued record the only one that extends the list. -/
theorem Fed.sourced {state : State} {cpu : Int} {sample : Sample} {next : State × List Effect}
    (hfed : Fed limits state cpu sample next) (memory : Bool) (hinv : Inv limits state)
    (h : Sourced proof waiting state) (hproof : Proves sample.detail → proof sample.detail)
    (hwaiting : Waits sample.detail → waiting cpu sample) :
    Sourced proof waiting next.1 ∧
      ∀ effect ∈ next.2, effect.Justified limits proof waiting (.feed cpu sample memory) := by
  cases hfed with
  | unresolved => exact ⟨⟨h.owners, h.queue⟩, by simp [Effect.Justified]⟩
  | passed howned => exact ⟨h, by simp [Effect.Justified, howned]⟩
  | evidence howned hinstance hdirect owners howners next hnext =>
      have hreleased := evidence_released hinv (evidenceOf sample.detail) owners
      rw [← hnext] at hreleased
      have hproves : Proves sample.detail := ⟨howned, hinstance, hdirect⟩
      have hframe := hreleased.frame
      simp only [frame, Prod.mk.injEq] at hframe
      have hqueue : next.1.queue.Sublist state.queue := by
        rw [hreleased.queue, List.nil_append]
        exact List.filter_sublist
      refine ⟨⟨?_, fun entry hentry => h.queue entry (hqueue.subset hentry)⟩, ?_⟩
      · intro slot
        rw [hframe.1]
        rcases howners with rfl | rfl
        · exact h.owners slot
        · by_cases hslot : slot = slotOf limits sample.detail
          · rw [hslot, Function.update_self]
            exact Or.inr ⟨sample.detail, hproof hproves, hproves, rfl⟩
          · rw [Function.update_of_ne hslot]
            exact h.owners slot
      · intro effect heffect
        rcases List.mem_append.mp heffect with hreplay | hpass
        · rw [hreleased.effects] at hreplay
          obtain ⟨entry, hentry, rfl⟩ := List.mem_map.mp hreplay
          obtain ⟨hmem, hmatch⟩ := List.mem_filter.mp hentry
          obtain ⟨hwaits, hpending⟩ := h.queue entry hmem
          exact ⟨hwaits, hpending, sample.detail, hproof hproves, hproves, rfl, hmatch⟩
        · rw [List.mem_singleton.mp hpass]
          exact ⟨⟨memory, rfl⟩, howned⟩
  | refused _ _ cause =>
      refine ⟨⟨?_, ?_⟩, by simp [Effect.Justified]⟩
      · cases cause <;> exact h.owners
      · cases cause <;> exact h.queue
  | matched hpending hinstance hmatch =>
      refine ⟨⟨h.owners, h.queue⟩, ?_⟩
      intro effect heffect
      rw [List.mem_singleton.mp heffect]
      rcases h.owners (slotOf limits sample.detail) with hzero | ⟨detail, hdetail, hproves, heq⟩
      · rw [hzero, matchesOwner_zero hinstance] at hmatch
        exact absurd hmatch (by decide)
      · exact ⟨hwaiting ⟨hpending, hinstance⟩, ⟨hpending, hinstance⟩, detail, hdetail, hproves, heq,
          hmatch⟩
  | queued hpending hinstance _ hroom next hnext =>
      have hallocated := hinv.toListed.allocate
      obtain ⟨⟨gone, hgone⟩, -⟩ := evict_dropped hallocated hroom
      rw [← hnext] at hgone
      have hinserted := insert_inserted (hallocated.dropped hgone) ⟨state.allocated, cpu, sample⟩
      have hdropped := hgone.frame
      have hframe := hinserted.frame
      simp only [frame, Prod.mk.injEq] at hdropped hframe
      refine ⟨⟨?_, ?_⟩, ?_⟩
      · intro slot
        rw [hframe.1, hdropped.1]
        exact h.owners slot
      · intro entry hentry
        rcases List.mem_cons.mp (hinserted.perm.mem_iff.mp hentry) with rfl | hmem
        · exact ⟨hwaiting ⟨hpending, hinstance⟩, hpending, hinstance⟩
        · refine h.queue entry ?_
          rw [show state.queue = gone ++ next.1.queue from hgone.queue]
          exact List.mem_append_right _ hmem
      · intro effect heffect
        rw [hgone.effects] at heffect
        obtain ⟨entry, _, rfl⟩ := List.mem_map.mp heffect
        trivial

/-- The record a call feeds satisfies the descriptions of the sources. -/
def Call.Supplies (proof : DetailEvent → Prop) (waiting : Int → Sample → Prop) : Call → Prop
  | .feed cpu sample _ => (Proves sample.detail → proof sample.detail) ∧
      (Waits sample.detail → waiting cpu sample)
  | _ => True

theorem step_sourced {state : State} {call : Call} (hinv : Inv limits state)
    (h : Sourced proof waiting state) (hcall : call.Supplies proof waiting) :
    Sourced proof waiting (step limits state call).1 ∧
      ∀ effect ∈ (step limits state call).2, effect.Justified limits proof waiting call := by
  have hexpire : ∀ timestamp, Sourced proof waiting (expire limits state timestamp).1 ∧
      ∀ effect ∈ (expire limits state timestamp).2, effect.Justified limits proof waiting call := by
    intro timestamp
    obtain ⟨gone, hexpired⟩ := expire_expired hinv.toListed timestamp
    have hqueue := hexpired.dropped.queue
    rw [raised_queue] at hqueue
    refine ⟨h.sublist (hqueue ▸ List.sublist_append_right _ _) hexpired.owners, ?_⟩
    intro effect heffect
    rw [hexpired.dropped.effects] at heffect
    obtain ⟨entry, _, rfl⟩ := List.mem_map.mp heffect
    trivial
  cases call with
  | feed cpu sample memory =>
      by_cases hsize : limits.detailSize ≤ sample.size.toNat
      case neg =>
        rw [step, feed, if_pos (Nat.not_le.mp hsize)]
        exact ⟨h, by simp⟩
      case pos =>
        obtain ⟨next, hfed, hnext⟩ := feed_fed state cpu sample memory hsize
        obtain ⟨hsourced, hdropped⟩ := hexpire sample.detail.ts
        obtain ⟨hsourced', hjustified⟩ := hfed.sourced memory
          (expire_inv hinv.toListed sample.detail.ts) hsourced hcall.1 hcall.2
        rw [step, hnext]
        refine ⟨hsourced', ?_⟩
        intro effect heffect
        rcases List.mem_append.mp heffect with hold | hnew
        · exact hdropped effect hold
        · exact hjustified effect hnew
  | expire timestamp => exact hexpire timestamp
  | finish =>
      obtain ⟨gone, next, hgone, _, hfinish⟩ := finish_dropped hinv
      rw [step, hfinish]
      refine ⟨⟨fun _ => Or.inl rfl, ?_⟩, ?_⟩
      · intro entry hentry
        refine h.queue entry ?_
        rw [hgone.queue]
        exact List.mem_append_right _ hentry
      · intro effect heffect
        rw [hgone.effects] at heffect
        obtain ⟨entry, _, rfl⟩ := List.mem_map.mp heffect
        trivial

/-! ## Every sequence of calls -/

/-- The direct records a sequence of calls feeds. -/
def fedProof (calls : List Call) (detail : DetailEvent) : Prop :=
  ∃ cpu sample memory, Call.feed cpu sample memory ∈ calls ∧ sample.detail = detail

def fedRecord (calls : List Call) (cpu : Int) (sample : Sample) : Prop :=
  ∃ memory, Call.feed cpu sample memory ∈ calls

theorem supplies_concat (calls : List Call) (call : Call) :
    call.Supplies (fedProof (calls ++ [call])) (fedRecord (calls ++ [call])) := by
  cases call with
  | feed cpu sample memory =>
      exact ⟨fun _ => ⟨cpu, sample, memory, by simp, rfl⟩, fun _ => ⟨memory, by simp⟩⟩
  | expire => trivial
  | finish => trivial

/-- After every sequence of calls the contents of the quarantine come from records of the
sequence. -/
theorem quarantine_sourced (limits : Limits) (calls : List Call) :
    Sourced (fedProof calls) (fedRecord calls) (quarantine limits calls).1 := by
  induction calls using List.reverseRecOn with
  | nil => exact .init
  | append_singleton calls call ih =>
      rw [quarantine_concat]
      refine (step_sourced (quarantine_inv limits calls) (ih.mono ?_ ?_)
        (supplies_concat calls call)).1
      · rintro detail ⟨cpu, sample, memory, hmem, heq⟩
        exact ⟨cpu, sample, memory, List.mem_append_left _ hmem, heq⟩
      · rintro cpu sample ⟨memory, hmem⟩
        exact ⟨memory, List.mem_append_left _ hmem⟩

/-- After every sequence of calls the effects of the next one come from records of the sequence or
from its own. -/
theorem quarantine_justified (limits : Limits) (calls : List Call) (call : Call) :
    ∀ effect ∈ (step limits (quarantine limits calls).1 call).2,
      effect.Justified limits (fedProof (calls ++ [call])) (fedRecord (calls ++ [call])) call := by
  refine (step_sourced (quarantine_inv limits calls) ((quarantine_sourced limits calls).mono ?_ ?_)
    (supplies_concat calls call)).2
  · rintro detail ⟨cpu, sample, memory, hmem, heq⟩
    exact ⟨cpu, sample, memory, List.mem_append_left _ hmem, heq⟩
  · rintro cpu sample ⟨memory, hmem⟩
    exact ⟨memory, List.mem_append_left _ hmem⟩

/-! ## The exporter in front of the quarantine -/

def perfettoExportEvent (context : TraceContext) (limits : Limits) (state : State) (cpu : Int)
    (sample : Sample) (memory : Bool) : State × List Effect :=
  let detail := sample.detail
  if limits.detailSize ≤ sample.size.toNat ∧ detail.metaType = .func ∧
      (detail.ownerPending ≠ 0 ∨ detail.ownerEvidence = 1) then
    match context.getTrace detail.func with
    | none => (state, [])
    | some trace =>
        if trace.usingSk then (state, [])
        else if !context.rxContext ∨ !context.uidEnabled ∨ context.pid ≠ 0 then (state, [])
        else if detail.ownerPending = 0 ∧ (detail.ownerValid = 0 ∨
          context.uid ≠ detail.ownerUid) then
          (state, [])
        else feed limits state cpu sample memory
  else (state, [.pass cpu sample])

/-- What reaches the quarantine from the exporter: records, ticks of its clock and its end. -/
inductive ExportCall where
  | event (cpu : Int) (sample : Sample) (memory : Bool)
  | tick (now : UInt64)
  | close
  deriving DecidableEq

def exportStep (context : TraceContext) (limits : Limits) (state : State) :
    ExportCall → State × List Effect
  | .event cpu sample memory => perfettoExportEvent context limits state cpu sample memory
  | .tick now => if now ≠ 0 then expire limits state now else (state, [])
  | .close => finish limits state

/-- A call of the exporter is a call of the quarantine, or leaves it alone and lends nothing. The
direct records it feeds carry the configured user. -/
theorem exportStep_cases (context : TraceContext) (limits : Limits) (state : State)
    (call : ExportCall) :
    (∃ inner : Call, exportStep context limits state call = step limits state inner ∧
      inner.Supplies (fun detail => context.uidEnabled = true ∧ context.pid = 0 ∧
        detail.ownerUid = context.uid) fun _ _ => True) ∨
    ((exportStep context limits state call).1 = state ∧
      ∀ effect ∈ (exportStep context limits state call).2, effect.isReplay = false) := by
  cases call with
  | event cpu sample memory =>
      unfold exportStep perfettoExportEvent
      dsimp only
      split
      case isFalse => exact Or.inr ⟨rfl, by simp [Effect.isReplay]⟩
      split
      · exact Or.inr ⟨rfl, by simp⟩
      split
      · exact Or.inr ⟨rfl, by simp⟩
      split
      · exact Or.inr ⟨rfl, by simp⟩
      split
      · exact Or.inr ⟨rfl, by simp⟩
      · rename_i _ _ _ _ _ hargs howner
        refine Or.inl ⟨.feed cpu sample memory, rfl, ?_, fun _ => trivial⟩
        intro hproves
        simp only [Bool.not_eq_true', not_or, not_not, Bool.not_eq_false] at hargs
        refine ⟨hargs.2.1, hargs.2.2, ?_⟩
        by_contra huid
        exact howner ⟨hproves.1, Or.inr fun heq => huid heq.symm⟩
  | tick now =>
      unfold exportStep
      dsimp only
      split
      · exact Or.inl ⟨.expire now, rfl, trivial⟩
      · exact Or.inr ⟨rfl, by simp⟩
  | close => exact Or.inl ⟨.finish, rfl, trivial⟩

/-- The quarantine and the effects a run of the exporter reaches. -/
def exported (context : TraceContext) (limits : Limits) (calls : List ExportCall) :
    State × List Effect :=
  run (logged (exportStep context limits)) (State.init, []) calls

/-- Every owner the exporter lends belongs to the configured user. -/
theorem exported_uid (context : TraceContext) (limits : Limits) (calls : List ExportCall) :
    Inv limits (exported context limits calls).1 ∧
      Sourced (fun detail => context.uidEnabled = true ∧ context.pid = 0 ∧
        detail.ownerUid = context.uid) (fun _ _ => True) (exported context limits calls).1 ∧
      ∀ cpu sample owner, Effect.replay cpu sample owner ∈ (exported context limits calls).2 →
        context.uidEnabled = true ∧ context.pid = 0 ∧ owner.uid = context.uid := by
  induction calls using List.reverseRecOn with
  | nil => exact ⟨inv_init, .init, by simp [exported]⟩
  | append_singleton calls call ih =>
      obtain ⟨hinv, hsourced, hlog⟩ := ih
      unfold exported at hinv hsourced hlog ⊢
      rw [run_concat]
      generalize run (logged (exportStep context limits)) (State.init, []) calls = reached at *
      rcases exportStep_cases context limits reached.1 call with ⟨inner, hinner, hsupplies⟩ | hquiet
      · obtain ⟨hsourced', hjustified⟩ := step_sourced hinv hsourced hsupplies
        refine ⟨?_, ?_, ?_⟩
        · show Inv limits (exportStep context limits reached.1 call).1
          rw [hinner]
          exact step_inv hinv inner
        · show Sourced _ _ (exportStep context limits reached.1 call).1
          rw [hinner]
          exact hsourced'
        · intro cpu sample owner hmem
          rcases List.mem_append.mp hmem with hold | hnew
          · exact hlog cpu sample owner hold
          · rw [hinner] at hnew
            obtain ⟨_, _, detail, ⟨huid, hpid, hdetail⟩, _, heq, _⟩ := hjustified _ hnew
            refine ⟨huid, hpid, ?_⟩
            rw [heq]
            exact hdetail
      · refine ⟨?_, ?_, ?_⟩
        · show Inv limits (exportStep context limits reached.1 call).1
          rw [hquiet.1]
          exact hinv
        · show Sourced _ _ (exportStep context limits reached.1 call).1
          rw [hquiet.1]
          exact hsourced
        · intro cpu sample owner hmem
          rcases List.mem_append.mp hmem with hold | hnew
          · exact hlog cpu sample owner hold
          · exact absurd (hquiet.2 _ hnew) (by simp [Effect.isReplay])

/-! ## Soundness -/

/-- Every record a call emits is the record it feeds, which does not wait for an owner, or a pending
record fed before or now with the owner of a direct record fed before or now: same key, same nonzero
generation, received, and at most the window later. Nothing but the owner fields differs. When the
exporter feeds the quarantine, every owner lent belongs to the configured user. -/
theorem rx_attribution_sound (limits : Limits) :
    (∀ (calls : List Call) (call : Call),
      ∀ effect ∈ (step limits (quarantine limits calls).1 call).2,
      ∀ cpu record, effect.emitted = some (cpu, record) →
        ((∃ memory, call = .feed cpu record memory) ∧ record.detail.ownerPending = 0) ∨
        ∃ sample evidence : Sample,
          (∃ memory, Call.feed cpu sample memory ∈ calls ++ [call]) ∧
          (∃ cpu' memory, Call.feed cpu' evidence memory ∈ calls ++ [call]) ∧
          sample.detail.ownerPending ≠ 0 ∧ sample.detail.direction = .rx ∧
          evidence.detail.ownerPending = 0 ∧ evidence.detail.direction = .rx ∧
          evidence.detail.ownerEvidence = 1 ∧ evidence.detail.ownerValid ≠ 0 ∧
          evidence.detail.ownerSocketKey ≠ 0 ∧ evidence.detail.ownerSocketGeneration ≠ 0 ∧
          evidence.detail.key = sample.detail.key ∧
          evidence.detail.keyGeneration = sample.detail.keyGeneration ∧
          sample.detail.keyGeneration ≠ 0 ∧
          sample.detail.ts ≤ evidence.detail.ts ∧
          evidence.detail.ts.toNat ≤ sample.detail.ts.toNat + limits.windowNs ∧
          record = { sample with
            detail := { sample.detail with
              ownerPending := 0
              ownerEvidence := 2
              ownerValid := 1
              ownerSocketKey := evidence.detail.ownerSocketKey
              ownerSocketGeneration := evidence.detail.ownerSocketGeneration
              ownerTid := evidence.detail.ownerTid
              ownerTgid := evidence.detail.ownerTgid
              ownerUid := evidence.detail.ownerUid } }) ∧
    ∀ (context : TraceContext) (calls : List ExportCall),
      ∀ effect ∈ (exported context limits calls).2, effect.isReplay = true →
      ∀ cpu record, effect.emitted = some (cpu, record) →
        context.uidEnabled = true ∧ context.pid = 0 ∧ record.detail.ownerUid = context.uid := by
  constructor
  · intro calls call effect heffect cpu record hemitted
    have hjustified := quarantine_justified limits calls call effect heffect
    cases effect with
    | pass cpu' sample =>
        simp only [Effect.emitted, Option.some.injEq, Prod.mk.injEq] at hemitted
        obtain ⟨rfl, rfl⟩ := hemitted
        exact Or.inl hjustified
    | replay cpu' sample owner =>
        simp only [Effect.emitted, Option.some.injEq, Prod.mk.injEq] at hemitted
        obtain ⟨rfl, rfl⟩ := hemitted
        obtain ⟨hfed, ⟨hpending, hinstance⟩, detail, ⟨cpu'', evidence, memory, hmem, rfl⟩, hproves,
          rfl, hmatch⟩ := hjustified
        obtain ⟨howned, hreceived, hdirect⟩ := hproves
        obtain ⟨hkey, hgeneration, hle, hbound⟩ := matchesOwner_iff.mp hmatch
        simp only [isInstance, isDirect, Bool.and_eq_true, bne_iff_ne, beq_iff_eq] at *
        exact Or.inr ⟨sample, evidence, hfed, ⟨cpu'', memory, hmem⟩, hpending,
          hinstance.1.1, howned,
          hreceived.1.1, hdirect.1.1.1, hdirect.1.1.2, hdirect.1.2, hdirect.2, hkey, hgeneration,
          hinstance.2, hle, hbound, rfl⟩
    | drop cause cpu' sample => exact absurd hemitted (by simp [Effect.emitted])
  · intro context calls effect heffect hreplay cpu record hemitted
    cases effect with
    | pass => exact absurd hreplay (by simp [Effect.isReplay])
    | drop => exact absurd hreplay (by simp [Effect.isReplay])
    | replay cpu' sample owner =>
        simp only [Effect.emitted, Option.some.injEq, Prod.mk.injEq] at hemitted
        obtain ⟨rfl, rfl⟩ := hemitted
        exact (exported_uid context limits calls).2.2 cpu' sample owner heffect

end Anettrace.RxContext
