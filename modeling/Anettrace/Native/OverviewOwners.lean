import Anettrace.Export.Step
import Anettrace.Native.OverviewConservation

/-!
# Guessed sockets in the packet overview

When may a packet event without a socket of its own be mirrored? Not when two sockets were observed
for its packet close to it in time, nor when its slot met another packet close to it. The slot
remembers such evidence only by two flags and one moving timestamp: a later observation moves the
slot past the window of an event that still waits, and a slot that expired has forgotten what a late
event would need. `contested_packets_withheld` says that nothing else goes wrong.
-/

namespace Anettrace.Native

open Anettrace.Export Library.LinkedQueue Library.Run

/-! ## Evidence -/

def recordPacket (salt : UInt64) (detail : DetailEvent) : UInt64 :=
  packetId salt detail.ts detail.key detail.keyGeneration

def recordSlot (salt : UInt64) (detail : DetailEvent) : Nat :=
  ownerSlot salt (recordPacket salt detail) detail.direction

/-- The record and the event are about one packet, in one direction. -/
def SamePacket (salt : UInt64) (detail : DetailEvent) (pending : PendingPacket) : Prop :=
  recordPacket salt detail = pending.packetId ∧ detail.direction = pending.direction

/-- The record and the event are at most `NATIVE_OVERVIEW_WINDOW_NS` apart. -/
def CloseTo (detail : DetailEvent) (pending : PendingPacket) : Prop :=
  detail.ts.toNat ≤ pending.timestampNs.toNat + overviewWindowNs.toNat ∧
    pending.timestampNs.toNat ≤ detail.ts.toNat + overviewWindowNs.toNat

/-- The history holds evidence against any one socket of an event: two sockets of its packet, or
another packet in its slot, close to the event. -/
def Contested (salt : UInt64) (history : List Note) (pending : PendingPacket) : Prop :=
  (∃ first second, .observed first ∈ history ∧ .observed second ∈ history ∧
    SamePacket salt first pending ∧ SamePacket salt second pending ∧
    CloseTo first pending ∧ CloseTo second pending ∧
    ownerSocketId salt first ≠ ownerSocketId salt second) ∨
  ∃ other, .observed other ∈ history ∧ other.keyGeneration ≠ 0 ∧
    recordSlot salt other = pending.slot salt ∧ ¬ SamePacket salt other pending ∧
    CloseTo other pending

/-- The event was written without a mirror and, outside tags mode, counted as ambiguous or
unresolved. Tags mode makes no mirrors and counts nothing. -/
def Outcome.Withheld (session : Session) : Outcome → Prop
  | .mirrored _ => False
  | .ambiguous | .unresolved => True
  | .uncounted => session.traceTags = true

/-- No event without a socket of its own that is contested when it is flushed has a mirror. -/
def NoGuess (session : Session) (log : List Note) : Prop :=
  ∀ before pending outcome after, log = before ++ .flushed pending outcome :: after →
    pending.socketId = 0 → Contested session.salt before pending → outcome.Withheld session

/-- After the record was observed, and before the event was queued, a record of the slot arrived
more than the window later than it. -/
def Passed (salt : UInt64) (history : List Note) (detail : DetailEvent)
    (pending : PendingPacket) : Prop :=
  ∃ first second third fourth, ∃ record : DetailEvent,
    history = first ++ .observed detail :: second ++ .arrived record :: third ++
      .queued pending :: fourth ∧
    record.keyGeneration ≠ 0 ∧ recordSlot salt record = recordSlot salt detail ∧
    detail.ts.toNat + overviewWindowNs.toNat < record.ts.toNat

/-- The slot of an event neither moved past the event nor forgot what is close to it: before the
event is flushed, every record observed in the slot is tracked, has an identity other than 0, and is
at most the window later than the event; and no record close to the event had passed when the event
was queued. Timestamps leave room for the window. -/
structure Orderly (salt : UInt64) (history : List Note) (pending : PendingPacket) : Prop where
  fits : pending.timestampNs.toNat + overviewWindowNs.toNat < 2 ^ 64
  tracked : ∀ detail, .observed detail ∈ history → recordSlot salt detail = pending.slot salt →
    detail.keyGeneration ≠ 0 ∧ recordPacket salt detail ≠ 0 ∧
      detail.ts.toNat + overviewWindowNs.toNat < 2 ^ 64
  behind : ∀ detail, .observed detail ∈ history → recordSlot salt detail = pending.slot salt →
    detail.ts.toNat ≤ pending.timestampNs.toNat + overviewWindowNs.toNat
  kept : ∀ detail, .observed detail ∈ history → recordSlot salt detail = pending.slot salt →
    CloseTo detail pending → ¬ Passed salt history detail pending

/-! ## What a slot remembers -/

/-- What observing a record makes of its slot. -/
def enter (salt : UInt64) (owner : PacketOwner) (detail : DetailEvent) : PacketOwner :=
  owner.observe (recordPacket salt detail) (ownerSocketId salt detail) detail

/-- The slot of a packet, after records with identities other than 0 were observed in it. -/
structure Summary (salt : UInt64) (owner : PacketOwner) (memory : List DetailEvent) : Prop where
  held : memory ≠ [] → owner.packetId ≠ 0
  empty : memory = [] → owner = PacketOwner.zero
  reached : ∀ detail ∈ memory, detail.ts ≤ owner.timestampNs
  attained : memory ≠ [] → ∃ detail ∈ memory, owner.timestampNs = detail.ts
  collided : ∀ detail ∈ memory,
    owner.isOf (recordPacket salt detail) detail.direction = false → owner.collided = true
  socket : ∀ detail ∈ memory, owner.isOf (recordPacket salt detail) detail.direction = true →
    owner.ambiguous = true ∨ owner.socketId = ownerSocketId salt detail

/-- A slot, less the process of its socket. -/
def PacketOwner.evidence (owner : PacketOwner) : PacketOwner :=
  { owner with ownerTgid := 0 }

/-- A new timestamp is the later one, and changes nothing else. -/
theorem reach_spec (owner : PacketOwner) (ts : UInt64) :
    owner.timestampNs ≤ (owner.reach ts).timestampNs ∧ ts ≤ (owner.reach ts).timestampNs ∧
      ((owner.reach ts).timestampNs = owner.timestampNs ∨ (owner.reach ts).timestampNs = ts) ∧
      { owner.reach ts with timestampNs := 0 } = { owner with timestampNs := 0 } := by
  unfold PacketOwner.reach
  split
  case isTrue hlate => exact ⟨UInt64.le_of_lt hlate, UInt64.le_refl _, Or.inr rfl, rfl⟩
  case isFalse hearly => exact ⟨UInt64.le_refl _, UInt64.not_lt.mp hearly, Or.inl rfl, rfl⟩

section

variable {salt : UInt64} {owner : PacketOwner} {detail : DetailEvent}
  (hother : owner.isOf (recordPacket salt detail) detail.direction = false)
include hother

theorem enter_other (hheld : owner.packetId ≠ 0) :
    (enter salt owner detail).evidence =
      ({ owner with collided := true }.reach detail.ts).evidence := by
  unfold enter PacketOwner.observe
  rw [if_pos ⟨by simp [hother], hheld⟩]

/-- A free slot is taken. -/
theorem enter_free (hfree : owner.packetId = 0) :
    (enter salt owner detail).evidence =
      ({ PacketOwner.zero with
        packetId := recordPacket salt detail
        socketId := ownerSocketId salt detail
        direction := detail.direction }.reach detail.ts).evidence := by
  unfold enter PacketOwner.observe
  rw [if_neg (fun h => h.2 hfree)]
  dsimp only
  rw [if_pos (show (!owner.isOf (recordPacket salt detail) detail.direction) = true by
    simp [hother])]
  split <;> rfl

end

theorem enter_same {salt : UInt64} {owner : PacketOwner} {detail : DetailEvent}
    (hsame : owner.isOf (recordPacket salt detail) detail.direction = true) :
    (enter salt owner detail).evidence =
      ((if owner.socketId ≠ ownerSocketId salt detail then { owner with ambiguous := true }
        else owner).reach detail.ts).evidence := by
  unfold enter PacketOwner.observe
  rw [if_neg (fun h => by simp [hsame] at h)]
  dsimp only
  rw [if_neg (show ¬ (!owner.isOf (recordPacket salt detail) detail.direction) = true by
    simp [hsame])]
  split <;> split <;> rfl

/-- A summary does not depend on the process of the socket. -/
theorem Summary.of_evidence {salt : UInt64} {owner other : PacketOwner}
    {memory : List DetailEvent} (h : Summary salt owner memory) (hmemory : memory ≠ [])
    (hevidence : other.evidence = owner.evidence) : Summary salt other memory := by
  simp only [PacketOwner.evidence, PacketOwner.mk.injEq] at hevidence
  obtain ⟨hpacket, hsocket, hts, -, hdirection, hambiguous, hcollided⟩ := hevidence
  have hisOf (id : UInt64) (direction : Direction) :
      other.isOf id direction = owner.isOf id direction := by
    unfold PacketOwner.isOf
    rw [hpacket, hdirection]
  refine ⟨?_, fun hempty => absurd hempty hmemory, ?_, ?_, ?_, ?_⟩
  · rw [hpacket]
    exact h.held
  · rw [hts]
    exact h.reached
  · rw [hts]
    exact h.attained
  · intro detail hdetail
    rw [hisOf, hcollided]
    exact h.collided detail hdetail
  · intro detail hdetail
    rw [hisOf, hambiguous, hsocket]
    exact h.socket detail hdetail

/-- A later timestamp of a slot, from a record it remembers. -/
theorem Summary.reach {salt : UInt64} {owner : PacketOwner} {memory : List DetailEvent}
    {detail : DetailEvent} (hheld : owner.packetId ≠ 0)
    (hreached : ∀ other ∈ memory, other.ts ≤ owner.timestampNs)
    (hattained : (∃ other ∈ memory, owner.timestampNs = other.ts) ∨ owner.timestampNs = 0)
    (hcollided : ∀ other ∈ memory ++ [detail],
      owner.isOf (recordPacket salt other) other.direction = false → owner.collided = true)
    (hsocket : ∀ other ∈ memory ++ [detail],
      owner.isOf (recordPacket salt other) other.direction = true →
        owner.ambiguous = true ∨ owner.socketId = ownerSocketId salt other) :
    Summary salt (owner.reach detail.ts) (memory ++ [detail]) := by
  obtain ⟨hold, hnew, hchoice, hrest⟩ := reach_spec owner detail.ts
  generalize owner.reach detail.ts = after at *
  simp only [PacketOwner.mk.injEq] at hrest
  obtain ⟨hpacket, hsocketId, -, -, hdirection, hambiguous, hcollidedFlag⟩ := hrest
  have hisOf (id : UInt64) (direction : Direction) :
      after.isOf id direction = owner.isOf id direction := by
    unfold PacketOwner.isOf
    rw [hpacket, hdirection]
  refine ⟨fun _ => hpacket ▸ hheld, fun hempty => by simp at hempty, ?_, fun _ => ?_, ?_, ?_⟩
  · intro other hother
    rcases List.mem_append.mp hother with hmemory | hlast
    · exact UInt64.le_trans (hreached other hmemory) hold
    · exact List.mem_singleton.mp hlast ▸ hnew
  · rcases hchoice with hkept | hmoved
    · rcases hattained with ⟨other, hother, hts⟩ | hzero
      · exact ⟨other, List.mem_append_left _ hother, hkept.trans hts⟩
      · -- a slot that was just taken has the timestamp 0
        refine ⟨detail, by simp, ?_⟩
        rw [hkept, hzero] at hnew ⊢
        exact (UInt64.le_antisymm hnew (UInt64.zero_le ..)).symm
    · exact ⟨detail, by simp, hmoved⟩
  · intro other hother
    rw [hisOf, hcollidedFlag]
    exact hcollided other hother
  · intro other hother
    rw [hisOf, hambiguous, hsocketId]
    exact hsocket other hother

/-- Observing one more record. -/
theorem Summary.enter {salt : UInt64} {owner : PacketOwner} {memory : List DetailEvent}
    (h : Summary salt owner memory) {detail : DetailEvent}
    (hpacket : recordPacket salt detail ≠ 0) :
    Summary salt (enter salt owner detail) (memory ++ [detail]) := by
  have hattained (hmemory : memory ≠ []) :
      (∃ other ∈ memory, owner.timestampNs = other.ts) ∨ owner.timestampNs = 0 :=
    Or.inl (h.attained hmemory)
  cases hsame : owner.isOf (recordPacket salt detail) detail.direction with
  | true =>
      have hheld : owner.packetId ≠ 0 := by
        simp only [PacketOwner.isOf, Bool.and_eq_true, decide_eq_true_eq] at hsame
        exact hsame.1 ▸ hpacket
      have hmemory : memory ≠ [] := fun hempty => hheld (h.empty hempty ▸ rfl)
      refine Summary.of_evidence ?_ (by simp) (enter_same hsame)
      by_cases hsocket : owner.socketId ≠ ownerSocketId salt detail
      · rw [if_pos hsocket]
        refine Summary.reach hheld h.reached (hattained hmemory) ?_ fun _ _ _ => Or.inl rfl
        intro other hother hdifferent
        rcases List.mem_append.mp hother with hold | hlast
        · exact h.collided other hold hdifferent
        · rw [List.mem_singleton.mp hlast] at hdifferent
          exact absurd (hsame.symm.trans hdifferent) (by simp)
      · rw [if_neg hsocket]
        refine Summary.reach hheld h.reached (hattained hmemory) ?_ ?_
        · intro other hother hdifferent
          rcases List.mem_append.mp hother with hold | hlast
          · exact h.collided other hold hdifferent
          · rw [List.mem_singleton.mp hlast] at hdifferent
            exact absurd (hsame.symm.trans hdifferent) (by simp)
        · intro other hother hequal
          rcases List.mem_append.mp hother with hold | hlast
          · exact h.socket other hold hequal
          · exact Or.inr (List.mem_singleton.mp hlast ▸ not_not.mp hsocket)
  | false =>
      by_cases hheld : owner.packetId ≠ 0
      · have hmemory : memory ≠ [] := fun hempty => hheld (h.empty hempty ▸ rfl)
        refine Summary.of_evidence ?_ (by simp) (enter_other hsame hheld)
        refine Summary.reach hheld h.reached (hattained hmemory) (fun _ _ _ => rfl) ?_
        intro other hother hequal
        rcases List.mem_append.mp hother with hold | hlast
        · exact h.socket other hold hequal
        · rw [List.mem_singleton.mp hlast] at hequal
          exact absurd (hsame.symm.trans hequal) (by simp)
      · have hfree := not_not.mp hheld
        have hmemory : memory = [] := not_not.mp fun hmemory => h.held hmemory hfree
        refine Summary.of_evidence ?_ (by simp) (enter_free hsame hfree)
        subst hmemory
        refine Summary.reach hpacket (by simp) (Or.inr rfl) ?_ ?_
        · intro other hother hdifferent
          rw [List.nil_append, List.mem_singleton] at hother
          simp [hother, PacketOwner.isOf] at hdifferent
        · intro other hother _
          rw [List.nil_append, List.mem_singleton] at hother
          exact Or.inr (hother ▸ rfl)

theorem summary_zero (salt : UInt64) : Summary salt PacketOwner.zero [] :=
  ⟨fun h => absurd rfl h, fun _ => rfl, by simp, fun h => absurd rfl h, by simp, by simp⟩

/-- What a slot looks like after any records with identities other than 0. -/
theorem summary_fold {salt : UInt64} (memory : List DetailEvent)
    (h : ∀ detail ∈ memory, recordPacket salt detail ≠ 0) :
    Summary salt (memory.foldl (Native.enter salt) PacketOwner.zero) memory := by
  induction memory using List.reverseRecOn with
  | nil => exact summary_zero salt
  | append_singleton memory detail ih =>
      rw [List.foldl_append]
      refine (ih fun other hother => h other (List.mem_append_left _ hother)).enter ?_
      exact h detail (by simp)

/-! ## One flush -/

theorem toNat_add_window {ts : UInt64} (h : ts.toNat + overviewWindowNs.toNat < 2 ^ 64) :
    (ts + overviewWindowNs).toNat = ts.toNat + overviewWindowNs.toNat := by
  rw [UInt64.toNat_add, Nat.mod_eq_of_lt h]

section

variable {salt : UInt64} {owner : PacketOwner} {memory : List DetailEvent} {pending : PendingPacket}
  (h : Summary salt owner memory) (hsocket : pending.socketId = 0)
  (hfits : pending.timestampNs.toNat + overviewWindowNs.toNat < 2 ^ 64)
  (hbounds : ∀ detail ∈ memory, detail.ts.toNat + overviewWindowNs.toNat < 2 ^ 64 ∧
    detail.ts.toNat ≤ pending.timestampNs.toNat + overviewWindowNs.toNat)
include h hsocket hfits hbounds

/-- An event is close to its slot when the slot remembers a record close to it and is not too far
ahead. -/
theorem Summary.observedBy (hsame : owner.isOf pending.packetId pending.direction = true)
    {detail : DetailEvent} (hdetail : detail ∈ memory) (hclose : CloseTo detail pending) :
    pending.observedBy owner = true := by
  obtain ⟨last, hlast, hts⟩ := h.attained (List.ne_nil_of_mem hdetail)
  have hreached := UInt64.le_iff_toNat_le.mp (h.reached detail hdetail)
  have hbound := hbounds last hlast
  have hbefore : owner.timestampNs ≤ pending.timestampNs + overviewWindowNs := by
    rw [UInt64.le_iff_toNat_le, toNat_add_window hfits, hts]
    exact hbound.2
  have hafter : pending.timestampNs ≤ owner.timestampNs + overviewWindowNs := by
    rw [UInt64.le_iff_toNat_le, hts, toNat_add_window hbound.1, ← hts]
    exact hclose.2.trans (Nat.add_le_add_right hreached _)
  simp [PendingPacket.observedBy, hsocket, hsame, hbefore, hafter]

/-- A slot that remembers two sockets of the packet, or another packet, yields no socket. -/
theorem Summary.resolve
    (hcontested : (∃ first ∈ memory, ∃ second ∈ memory, SamePacket salt first pending ∧
      SamePacket salt second pending ∧ CloseTo first pending ∧
        ownerSocketId salt first ≠ ownerSocketId salt second) ∨
      ∃ other ∈ memory, ¬ SamePacket salt other pending)
    (flow : Option FlowState) : (pending.resolve owner flow).socketId = 0 := by
  have hmemory : memory ≠ [] := by
    rcases hcontested with ⟨first, hfirst, -⟩ | ⟨other, hother, -⟩
    · exact List.ne_nil_of_mem hfirst
    · exact List.ne_nil_of_mem hother
  have hheld := h.held hmemory
  cases hunavailable : pending.evidenceUnavailable owner with
  | true =>
      -- neither the slot nor the flow is asked
      have howner : (pending.resolveOwner owner).socketId = 0 := by
        unfold PendingPacket.resolveOwner
        rw [hunavailable]
        split
        · split <;> exact hsocket
        · exact hsocket
      unfold PendingPacket.resolve
      dsimp only
      split
      · exact howner
      · rw [if_neg (by simp [hunavailable])]
        exact howner
  | false =>
      simp only [PendingPacket.evidenceUnavailable, Bool.and_eq_false_iff, Bool.or_eq_false_iff,
        Bool.not_eq_false', decide_eq_false_iff_not, not_not] at hunavailable
      obtain ⟨hcollided, hsame⟩ := hunavailable.resolve_left hheld
      have hisOf (detail : DetailEvent) :
          owner.isOf (recordPacket salt detail) detail.direction = true ↔
            SamePacket salt detail pending := by
        simp only [PacketOwner.isOf, Bool.and_eq_true, decide_eq_true_eq] at hsame ⊢
        rw [hsame.1, hsame.2]
        exact and_congr eq_comm eq_comm
      have hambiguous : owner.ambiguous = true ∧ pending.observedBy owner = true := by
        rcases hcontested with ⟨first, hfirst, second, hsecond, hpacket, hpacket', hclose, hne⟩ |
          ⟨other, hother, hpacket⟩
        · refine ⟨?_, h.observedBy hsocket hfits hbounds hsame hfirst hclose⟩
          rcases h.socket first hfirst ((hisOf first).mpr hpacket) with hflag | hone
          · exact hflag
          rcases h.socket second hsecond ((hisOf second).mpr hpacket') with hflag | htwo
          · exact hflag
          exact absurd (hone.symm.trans htwo) hne
        · have hdifferent : owner.isOf (recordPacket salt other) other.direction = false :=
            Bool.eq_false_iff.mpr fun hequal => hpacket ((hisOf other).mp hequal)
          exact absurd (hcollided.symm.trans (h.collided other hother hdifferent)) (by simp)
      have howner : pending.resolveOwner owner = ⟨0, pending.ownerTgid, true⟩ := by
        unfold PendingPacket.resolveOwner
        rw [if_pos hambiguous.2, if_pos hambiguous.1, hsocket]
      unfold PendingPacket.resolve
      rw [howner]
      dsimp only
      split
      · rfl
      · rw [if_neg (by simp)]

end

theorem outcome_withheld {session : Session} {found : Resolution} (h : found.socketId = 0) :
    (found.outcome session).Withheld session := by
  unfold Resolution.outcome
  split
  case isTrue htags => exact htags
  case isFalse =>
    rw [if_neg (not_not.mpr h)]
    split <;> trivial

/-! ## The history of a slot -/

/-- The records observed in a slot are tracked and have identities other than 0. -/
def Sound (salt : UInt64) (history : List Note) (slot : Nat) : Prop :=
  ∀ detail, .observed detail ∈ history → recordSlot salt detail = slot →
    detail.keyGeneration ≠ 0 ∧ recordPacket salt detail ≠ 0 ∧
      detail.ts.toNat + overviewWindowNs.toNat < 2 ^ 64

/-- After the record was observed, a record of its slot arrived more than the window later. -/
def Expired (salt : UInt64) (history : List Note) (detail : DetailEvent) : Prop :=
  ∃ first second third, ∃ record : DetailEvent,
    history = first ++ .observed detail :: second ++ .arrived record :: third ∧
    record.keyGeneration ≠ 0 ∧ recordSlot salt record = recordSlot salt detail ∧
    detail.ts.toNat + overviewWindowNs.toNat < record.ts.toNat

section

variable {salt : UInt64} {history : List Note} {detail : DetailEvent}

theorem Expired.append (h : Expired salt history detail) (more : List Note) :
    Expired salt (history ++ more) detail := by
  obtain ⟨first, second, third, record, rfl, hrecord⟩ := h
  exact ⟨first, second, third ++ more, record, by simp, hrecord⟩

theorem Passed.append {pending : PendingPacket} (h : Passed salt history detail pending)
    (more : List Note) :
    Passed salt (history ++ more) detail pending := by
  obtain ⟨first, second, third, fourth, record, rfl, hrecord⟩ := h
  exact ⟨first, second, third, fourth ++ more, record, by simp, hrecord⟩

theorem Expired.passed (h : Expired salt history detail) (pending : PendingPacket) :
    Passed salt (history ++ [.queued pending]) detail pending := by
  obtain ⟨first, second, third, record, rfl, hrecord⟩ := h
  exact ⟨first, second, third, [], record, by simp, hrecord⟩

end

/-- A slot is what its memory makes of it. A record of the slot that is not in the memory expired
before every event of the slot that waits was queued. -/
structure Remembers (salt : UInt64) (overview : Overview) (waiting : List PendingPacket)
    (slot : Nat) (memory : List DetailEvent) : Prop where
  owner : overview.owners slot = memory.foldl (enter salt) PacketOwner.zero
  logged : ∀ detail ∈ memory, .observed detail ∈ overview.log ∧ recordSlot salt detail = slot
  forgotten : Sound salt overview.log slot → ∀ detail, .observed detail ∈ overview.log →
    recordSlot salt detail = slot → detail ∈ memory ∨
      (Expired salt overview.log detail ∧ ∀ pending ∈ waiting, pending.slot salt = slot →
        Passed salt overview.log detail pending)

/-- Contested events of the history were withheld, as far as their slots were orderly. -/
def Fair (session : Session) (log : List Note) : Prop :=
  ∀ before pending outcome after, log = before ++ .flushed pending outcome :: after →
    pending.socketId = 0 → Orderly session.salt before pending →
    Contested session.salt before pending → outcome.Withheld session

/-- The invariant of the table of owners. -/
structure Owned (session : Session) (overview : Overview) (waiting : List PendingPacket) :
    Prop where
  queue : Holds overview.queue waiting
  slots : ∀ slot, ∃ memory, Remembers session.salt overview waiting slot memory
  fair : Fair session overview.log

/-- One more entry keeps a history fair, unless it is a contested event with a mirror. -/
theorem Fair.append {session : Session} {log : List Note} (h : Fair session log) {note : Note}
    (hnote : ∀ pending outcome, note = .flushed pending outcome → pending.socketId = 0 →
      Orderly session.salt log pending → Contested session.salt log pending →
      outcome.Withheld session) : Fair session (log ++ [note]) := by
  intro before pending outcome after hlog
  rcases List.eq_nil_or_concat' after with rfl | ⟨rest, last, rfl⟩
  · obtain ⟨rfl, hlast⟩ := List.append_inj' hlog rfl
    exact hnote pending outcome (List.singleton_inj.mp hlast)
  · rw [← List.cons_append, ← List.append_assoc] at hlog
    exact h before pending outcome rest (List.append_inj' hlog rfl).1

/-- Entries other than observations in a slot leave its memory alone. -/
theorem Remembers.extend {salt : UInt64} {overview after : Overview}
    {waiting remaining : List PendingPacket} {slot : Nat} {memory : List DetailEvent}
    (h : Remembers salt overview waiting slot memory) {notes : List Note}
    (howners : after.owners slot = overview.owners slot) (hlog : after.log = overview.log ++ notes)
    (hquiet : ∀ detail, .observed detail ∈ notes → recordSlot salt detail ≠ slot)
    (hremaining : ∀ pending ∈ remaining, pending ∈ waiting) :
    Remembers salt after remaining slot memory := by
  have hbefore {detail : DetailEvent} (h : .observed detail ∈ overview.log) :
      .observed detail ∈ after.log := by
    rw [hlog]
    exact List.mem_append_left _ h
  refine ⟨howners.trans h.owner, fun detail hdetail => ?_, fun hsound detail hdetail hslot => ?_⟩
  · exact ⟨hbefore (h.logged detail hdetail).1, (h.logged detail hdetail).2⟩
  · rw [hlog, List.mem_append] at hdetail
    have hold := hdetail.resolve_right fun hnew => hquiet detail hnew hslot
    rcases h.forgotten (fun other hother => hsound other (hbefore hother)) detail hold hslot with
      hmem | hlost
    · exact Or.inl hmem
    · rw [hlog]
      refine Or.inr ⟨hlost.1.append notes, fun pending hpending hof => ?_⟩
      exact (hlost.2 pending (hremaining pending hpending) hof).append notes

theorem Owned.congr {session : Session} {overview other : Overview} {waiting : List PendingPacket}
    (h : Owned session overview waiting) (hqueue : other.queue = overview.queue)
    (howners : other.owners = overview.owners) (hlog : other.log = overview.log) :
    Owned session other waiting := by
  refine ⟨hqueue ▸ h.queue, fun slot => ?_, hlog ▸ h.fair⟩
  obtain ⟨memory, hmemory⟩ := h.slots slot
  refine ⟨memory, @Remembers.extend _ _ _ _ _ _ _ hmemory [] ?_ ?_ (by simp) fun _ => id⟩
  · rw [howners]
  · rw [hlog, List.append_nil]

theorem Owned.note {session : Session} {overview : Overview} {waiting : List PendingPacket}
    (h : Owned session overview waiting) {note : Note}
    (hobserved : ∀ detail, note ≠ .observed detail)
    (hflushed : ∀ pending outcome, note ≠ .flushed pending outcome) :
    Owned session (overview.note note) waiting := by
  refine ⟨h.queue, fun slot => ?_, h.fair.append fun pending outcome heq => ?_⟩
  · obtain ⟨memory, hmemory⟩ := h.slots slot
    refine ⟨memory, @Remembers.extend _ _ _ _ _ _ _ hmemory [note] rfl rfl ?_ fun _ => id⟩
    intro detail hmem
    exact absurd (List.mem_singleton.mp hmem).symm (hobserved detail)
  · exact absurd heq (hflushed pending outcome)

/-! ## The steps -/

/-- A contested event in an orderly slot is flushed without a mirror. -/
theorem Owned.withheld {session : Session} {overview : Overview} {pending : PendingPacket}
    {waiting : List PendingPacket} (h : Owned session overview (pending :: waiting))
    (hsocket : pending.socketId = 0) (horderly : Orderly session.salt overview.log pending)
    (hcontested : Contested session.salt overview.log pending) (flow : Option FlowState) :
    (pending.resolve (overview.owners (pending.slot session.salt)) flow).socketId = 0 := by
  obtain ⟨memory, hmemory⟩ := h.slots (pending.slot session.salt)
  have hsound : Sound session.salt overview.log (pending.slot session.salt) := horderly.tracked
  -- Nothing close to the event was forgotten.
  have hkept {detail : DetailEvent} (hdetail : .observed detail ∈ overview.log)
      (hslot : recordSlot session.salt detail = pending.slot session.salt)
      (hclose : CloseTo detail pending) : detail ∈ memory := by
    rcases hmemory.forgotten hsound detail hdetail hslot with hmem | hlost
    · exact hmem
    · exact absurd (hlost.2 pending List.mem_cons_self rfl)
        (horderly.kept detail hdetail hslot hclose)
  have hslot {detail : DetailEvent} (hsame : SamePacket session.salt detail pending) :
      recordSlot session.salt detail = pending.slot session.salt := by
    rw [recordSlot, PendingPacket.slot, hsame.1, hsame.2]
  have hsummary : Summary session.salt (overview.owners (pending.slot session.salt)) memory := by
    rw [hmemory.owner]
    refine summary_fold memory fun detail hdetail => ?_
    obtain ⟨hlogged, hof⟩ := hmemory.logged detail hdetail
    exact (hsound detail hlogged hof).2.1
  refine hsummary.resolve hsocket horderly.fits (fun detail hdetail => ?_) ?_ flow
  · obtain ⟨hlogged, hof⟩ := hmemory.logged detail hdetail
    exact ⟨(hsound detail hlogged hof).2.2, horderly.behind detail hlogged hof⟩
  · rcases hcontested with ⟨first, second, hfirst, hsecond, hsame, hsame', hclose, hclose', hne⟩ |
      ⟨other, hother, -, hof, hdifferent, hclose⟩
    · exact Or.inl ⟨first, hkept hfirst (hslot hsame) hclose, second,
        hkept hsecond (hslot hsame') hclose', hsame, hsame', hclose, hne⟩
    · exact Or.inr ⟨other, hkept hother hof hclose, hdifferent⟩

theorem emitPending_log (session : Session) (state : State) (overview : Overview)
    (pending : PendingPacket) :
    (emitPending session state overview pending).log = overview.log ++
      [.flushed pending ((pending.resolve (overview.owners (pending.slot session.salt))
        (flowFindAny state pending.flowId)).outcome session)] := by
  unfold emitPending
  dsimp only
  split
  · rfl
  · split
    · rfl
    · split <;> rfl

/-- Flushing an event keeps the invariant. -/
theorem Owned.flushOne {session : Session} {overview : Overview} {pending : PendingPacket}
    {waiting : List PendingPacket} (h : Owned session overview (pending :: waiting))
    (state : State) : Owned session (flushOne session state overview) waiting := by
  obtain ⟨place, node, hfirst, rfl⟩ := h.queue.first_cons
  unfold Native.flushOne
  rw [hfirst]
  dsimp only
  have hframe := (emitPending_spec session state
    { overview with bytes := overview.bytes - node.value.event.capacity } node.value).1
  have hlog := emitPending_log session state
    { overview with bytes := overview.bytes - node.value.event.capacity } node.value
  generalize emitPending session state
    { overview with bytes := overview.bytes - node.value.event.capacity } node.value = after at *
  simp only [Overview.frame, Prod.mk.injEq] at hframe
  obtain ⟨hqueue, -, -, howners, -⟩ := hframe
  refine ⟨?_, fun slot => ?_, ?_⟩
  · show Holds after.queue.pop waiting
    rw [hqueue]
    exact h.queue.pop
  · obtain ⟨memory, hmemory⟩ := h.slots slot
    refine ⟨memory, hmemory.extend (congrFun howners slot) hlog (by simp) ?_⟩
    exact fun pending => List.mem_cons_of_mem _
  · show Fair session after.log
    rw [hlog]
    refine h.fair.append fun pending outcome heq hsocket horderly hcontested => ?_
    obtain ⟨rfl, rfl⟩ := Note.flushed.inj heq
    exact outcome_withheld (h.withheld hsocket horderly hcontested _)

section

variable {session : Session} {overview : Overview} {waiting : List PendingPacket}
  (h : Owned session overview waiting) (state : State)
include h

/-- A flush keeps the invariant and the owners, and adds no observation to the history. -/
theorem Owned.flush (ts : UInt64) (all : Bool) :
    ∃ remaining notes, Owned session (overviewFlush session state overview ts all) remaining ∧
      (overviewFlush session state overview ts all).owners = overview.owners ∧
      (overviewFlush session state overview ts all).log = overview.log ++ notes ∧
      (∀ detail, .observed detail ∉ notes) ∧ (all = true → remaining = []) := by
  have hstep {after : Overview} {pending : PendingPacket} {waiting : List PendingPacket}
      (h : Owned session after (pending :: waiting) ∧ after.owners = overview.owners ∧
        ∃ notes, after.log = overview.log ++ notes ∧ ∀ detail, .observed detail ∉ notes) :
      Owned session (Native.flushOne session state after) waiting ∧
        (Native.flushOne session state after).owners = overview.owners ∧
        ∃ notes, (Native.flushOne session state after).log = overview.log ++ notes ∧
          ∀ detail, .observed detail ∉ notes := by
    obtain ⟨howned, howners, notes, hlog, hquiet⟩ := h
    obtain ⟨place, node, hfirst, hvalue⟩ := howned.queue.first_cons
    refine ⟨howned.flushOne state, ?_⟩
    unfold Native.flushOne
    rw [hfirst]
    dsimp only
    have hframe := (emitPending_spec session state
      { after with bytes := after.bytes - node.value.event.capacity } node.value).1
    obtain ⟨outcome, hnote⟩ : ∃ outcome, (emitPending session state
        { after with bytes := after.bytes - node.value.event.capacity } node.value).log =
        after.log ++ [.flushed node.value outcome] := ⟨_, emitPending_log _ _ _ _⟩
    simp only [Overview.frame, Prod.mk.injEq] at hframe
    refine ⟨hframe.2.2.2.1.trans howners, notes ++ [.flushed node.value outcome], ?_,
      fun detail hmem => ?_⟩
    · rw [← List.append_assoc, ← hlog]
      exact hnote
    · rcases List.mem_append.mp hmem with hold | hlast
      · exact hquiet detail hold
      · cases List.mem_singleton.mp hlast
  obtain ⟨remaining, ⟨howned, howners, notes, hlog, hquiet⟩, hempty⟩ :=
    @overviewFlush_rule (fun after waiting => Owned session after waiting ∧
      after.owners = overview.owners ∧ ∃ notes, after.log = overview.log ++ notes ∧
        ∀ detail : DetailEvent, Note.observed detail ∉ notes) session state ts all
      (fun h => h.1.queue) (fun h => ⟨h.1.congr rfl rfl rfl, h.2⟩) hstep overview waiting
      ⟨h, rfl, [], (List.append_nil _).symm, by simp⟩
  exact ⟨remaining, notes, howned, howners, hlog, hquiet, hempty⟩

/-- Queueing keeps the invariant: whatever a slot has forgotten passed before the event. -/
theorem Owned.queueRequest (request : QueueRequest) :
    ∃ remaining, Owned session (overviewQueue session state overview request) remaining := by
  obtain ⟨remaining, hroom, -⟩ := @makeRoom_rule (Owned session) session state
    request.event.capacity Owned.queue (fun h => Owned.congr h rfl rfl rfl)
    (fun h => Owned.flushOne h state) _ _ _ h h.queue.length_le
  unfold overviewQueue
  dsimp only
  generalize Native.makeRoom session state request.event.capacity overview.queue.fresh overview =
    roomy at *
  generalize request.pending session.salt = pending
  have hnoted : Owned session (roomy.note (.queued pending)) remaining :=
    hroom.note (by simp) (by simp)
  split
  case isTrue =>
    have hqueued : Owned session
        { roomy.note (.queued pending) with
          queue := roomy.queue.append pending
          count := roomy.count + 1
          bytes := roomy.bytes + request.event.capacity } (remaining ++ [pending]) := by
      refine ⟨hroom.queue.append pending, fun slot => ?_, hnoted.fair⟩
      obtain ⟨memory, hmemory⟩ := hroom.slots slot
      have hlog {detail : DetailEvent} :
          .observed detail ∈ roomy.log ++ [.queued pending] ↔ .observed detail ∈ roomy.log := by
        simp
      refine ⟨memory, hmemory.owner, fun detail hdetail =>
        ?_, fun hsound detail hdetail hslot => ?_⟩
      · exact ⟨hlog.mpr (hmemory.logged detail hdetail).1, (hmemory.logged detail hdetail).2⟩
      · rcases hmemory.forgotten (fun other hother => hsound other (hlog.mpr hother)) detail
          (hlog.mp hdetail) hslot with hmem | ⟨hexpired, hpassed⟩
        · exact Or.inl hmem
        · refine Or.inr ⟨hexpired.append _, fun other hother hof => ?_⟩
          rcases List.mem_append.mp hother with hold | hlast
          · exact (hpassed other hold hof).append _
          · exact List.mem_singleton.mp hlast ▸ hexpired.passed pending
    obtain ⟨after, notes, hafter, -⟩ := hqueued.flush state roomy.latestNs false
    exact ⟨after, hafter⟩
  case isFalse =>
    obtain ⟨after, notes, hflushed, -, -, -, hempty⟩ := hnoted.flush state 0 true
    obtain rfl := hempty rfl
    generalize overviewFlush session state (roomy.note (.queued pending)) 0 true = flushed at *
    refine ⟨[], hflushed.queue, fun slot => ?_, ?_⟩
    · obtain ⟨memory, hmemory⟩ := hflushed.slots slot
      refine ⟨memory, @Remembers.extend _ _ _ _ _ _ _ hmemory [.flushed pending .unresolved] rfl rfl
        (by simp) fun _ => id⟩
    · refine hflushed.fair.append fun other outcome heq _ _ _ => ?_
      obtain ⟨-, rfl⟩ := Note.flushed.inj heq
      trivial

end

/-! ## Observing -/

/-- A slot expires only when nothing waits for it, and everything it forgets expired before. -/
theorem Owned.expire {session : Session} {overview : Overview} {waiting : List PendingPacket}
    (h : Owned session overview waiting) (state : State) {detail : DetailEvent}
    (hgeneration : detail.keyGeneration ≠ 0) :
    ∃ remaining, Owned session (expireSlot session state (overview.note (.arrived detail))
      (recordSlot session.salt detail) detail.ts) remaining := by
  have harrived : Owned session (overview.note (.arrived detail)) waiting :=
    h.note (by simp) (by simp)
  unfold expireSlot
  dsimp only
  split
  case isFalse => exact ⟨waiting, harrived⟩
  case isTrue hexpires =>
    obtain ⟨remaining, notes, hflushed, howners, hlog, hquiet, -⟩ :=
      harrived.flush state detail.ts false
    generalize overviewFlush session state (overview.note (.arrived detail)) detail.ts false =
      flushed at *
    split
    case isFalse => exact ⟨remaining, hflushed⟩
    case isTrue hidle =>
      rw [Bool.not_eq_true', slotPending, hflushed.queue.values, List.any_eq_false] at hidle
      refine ⟨remaining, hflushed.queue, fun slot => ?_, hflushed.fair⟩
      by_cases hslot : slot = recordSlot session.salt detail
      case neg =>
        obtain ⟨memory, hmemory⟩ := hflushed.slots slot
        refine ⟨memory, @Remembers.extend _ _ _ _ _ _ _ hmemory [] ?_ (List.append_nil _).symm
          (by simp) fun _ => id⟩
        exact Function.update_of_ne hslot _ _
      case pos =>
        obtain ⟨memory, hmemory⟩ := h.slots slot
        refine ⟨[], ?_, by simp, fun hsound other hother hof => Or.inr ⟨?_, ?_⟩⟩
        · rw [hslot]
          exact Function.update_self _ _ _
        · -- The record came more than the window after all that the slot remembered.
          have hflushedLog : flushed.log = overview.log ++ .arrived detail :: notes := by
            rw [hlog]
            exact List.append_assoc _ _ _
          have hbefore (record : DetailEvent) (hrecord : .observed record ∈ overview.log) :
              .observed record ∈ flushed.log := by
            rw [hflushedLog]
            exact List.mem_append_left _ hrecord
          have hsoundBefore : Sound session.salt overview.log slot :=
            fun record hrecord => hsound record (hbefore record hrecord)
          have hlogged : .observed other ∈ overview.log := by
            have hmem : .observed other ∈ flushed.log := hother
            rw [hflushedLog, List.mem_append, List.mem_cons] at hmem
            rcases hmem with hold | harrival | hnew
            · exact hold
            · cases harrival
            · exact absurd hnew (hquiet other)
          show Expired session.salt flushed.log other
          rw [hflushedLog]
          rcases hmemory.forgotten hsoundBefore other hlogged hof with hmem | hlost
          · have hsummary : Summary session.salt (overview.owners slot) memory := by
              rw [hmemory.owner]
              refine summary_fold memory fun record hrecord => ?_
              obtain ⟨hin, hat⟩ := hmemory.logged record hrecord
              exact (hsoundBefore record hin hat).2.1
            obtain ⟨last, hlast, hts⟩ := hsummary.attained (List.ne_nil_of_mem hmem)
            obtain ⟨hin, hat⟩ := hmemory.logged last hlast
            have hreached := UInt64.le_iff_toNat_le.mp (hsummary.reached other hmem)
            have hlate : (overview.owners slot).timestampNs + overviewWindowNs < detail.ts := by
              rw [hslot]
              exact hexpires.2
            rw [UInt64.lt_iff_toNat_lt, hts, toNat_add_window (hsoundBefore last hin hat).2.2,
              ← hts] at hlate
            obtain ⟨first, second, hsplit⟩ := List.append_of_mem hlogged
            refine ⟨first, second, notes, detail, ?_, hgeneration, hslot.symm.trans hof.symm, ?_⟩
            · rw [hsplit]
            · omega
          · exact hlost.1.append _
        · intro pending hpending hpendingSlot
          exact absurd (hidle pending hpending) (by simp [hpendingSlot, hslot])

/-- A record with a socket is entered in its slot. -/
theorem Owned.enter {session : Session} {overview : Overview} {waiting : List PendingPacket}
    (h : Owned session overview waiting) (detail : DetailEvent) :
    let slot := recordSlot session.salt detail
    Owned session ((overview.note (.observed detail)).setOwner slot
      (Native.enter session.salt (overview.owners slot) detail)) waiting := by
  intro slot
  refine ⟨h.queue, fun other => ?_, h.fair.append (by simp)⟩
  obtain ⟨memory, hmemory⟩ := h.slots other
  by_cases hother : other = slot
  case neg =>
    refine ⟨memory, @Remembers.extend _ _ _ _ _ _ _ hmemory [.observed detail] ?_ rfl ?_
      fun _ => id⟩
    · exact Function.update_of_ne hother _ _
    · intro record hrecord heq
      obtain rfl := Note.observed.inj (List.mem_singleton.mp hrecord)
      exact hother heq.symm
  case pos =>
    have hbefore {record : DetailEvent} (hrecord : .observed record ∈ overview.log) :
        .observed record ∈ overview.log ++ [.observed detail] :=
      List.mem_append_left _ hrecord
    refine ⟨memory ++ [detail], ?_, fun record hrecord => ?_, fun hsound record hrecord hof => ?_⟩
    · rw [List.foldl_append, ← hmemory.owner, hother]
      exact Function.update_self _ _ _
    · rcases List.mem_append.mp hrecord with hold | hlast
      · exact ⟨hbefore (hmemory.logged record hold).1, (hmemory.logged record hold).2⟩
      · rw [List.mem_singleton.mp hlast]
        exact ⟨List.mem_append_right _ List.mem_cons_self, hother.symm⟩
    · rcases List.mem_append.mp hrecord with hold | hlast
      · rcases hmemory.forgotten (fun record hrecord => hsound record (hbefore hrecord)) record hold
          hof with hmem | hlost
        · exact Or.inl (List.mem_append_left _ hmem)
        · refine Or.inr ⟨hlost.1.append _, fun pending hpending hslot => ?_⟩
          exact (hlost.2 pending hpending hslot).append _
      · obtain rfl := Note.observed.inj (List.mem_singleton.mp hlast)
        exact Or.inl (by simp)

/-- A record with a socket but without a generation is not entered: its slot is not sound. -/
theorem Owned.untracked {session : Session} {overview : Overview} {waiting : List PendingPacket}
    (h : Owned session overview waiting) {detail : DetailEvent}
    (hgeneration : detail.keyGeneration = 0) :
    Owned session (overview.note (.observed detail)) waiting := by
  refine ⟨h.queue, fun slot => ?_, h.fair.append (by simp)⟩
  obtain ⟨memory, hmemory⟩ := h.slots slot
  by_cases hslot : recordSlot session.salt detail = slot
  case neg =>
    refine ⟨memory, @Remembers.extend _ _ _ _ _ _ _ hmemory [.observed detail] rfl rfl ?_
      fun _ => id⟩
    intro record hrecord
    obtain rfl := Note.observed.inj (List.mem_singleton.mp hrecord)
    exact hslot
  case pos =>
    refine ⟨memory, hmemory.owner, fun record hrecord => ?_, fun hsound => ?_⟩
    · exact ⟨List.mem_append_left _ (hmemory.logged record hrecord).1,
        (hmemory.logged record hrecord).2⟩
    · exact absurd hgeneration
        (hsound detail (List.mem_append_right _ List.mem_cons_self) hslot).1

/-- `native_packet_overview_observe` keeps the invariant. -/
theorem Owned.observe {session : Session} {overview : Overview} {waiting : List PendingPacket}
    (h : Owned session overview waiting) (state : State) (detail : DetailEvent) :
    ∃ remaining, Owned session (overviewObserve session state overview detail) remaining := by
  have hslot : ∃ remaining, Owned session
      (observeSlot session state (overview.note (.arrived detail)) detail) remaining := by
    unfold observeSlot Overview.noteSocket
    dsimp only
    split
    case isTrue hgeneration =>
      have harrived : Owned session (overview.note (.arrived detail)) waiting :=
        h.note (by simp) (by simp)
      split
      · exact ⟨waiting, harrived.untracked hgeneration⟩
      · exact ⟨waiting, harrived⟩
    case isFalse hgeneration =>
      obtain ⟨remaining, hexpired⟩ := h.expire state hgeneration
      by_cases hkey : detail.ownerSocketKey = 0
      · rw [if_pos hkey, if_neg (not_not.mpr hkey)]
        exact ⟨remaining, hexpired⟩
      · rw [if_neg hkey, if_pos hkey]
        exact ⟨remaining, hexpired.enter detail⟩
  obtain ⟨remaining, hobserved⟩ := hslot
  obtain ⟨after, notes, hflushed, -⟩ := hobserved.flush state detail.ts false
  exact ⟨after, hflushed⟩

/-! ## Runs -/

/-- Every call keeps the invariant. -/
theorem Owned.step {session : Session} {overview : Overview} {waiting : List PendingPacket}
    (h : Owned session overview waiting) (call : State × OverviewCall) :
    ∃ remaining, Owned session (overviewStep session overview call) remaining := by
  obtain ⟨state, call⟩ := call
  cases call with
  | observe detail => exact h.observe state detail
  | queue request => exact h.queueRequest state request
  | flush ts all =>
      obtain ⟨remaining, notes, hflushed, -⟩ := h.flush state ts all
      exact ⟨remaining, hflushed⟩
  | other tracks sequenceStarted packets hquiet => exact ⟨waiting, h.congr rfl rfl rfl⟩

/-- In every run, an event without a socket of its own that is contested when it is flushed is
written without a mirror, provided its slot is orderly then. -/
theorem contested_packets_withheld (session : Session) (calls : List (State × OverviewCall)) :
    ∀ before pending outcome after,
      (overviewRun session calls).log = before ++ .flushed pending outcome :: after →
      pending.socketId = 0 → Orderly session.salt before pending →
      Contested session.salt before pending → outcome.Withheld session := by
  have hrun : ∃ waiting, Owned session (overviewRun session calls) waiting := by
    refine @run_invariant _ _ (overviewStep session) Overview.init
      (fun overview => ∃ waiting, Owned session overview waiting) ?_ ?_ calls
    · refine ⟨[], holds_empty, fun slot => ⟨[], rfl, by simp, fun _ detail hdetail => ?_⟩, ?_⟩
      · cases hdetail
      · intro before pending outcome after hlog
        simp [Overview.init] at hlog
    · rintro overview call ⟨waiting, h⟩
      exact h.step call
  obtain ⟨waiting, h⟩ := hrun
  exact h.fair

/-! ## A guess -/

def receivedRecord (ts owner : UInt64) : DetailEvent :=
  { (default : DetailEvent) with
    metaType := .func
    key := 1
    keyGeneration := 1
    ts := ts
    pkt := ⟨[10, 0, 0, 1, 10, 0, 0, 2], ethPIp, ipprotoUdp, 0x5000, 0xBB01⟩
    direction := .rx
    ownerSocketKey := owner
    ownerSocketGeneration := 1 }

/-- The event of a record without a socket, 10 s after boot. -/
def ownerlessRequest : QueueRequest :=
  ⟨receivedRecord 10000000000 0, 5, 3, [], ProtoBuffer.empty, 0, 0, Nat.zero_le _⟩

/-- A table with the flow of the packet, whose local endpoint has socket 77. -/
def flowOfPacket : State :=
  { State.init with
    flows :=
      [{ FlowState.fresh 5 with
        socketId := 77
        localAddr := .inet [10, 0, 0, 2]
        localPort := 443 }] }

/-- Two sockets are observed for the packet of an event that waits, 0 s and 0.8 s from it. -/
def contestedCalls : List (State × OverviewCall) :=
  [(flowOfPacket, .observe (receivedRecord 10000000000 8)),
    (flowOfPacket, .observe (receivedRecord 10000000000 0)),
    (flowOfPacket, .queue ownerlessRequest),
    (flowOfPacket, .observe (receivedRecord 10800000000 9))]

/-- The history of these calls. -/
def contestedLog : List Note :=
  [.arrived (receivedRecord 10000000000 8), .observed (receivedRecord 10000000000 8),
    .arrived (receivedRecord 10000000000 0), .queued (ownerlessRequest.pending 7),
    .arrived (receivedRecord 10800000000 9), .observed (receivedRecord 10800000000 9)]

theorem contestedLog_contested (more : List Note) :
    Contested 7 (contestedLog ++ more) (ownerlessRequest.pending 7) := by
  refine Or.inl ⟨receivedRecord 10000000000 8, receivedRecord 10800000000 9, ?_, ?_, ⟨rfl, rfl⟩,
    ⟨rfl, rfl⟩, ⟨by decide, by decide⟩, ⟨by decide, by decide⟩, by decide +kernel⟩
  · exact List.mem_append_left _ (by simp [contestedLog])
  · exact List.mem_append_left _ (by simp [contestedLog])

/-- When the event is flushed next, both sockets are known. -/
theorem contested_packets_withheld_small :
    (overviewRun smallSession (contestedCalls ++ [(flowOfPacket, .flush 11500000000 false)])).log =
        contestedLog ++ [.flushed (ownerlessRequest.pending 7) .ambiguous] ∧
      Outcome.ambiguous.Withheld smallSession := by
  have hlog : (overviewRun smallSession
      (contestedCalls ++ [(flowOfPacket, .flush 11500000000 false)])).log =
      contestedLog ++ [.flushed (ownerlessRequest.pending 7) .ambiguous] := by decide +kernel
  have hobserved (detail : DetailEvent) (h : .observed detail ∈ contestedLog) :
      detail = receivedRecord 10000000000 8 ∨ detail = receivedRecord 10800000000 9 := by
    simpa [contestedLog] using h
  refine ⟨hlog, contested_packets_withheld smallSession _ contestedLog (ownerlessRequest.pending 7)
    .ambiguous [] hlog rfl ⟨by decide, ?_, ?_, ?_⟩ ?_⟩
  · intro detail hdetail _
    rcases hobserved detail hdetail with rfl | rfl <;> decide +kernel
  · intro detail hdetail _
    rcases hobserved detail hdetail with rfl | rfl <;> decide
  · rintro detail hdetail - - ⟨first, second, third, fourth, record, hsplit, -, -, hlate⟩
    -- no record of the history is late enough
    have harrived : .arrived record ∈ contestedLog := by
      rw [hsplit]
      simp
    have hts : record.ts.toNat ≤ 10800000000 := by
      simp only [contestedLog, List.mem_cons, Note.arrived.injEq, List.not_mem_nil, or_false,
        reduceCtorEq, false_or] at harrived
      rcases harrived with rfl | rfl | rfl <;> decide
    have hearly : 10000000000 ≤ detail.ts.toNat := by
      rcases hobserved detail hdetail with rfl | rfl <;> decide
    have hwindow : overviewWindowNs.toNat = 1000000000 := rfl
    omega
  · exact List.append_nil contestedLog ▸ contestedLog_contested []

/-- A record 1.3 s after the event first moves the slot past the event and then flushes it: the
event is mirrored on a track of the socket of its flow. -/
theorem later_observation_leads_to_guess :
    ¬ NoGuess smallSession (overviewRun smallSession
      (contestedCalls ++ [(flowOfPacket, .observe (receivedRecord 11300000000 9))])).log := by
  have hlog : (overviewRun smallSession
      (contestedCalls ++ [(flowOfPacket, .observe (receivedRecord 11300000000 9))])).log =
      (contestedLog ++ [.arrived (receivedRecord 11300000000 9),
        .observed (receivedRecord 11300000000 9)]) ++
        [.flushed (ownerlessRequest.pending 7) (.mirrored 77)] := by decide +kernel
  exact fun h => h _ _ _ _ hlog rfl (contestedLog_contested _)

end Anettrace.Native
