import Anettrace.Trim.Grammar

/-!
# One packet

Each loop of the trimmer is a fold over the fields of its message, and each fold gets the meaning
the grammar gives the fields: `bundle_fold_iff` for a bundle, `metadata_fold_iff` for what
`packet_metadata` collects, `packet_fold_iff` for the packet written. `trim_packet_spec` puts them
together.
-/

namespace Anettrace.Trim

open Library
open Fallible (foldlM_concat_ok)

theorem WireField.isMessage_iff {field : WireField} {number : Nat} :
    field.isMessage number = true ↔ field.number = number ∧ field.wire = 2 := by
  simp [WireField.isMessage]

/-! ## Bundles -/

theorem bundle_field_iff {cutoff : Nat} {trimmed result : List UInt8} {field : WireField} :
    bundleField cutoff trimmed field = .ok result ↔
      field.number ≠ 4 ∧ (field.isMessage 2 = true → ∃ inner, IsMessage field.payload inner) ∧
        result = trimmed ++ if isOldEvent cutoff field then [] else field.bytes := by
  unfold bundleField
  by_cases hcompact : field.number = 4
  · rw [if_pos hcompact]
    simp [hcompact]
  rw [if_neg hcompact]
  by_cases hevent : field.isMessage 2 = true
  case neg =>
    have hother : field.number ≠ 2 ∨ field.wire ≠ 2 := by
      rw [WireField.isMessage_iff] at hevent
      exact not_and_or.mp hevent
    have hkept : isOldEvent cutoff field = false := by
      simp [isOldEvent, hevent]
    rw [if_pos hother, hkept]
    simp [hcompact, hevent, eq_comm]
  case pos =>
    obtain ⟨hnumber, hwire⟩ := WireField.isMessage_iff.mp hevent
    rw [if_neg (by omega)]
    unfold eventTimestamp
    constructor
    · intro h
      split at h
      · cases h
      · rename_i hfound
        obtain ⟨inner, hinner, hnone⟩ := message_varint_iff.mp hfound
        have hkept : isOldEvent cutoff field = false := by
          simp [isOldEvent, eventTime, parseFields_eq hinner, ← hnone]
        refine ⟨hcompact, fun _ => ⟨inner, hinner⟩, ?_⟩
        cases h
        simp [hkept]
      · rename_i timestamp hfound
        obtain ⟨inner, hinner, hsome⟩ := message_varint_iff.mp hfound
        have hold : isOldEvent cutoff field = decide (timestamp < cutoff) := by
          simp [isOldEvent, hevent, eventTime, parseFields_eq hinner, ← hsome]
        refine ⟨hcompact, fun _ => ⟨inner, hinner⟩, ?_⟩
        rw [hold]
        split at h
        · rename_i hge
          cases h
          simp [Nat.not_lt.mpr hge]
        · rename_i hlt
          cases h
          simp [Nat.not_le.mp hlt]
    · rintro ⟨-, hparses, rfl⟩
      obtain ⟨inner, hinner⟩ := hparses hevent
      rw [message_varint_iff.mpr ⟨inner, hinner, rfl⟩]
      cases hfound : lastVarint 1 inner with
      | none => simp [isOldEvent, eventTime, parseFields_eq hinner, hfound]
      | some timestamp =>
          have hold : isOldEvent cutoff field = decide (timestamp < cutoff) := by
            simp [isOldEvent, hevent, eventTime, parseFields_eq hinner, hfound]
          dsimp only
          rw [hold]
          by_cases hlt : timestamp < cutoff
          · rw [if_neg (by omega)]
            simp [hlt]
          · rw [if_pos (by omega)]
            simp [hlt]

/-- The fold over a bundle keeps the bytes of the fields that stay. -/
theorem bundle_fold_iff {cutoff : Nat} {fields : List WireField} {result : List UInt8} :
    fields.foldlM (bundleField cutoff) [] = .ok result ↔
      (∀ field ∈ fields, field.number ≠ 4) ∧
      (∀ field ∈ fields, field.isMessage 2 = true → ∃ inner, IsMessage field.payload inner) ∧
      result = (fields.filter fun field => !isOldEvent cutoff field).flatMap WireField.bytes := by
  induction fields using List.reverseRecOn generalizing result with
  | nil =>
      constructor
      · intro h
        cases h
        exact ⟨by simp, by simp, rfl⟩
      · rintro ⟨-, -, rfl⟩
        rfl
  | append_singleton fields field ih =>
      have hlast : ([field].filter fun field => !isOldEvent cutoff field).flatMap
          WireField.bytes = if isOldEvent cutoff field then [] else field.bytes := by
        by_cases hold : isOldEvent cutoff field = true
        · simp [hold]
        · simp [hold]
      rw [foldlM_concat_ok, List.filter_append, List.flatMap_append, hlast]
      constructor
      · rintro ⟨state, hstate, hfield⟩
        obtain ⟨hcompact, hevents, rfl⟩ := ih.mp hstate
        obtain ⟨hcompact', hevents', rfl⟩ := bundle_field_iff.mp hfield
        refine ⟨?_, ?_, rfl⟩
        · intro other hother
          rcases List.mem_append.mp hother with hmem | hmem
          · exact hcompact other hmem
          · rw [List.mem_singleton.mp hmem]
            exact hcompact'
        · intro other hother
          rcases List.mem_append.mp hother with hmem | hmem
          · exact hevents other hmem
          · rw [List.mem_singleton.mp hmem]
            exact hevents'
      · rintro ⟨hcompact, hevents, rfl⟩
        refine ⟨_, ih.mpr ⟨?_, ?_, rfl⟩, bundle_field_iff.mpr ⟨?_, ?_, rfl⟩⟩
        · exact fun other hother => hcompact other (List.mem_append_left _ hother)
        · exact fun other hother => hevents other (List.mem_append_left _ hother)
        · exact hcompact field (by simp)
        · exact hevents field (by simp)

theorem trim_ftrace_bundle_iff {bundle : WireField} {cutoff : Nat} {result : List UInt8} :
    trimFtraceBundle bundle cutoff = .ok result ↔
      ∃ fields, IsBundle bundle.payload fields ∧
        result = (bundleKept cutoff bundle).flatMap WireField.bytes := by
  rw [trimFtraceBundle, for_fields_iff]
  constructor
  · rintro ⟨fields, hmessage, hfold⟩
    obtain ⟨hcompact, hevents, hresult⟩ := bundle_fold_iff.mp hfold
    refine ⟨fields, ⟨hmessage, hcompact, hevents⟩, ?_⟩
    rw [bundleKept, parseFields_eq hmessage]
    exact hresult
  · rintro ⟨fields, hbundle, hresult⟩
    refine ⟨fields, hbundle.message, bundle_fold_iff.mpr ⟨hbundle.compact, hbundle.events, ?_⟩⟩
    rw [bundleKept, parseFields_eq hbundle.message] at hresult
    exact hresult

/-! ## Metadata -/

/-- What `packet_metadata` has collected describes the fields read so far. -/
structure Describes (packet : Packet) (metadata : Metadata) : Prop where
  timestamp : packet.timestamp = if metadata.hasTimestamp then some metadata.timestamp else none
  clock : packet.clock = metadata.clockId
  sequence : packet.sequence = if metadata.hasSequence then some metadata.sequenceId else none
  hasFtrace : packet.hasFtrace = metadata.hasFtrace
  defaultClock : packet.defaultClock =
    if metadata.hasDefaultClock then some metadata.defaultClockId else none

theorem describes_init : Describes [] .init :=
  ⟨rfl, rfl, rfl, rfl, rfl⟩

/-- A field `packet_metadata` accepts. -/
def Supported (field : WireField) : Prop :=
  (field.number ≠ 50 ∧ field.number ≠ 133) ∧
    (field.isMessage 59 = true → ∃ inner, IsMessage field.payload inner)

theorem defaultClock_concat (packet : Packet) (field : WireField) :
    Packet.defaultClock (packet ++ [field]) =
      if field.isMessage 59 then lastVarint 58 (parseFields field.payload)
      else packet.defaultClock := by
  unfold Packet.defaultClock
  rw [List.reverse_append, List.reverse_singleton, List.singleton_append, List.find?_cons]
  cases field.isMessage 59 <;> rfl

theorem hasFtrace_concat (packet : Packet) (field : WireField) :
    Packet.hasFtrace (packet ++ [field]) = (packet.hasFtrace || field.isMessage 1) := by
  simp [Packet.hasFtrace]

theorem metadata_field_spec {packet : Packet} {metadata : Metadata} {field : WireField}
    (h : Describes packet metadata) :
    (∀ next, metadataField metadata field = .ok next →
      Supported field ∧ Describes (packet ++ [field]) next) ∧
    (Supported field → ∃ next, metadataField metadata field = .ok next) := by
  obtain ⟨htimestamp, hclock, hsequence, hftrace, hdefault⟩ := h
  -- A field that is not one of the five kinds leaves every reading as it is.
  have hdescribes : ∀ next : Metadata,
      (if field.number = 8 ∧ field.wire = 0 then some field.value else packet.timestamp) =
        (if next.hasTimestamp then some next.timestamp else none) →
      (if field.number = 58 ∧ field.wire = 0 then field.value else packet.clock) = next.clockId →
      (if field.number = 10 ∧ field.wire = 0 then some field.value else packet.sequence) =
        (if next.hasSequence then some next.sequenceId else none) →
      (packet.hasFtrace || field.isMessage 1) = next.hasFtrace →
      (if field.isMessage 59 then lastVarint 58 (parseFields field.payload)
        else packet.defaultClock) =
        (if next.hasDefaultClock then some next.defaultClockId else none) →
      Describes (packet ++ [field]) next := by
    intro next h8 h58 h10 h1 h59
    refine ⟨?_, ?_, ?_, ?_, ?_⟩
    · rw [Packet.timestamp, lastVarint_concat]
      exact h8
    · rw [Packet.clock, lastVarint_concat, ← h58]
      split <;> rfl
    · rw [Packet.sequence, lastVarint_concat]
      exact h10
    · rw [hasFtrace_concat]
      exact h1
    · rw [defaultClock_concat]
      exact h59
  unfold metadataField Supported
  by_cases h8 : field.number = 8 ∧ field.wire = 0
  · simp only [h8, WireField.isMessage] at hdescribes ⊢
    refine ⟨?_, fun _ => ⟨_, rfl⟩⟩
    intro next hnext
    cases hnext
    exact ⟨by simp, hdescribes _ (by simp) (by simp [hclock]) (by simp [hsequence])
      (by simp [hftrace]) (by simp [hdefault])⟩
  rw [if_neg h8]
  by_cases h58 : field.number = 58 ∧ field.wire = 0
  · simp only [h58, WireField.isMessage] at hdescribes ⊢
    refine ⟨?_, fun _ => ⟨_, rfl⟩⟩
    intro next hnext
    cases hnext
    exact ⟨by simp, hdescribes _ (by simp [htimestamp]) (by simp) (by simp [hsequence])
      (by simp [hftrace]) (by simp [hdefault])⟩
  rw [if_neg h58]
  by_cases h10 : field.number = 10 ∧ field.wire = 0
  · simp only [h10, WireField.isMessage] at hdescribes ⊢
    refine ⟨?_, fun _ => ⟨_, rfl⟩⟩
    intro next hnext
    cases hnext
    exact ⟨by simp, hdescribes _ (by simp [htimestamp]) (by simp [hclock]) (by simp)
      (by simp [hftrace]) (by simp [hdefault])⟩
  rw [if_neg h10]
  simp only [h8, h58, h10, if_false] at hdescribes
  by_cases h1 : field.number = 1 ∧ field.wire = 2
  · simp only [h1, WireField.isMessage] at hdescribes ⊢
    refine ⟨?_, fun _ => ⟨_, rfl⟩⟩
    intro next hnext
    cases hnext
    exact ⟨by simp, hdescribes _ htimestamp hclock hsequence (by simp) (by simp [hdefault])⟩
  rw [if_neg h1]
  have hbundle : field.isMessage 1 = false := by
    rw [Bool.eq_false_iff]
    exact fun hmessage => h1 (WireField.isMessage_iff.mp hmessage)
  rw [hbundle, Bool.or_false] at hdescribes
  by_cases h59 : field.number = 59 ∧ field.wire = 2
  · have hmessage : field.isMessage 59 = true := WireField.isMessage_iff.mpr h59
    rw [if_pos h59]
    simp only [hmessage, if_true] at hdescribes
    constructor
    · intro next hnext
      split at hnext
      · cases hnext
      · rename_i hfound
        cases hnext
        obtain ⟨inner, hinner, hnone⟩ := message_varint_iff.mp hfound
        rw [parseFields_eq hinner, ← hnone] at hdescribes
        exact ⟨⟨by omega, fun _ => ⟨inner, hinner⟩⟩,
          hdescribes _ htimestamp hclock hsequence hftrace rfl⟩
      · rename_i clock hfound
        cases hnext
        obtain ⟨inner, hinner, hsome⟩ := message_varint_iff.mp hfound
        rw [parseFields_eq hinner, ← hsome] at hdescribes
        exact ⟨⟨by omega, fun _ => ⟨inner, hinner⟩⟩,
          hdescribes _ htimestamp hclock hsequence hftrace rfl⟩
    · rintro ⟨-, hparses⟩
      obtain ⟨inner, hinner⟩ := hparses hmessage
      rw [message_varint_iff.mpr ⟨inner, hinner, rfl⟩]
      cases lastVarint 58 inner with
      | none => exact ⟨_, rfl⟩
      | some clock => exact ⟨_, rfl⟩
  rw [if_neg h59]
  have hother : field.isMessage 59 = false := by
    rw [Bool.eq_false_iff]
    exact fun hmessage => h59 (WireField.isMessage_iff.mp hmessage)
  simp only [hother, Bool.false_eq_true, if_false] at hdescribes
  by_cases hunsupported : field.number = 50 ∨ field.number = 133
  · rw [if_pos hunsupported]
    constructor
    · intro next hnext
      cases hnext
    · rintro ⟨hsupported, -⟩
      omega
  · rw [if_neg hunsupported]
    refine ⟨?_, fun _ => ⟨_, rfl⟩⟩
    intro next hnext
    cases hnext
    exact ⟨⟨not_or.mp hunsupported, fun hmessage => absurd hmessage (by simp [hother])⟩,
      hdescribes _ htimestamp hclock hsequence hftrace hdefault⟩

theorem metadata_fold (packet : Packet) :
    (∀ metadata, packet.foldlM metadataField .init = .ok metadata →
      (∀ field ∈ packet, Supported field) ∧ Describes packet metadata) ∧
    ((∀ field ∈ packet, Supported field) →
      ∃ metadata, packet.foldlM metadataField .init = .ok metadata) := by
  induction packet using List.reverseRecOn with
  | nil =>
      refine ⟨?_, fun _ => ⟨_, rfl⟩⟩
      intro metadata h
      cases h
      exact ⟨by simp, describes_init⟩
  | append_singleton packet field ih =>
      constructor
      · intro metadata h
        obtain ⟨state, hstate, hfield⟩ := foldlM_concat_ok.mp h
        obtain ⟨hsupported, hdescribes⟩ := ih.1 state hstate
        obtain ⟨hfieldSupported, hnext⟩ := (metadata_field_spec hdescribes).1 metadata hfield
        refine ⟨?_, hnext⟩
        intro other hother
        rcases List.mem_append.mp hother with hmem | hmem
        · exact hsupported other hmem
        · rw [List.mem_singleton.mp hmem]
          exact hfieldSupported
      · intro hsupported
        obtain ⟨state, hstate⟩ := ih.2 fun other hother =>
          hsupported other (List.mem_append_left _ hother)
        have hdescribes := (ih.1 state hstate).2
        obtain ⟨next, hnext⟩ := (metadata_field_spec hdescribes).2 (hsupported field (by simp))
        exact ⟨next, foldlM_concat_ok.mpr ⟨state, hstate, hnext⟩⟩

/-! ## The packet written -/

/-- One field of a packet: a bundle is written anew, another field is copied. -/
theorem packet_field_iff {cutoff : Nat} {trimmed result : List UInt8} {field : WireField} :
    packetField cutoff trimmed field = .ok result ↔
      (field.isMessage 1 = true → ∃ inner, IsBundle field.payload inner) ∧
        result = trimmed ++ (trimField cutoff field).bytes := by
  unfold packetField
  by_cases hbundle : field.isMessage 1 = true
  case neg =>
    have hother : ¬ (field.number = 1 ∧ field.wire = 2) := by
      rw [← WireField.isMessage_iff]
      exact hbundle
    rw [if_neg hother, trimField, if_neg hbundle]
    simp [hbundle, eq_comm]
  case pos =>
    rw [if_pos (WireField.isMessage_iff.mp hbundle), trimField, if_pos hbundle]
    constructor
    · intro h
      split at h
      · cases h
      · rename_i bundle hok
        cases h
        obtain ⟨inner, hinner, rfl⟩ := trim_ftrace_bundle_iff.mp hok
        refine ⟨fun _ => ⟨inner, hinner⟩, ?_⟩
        simp only [List.append_assoc]
    · rintro ⟨hparses, rfl⟩
      obtain ⟨inner, hinner⟩ := hparses hbundle
      rw [trim_ftrace_bundle_iff.mpr ⟨inner, hinner, rfl⟩]
      simp only [List.append_assoc]

/-- The fold of the second loop of `trim_packet` writes the trimmed packet. -/
theorem packet_fold_iff {cutoffs : Cutoffs} {packet : Packet} {result : List UInt8} :
    packet.foldlM (packetField cutoffs.boottime) [] = .ok result ↔
      (∀ field ∈ packet, field.isMessage 1 = true → ∃ inner, IsBundle field.payload inner) ∧
        result = (packet.trim cutoffs).bytes := by
  induction packet using List.reverseRecOn generalizing result with
  | nil =>
      constructor
      · intro h
        cases h
        exact ⟨by simp, rfl⟩
      · rintro ⟨-, rfl⟩
        rfl
  | append_singleton packet field ih =>
      have hbytes : (Packet.trim cutoffs (packet ++ [field])).bytes =
          (Packet.trim cutoffs packet).bytes ++ (trimField cutoffs.boottime field).bytes := by
        simp [Packet.trim, Packet.bytes]
      rw [foldlM_concat_ok, hbytes]
      constructor
      · rintro ⟨state, hstate, hfield⟩
        obtain ⟨hbundles, rfl⟩ := ih.mp hstate
        obtain ⟨hbundle, rfl⟩ := packet_field_iff.mp hfield
        refine ⟨?_, rfl⟩
        intro other hother
        rcases List.mem_append.mp hother with hmem | hmem
        · exact hbundles other hmem
        · rw [List.mem_singleton.mp hmem]
          exact hbundle
      · rintro ⟨hbundles, rfl⟩
        refine ⟨_, ih.mpr ⟨?_, rfl⟩, packet_field_iff.mpr ⟨hbundles field (by simp), rfl⟩⟩
        exact fun other hother => hbundles other (List.mem_append_left _ hother)

/-! ## Clock defaults -/

theorem clockDefaultGet_update (sequence clock other : Nat) (state : TrimState) :
    ∀ next, clockDefaultUpdate sequence clock state = some next →
      clockDefaultGet other next =
        if other = sequence then some clock else clockDefaultGet other state := by
  induction state with
  | nil => simp [clockDefaultUpdate]
  | cons entry rest ih =>
      intro next hnext
      rw [clockDefaultUpdate] at hnext
      split at hnext
      · rename_i hentry
        cases hnext
        by_cases hother : other = sequence
        · simp [clockDefaultGet, hentry, hother]
        · have hne : sequence ≠ other := fun heq => hother heq.symm
          simp [clockDefaultGet, hentry, hother, hne]
      · rename_i hentry
        obtain ⟨rest', hrest', rfl⟩ := Option.map_eq_some_iff.mp hnext
        have hget := ih rest' hrest'
        by_cases hsame : entry.sequenceId = other
        · have hne : other ≠ sequence := fun heq => hentry (hsame.trans heq)
          simp [clockDefaultGet, hsame, hne]
        · simp only [clockDefaultGet, hsame, ne_eq, not_false_eq_true, if_true]
          exact hget

theorem clockDefaultGet_set (state : TrimState) (sequence clock other : Nat) :
    clockDefaultGet other (clockDefaultSet state sequence clock) =
      if other = sequence then some clock else clockDefaultGet other state := by
  unfold clockDefaultSet
  split
  · rename_i next hnext
    exact clockDefaultGet_update sequence clock other state next hnext
  · by_cases hother : other = sequence
    · simp [clockDefaultGet, hother]
    · have hne : sequence ≠ other := fun heq => hother heq.symm
      simp [clockDefaultGet, hother, hne]

def Remembers (seen : List Packet) (state : TrimState) : Prop :=
  ∀ sequence, clockDefaultGet sequence state = latestDefault seen sequence

theorem latestDefault_concat (seen : List Packet) (packet : Packet) (sequence : Nat) :
    latestDefault (seen ++ [packet]) sequence =
      (packet.setsDefault sequence).or (latestDefault seen sequence) := by
  unfold latestDefault
  rw [List.reverse_append, List.reverse_singleton, List.singleton_append, List.findSome?_cons]
  cases packet.setsDefault sequence <;> rfl

theorem remembers_next {seen : List Packet} {state : TrimState} {packet : Packet}
    {metadata : Metadata} (hstate : Remembers seen state) (h : Describes packet metadata) :
    Remembers (seen ++ [packet])
      (if metadata.hasSequence ∧ metadata.hasDefaultClock then
        clockDefaultSet state metadata.sequenceId metadata.defaultClockId
      else state) := by
  intro other
  rw [latestDefault_concat, ← hstate other, Packet.setsDefault, h.sequence, h.defaultClock]
  by_cases hsequence : metadata.hasSequence = true
  · by_cases hdefault : metadata.hasDefaultClock = true
    · rw [if_pos ⟨hsequence, hdefault⟩, clockDefaultGet_set]
      by_cases hother : other = metadata.sequenceId
      · simp [hsequence, hdefault, hother]
      · have hne : metadata.sequenceId ≠ other := fun heq => hother heq.symm
        simp [hsequence, hother, hne]
    · simp [hsequence, hdefault]
  · simp [hsequence]

/-- The tests of `trim_packet` drop what is too old for its effective clock. -/
theorem dropsPacket_eq {cutoffs : Cutoffs} {seen : List Packet} {state : TrimState}
    {packet : Packet} {metadata : Metadata} (hstate : Remembers seen state)
    (h : Describes packet metadata) :
    dropsPacket cutoffs.boottime cutoffs.monotonic state metadata =
      (!packet.hasFtrace && packet.timestamp.any fun timestamp =>
        (effectiveClock seen packet = clockBoottime && timestamp < cutoffs.boottime) ||
          (effectiveClock seen packet = clockMonotonic && timestamp < cutoffs.monotonic)) := by
  have hclock : ∃ clock, clock = (if metadata.clockId = 0 ∧ metadata.hasSequence then
        (clockDefaultGet metadata.sequenceId state).getD metadata.clockId
      else metadata.clockId) ∧ effectiveClock seen packet = orBoottime clock := by
    refine ⟨_, rfl, ?_⟩
    unfold effectiveClock
    rw [h.clock, h.sequence]
    by_cases hzero : metadata.clockId = 0
    · by_cases hsequence : metadata.hasSequence = true
      · simp [hzero, hsequence, hstate metadata.sequenceId]
      · simp [hzero, hsequence, orBoottime]
    · simp [hzero, orBoottime]
  obtain ⟨clock, hclock, heffective⟩ := hclock
  unfold dropsPacket
  dsimp only
  rw [← hclock, heffective, h.hasFtrace, h.timestamp]
  have hboottime : (decide (clock = 0) || decide (clock = clockBoottime)) =
      decide (orBoottime clock = clockBoottime) := by
    by_cases hzero : clock = 0
    · simp [hzero, orBoottime]
    · simp [hzero, orBoottime]
  have hmonotonic : decide (clock = clockMonotonic) =
      decide (orBoottime clock = clockMonotonic) := by
    by_cases hzero : clock = 0
    · rw [hzero]
      rfl
    · simp [hzero, orBoottime]
  rw [hboottime, hmonotonic]
  cases metadata.hasTimestamp <;> simp

/-! ## One packet -/

/-- `trim_packet` accepts a packet, remembers the default it sets, and writes it trimmed unless it
is dropped. -/
theorem trim_packet_spec {cutoffs : Cutoffs} {seen : List Packet} {state : TrimState}
    {bytes : List UInt8} (hstate : Remembers seen state) :
    (∀ next result, trimPacket cutoffs.boottime cutoffs.monotonic state bytes = .ok (next, result) →
      ∃ packet, IsPacket bytes packet) ∧
    ∀ packet, IsPacket bytes packet → ∃ next, Remembers (seen ++ [packet]) next ∧
      trimPacket cutoffs.boottime cutoffs.monotonic state bytes = .ok (next,
        if isDropped cutoffs (seen ++ [packet]) packet then none
        else some (packet.trim cutoffs).bytes) := by
  constructor
  · intro next result h
    unfold trimPacket at h
    split at h
    · cases h
    rename_i metadata hmetadata
    obtain ⟨packet, hmessage, hfold⟩ := for_fields_iff.mp hmetadata
    obtain ⟨hsupported, hdescribes⟩ := (metadata_fold packet).1 metadata hfold
    have hdefaults := fun field hfield => (hsupported field hfield).2
    refine ⟨packet, hmessage, fun field hfield => (hsupported field hfield).1, hdefaults, ?_⟩
    dsimp only at h
    generalize (if metadata.hasSequence = true ∧ metadata.hasDefaultClock = true then
      clockDefaultSet state metadata.sequenceId metadata.defaultClockId else state) = current at h
    split at h
    · -- a dropped packet has no bundle
      rename_i hdrops
      simp only [dropsPacket, Bool.and_eq_true, Bool.not_eq_true'] at hdrops
      have hnone : Packet.hasFtrace packet = false := by
        rw [hdescribes.hasFtrace]
        exact hdrops.1.1
      intro field hfield hbundle
      have hany : Packet.hasFtrace packet = true := by
        rw [Packet.hasFtrace]
        exact List.any_eq_true.mpr ⟨field, hfield, hbundle⟩
      rw [hnone] at hany
      cases hany
    · split at h
      · cases h
      rename_i trimmed htrimmed
      obtain ⟨packet', hmessage', hfold'⟩ := for_fields_iff.mp htrimmed
      rw [hmessage'.unique hmessage] at hfold'
      exact (packet_fold_iff.mp hfold').1
  · intro packet hpacket
    have hsupported : ∀ field ∈ packet, Supported field := fun field hfield =>
      ⟨hpacket.supported field hfield, hpacket.defaults field hfield⟩
    obtain ⟨metadata, hmetadata⟩ := (metadata_fold packet).2 hsupported
    have hdescribes := ((metadata_fold packet).1 metadata hmetadata).2
    have hmetadata' : packetMetadata bytes = .ok metadata :=
      for_fields_iff.mpr ⟨packet, hpacket.message, hmetadata⟩
    have hwritten : forFields (packetField cutoffs.boottime) [] bytes =
        .ok (packet.trim cutoffs).bytes :=
      for_fields_iff.mpr ⟨packet, hpacket.message, packet_fold_iff.mpr ⟨hpacket.bundles, rfl⟩⟩
    have hnext := remembers_next hstate hdescribes
    refine ⟨_, hnext, ?_⟩
    unfold trimPacket
    rw [hmetadata']
    dsimp only
    rw [dropsPacket_eq hnext hdescribes, hwritten, ← isDropped]
    split <;> rfl

end Anettrace.Trim
