import Anettrace.Trim.Stream

/-!
# Clocks across trimming

A packet that names no clock takes the latest default of its sequence, and the trimmer may drop the
packet that set it. `clocks_preserved_iff` says exactly when no retained packet is affected: no
dropped default is inherited by a retained packet, unless it names the clock that was in force among
the retained packets anyway. Then trimming is idempotent.
-/

namespace Anettrace.Trim

open Library

variable {cutoffs : Cutoffs}

/-! ## The packets retained -/

/-- The packets that stay, as they were, given those seen before. -/
def retainedFrom (cutoffs : Cutoffs) (seen : List Packet) : List Packet → List Packet
  | [] => []
  | packet :: rest =>
      if isDropped cutoffs (seen ++ [packet]) packet then
        retainedFrom cutoffs (seen ++ [packet]) rest
      else packet :: retainedFrom cutoffs (seen ++ [packet]) rest

/-- The packets of a trace that stay, as they were. -/
def retained (cutoffs : Cutoffs) (packets : List Packet) : List Packet :=
  retainedFrom cutoffs [] packets

theorem keptFrom_eq (seen packets : List Packet) :
    keptFrom cutoffs seen packets =
      (retainedFrom cutoffs seen packets).map (Packet.trim cutoffs) := by
  induction packets generalizing seen with
  | nil => rfl
  | cons packet rest ih =>
      rw [keptFrom, retainedFrom]
      split
      · exact ih _
      · rw [ih, List.map_cons]

theorem retainedFrom_append (seen first second : List Packet) :
    retainedFrom cutoffs seen (first ++ second) =
      retainedFrom cutoffs seen first ++ retainedFrom cutoffs (seen ++ first) second := by
  induction first generalizing seen with
  | nil =>
      rw [List.append_nil]
      rfl
  | cons packet rest ih =>
      have hseen : seen ++ [packet] ++ rest = seen ++ (packet :: rest) := by simp
      rw [List.cons_append, retainedFrom, retainedFrom, ih, hseen]
      split <;> rfl

theorem retainedFrom_sublist (seen packets : List Packet) :
    (retainedFrom cutoffs seen packets).Sublist packets := by
  induction packets generalizing seen with
  | nil => exact .slnil
  | cons packet rest ih =>
      rw [retainedFrom]
      split
      · exact (ih _).cons packet
      · exact (ih _).cons_cons packet

theorem retained_concat (before : List Packet) (packet : Packet) :
    retained cutoffs (before ++ [packet]) =
      retained cutoffs before ++
        if isDropped cutoffs (before ++ [packet]) packet then [] else [packet] := by
  rw [retained, retained, retainedFrom_append, List.nil_append]
  rfl

theorem kept_concat (before : List Packet) (packet : Packet) :
    kept cutoffs (before ++ [packet]) = kept cutoffs before ++
      if isDropped cutoffs (before ++ [packet]) packet then [] else [packet.trim cutoffs] := by
  simp only [kept, keptFrom_eq]
  rw [← retained, retained_concat, List.map_append]
  split <;> rfl

/-! ## Trimming and meaning -/

/-- Trimming changes no varint and no defaults, so it keeps what a packet says about clocks. -/
theorem lastVarint_trim (number : Nat) (packet : Packet) :
    lastVarint number (packet.trim cutoffs) = lastVarint number packet := by
  induction packet using List.reverseRecOn with
  | nil => rfl
  | append_singleton packet field ih =>
      have hconcat : Packet.trim cutoffs (packet ++ [field]) =
          Packet.trim cutoffs packet ++ [trimField cutoffs.boottime field] := by
        simp [Packet.trim]
      have hfield : ∀ trimmed, trimmed = trimField cutoffs.boottime field →
          trimmed.number = field.number ∧ trimmed.wire = field.wire ∧
            trimmed.value = field.value := by
        rintro trimmed rfl
        unfold trimField
        split <;> exact ⟨rfl, rfl, rfl⟩
      obtain ⟨hnumber, hwire, hvalue⟩ := hfield _ rfl
      rw [hconcat, lastVarint_concat, lastVarint_concat, ih, hnumber, hwire, hvalue]

theorem hasFtrace_trim (packet : Packet) : (packet.trim cutoffs).hasFtrace = packet.hasFtrace := by
  induction packet with
  | nil => rfl
  | cons field rest ih =>
      simp only [Packet.trim, Packet.hasFtrace, List.map_cons, List.any_cons,
        trimField_isMessage] at ih ⊢
      rw [ih]

theorem defaultClock_trim (packet : Packet) :
    (packet.trim cutoffs).defaultClock = packet.defaultClock := by
  induction packet using List.reverseRecOn with
  | nil => rfl
  | append_singleton packet field ih =>
      have hconcat : Packet.trim cutoffs (packet ++ [field]) =
          Packet.trim cutoffs packet ++ [trimField cutoffs.boottime field] := by
        simp [Packet.trim]
      rw [hconcat, defaultClock_concat, defaultClock_concat, trimField_isMessage, ih]
      split
      case isTrue hmessage =>
        have hother : ¬ field.isMessage 1 = true := by
          rw [WireField.isMessage_iff] at hmessage ⊢
          omega
        rw [trimField, if_neg hother]
      case isFalse => rfl

theorem setsDefault_trim (packet : Packet) (sequence : Nat) :
    (packet.trim cutoffs).setsDefault sequence = packet.setsDefault sequence := by
  rw [Packet.setsDefault, Packet.setsDefault, Packet.sequence, Packet.sequence, lastVarint_trim,
    defaultClock_trim]

theorem latestDefault_trim (seen : List Packet) (sequence : Nat) :
    latestDefault (seen.map (Packet.trim cutoffs)) sequence = latestDefault seen sequence := by
  induction seen using List.reverseRecOn with
  | nil => rfl
  | append_singleton seen packet ih =>
      rw [List.map_append, List.map_singleton, latestDefault_concat, latestDefault_concat,
        setsDefault_trim, ih]

theorem effectiveClock_trim (seen : List Packet) (packet : Packet) :
    effectiveClock (seen.map (Packet.trim cutoffs)) (packet.trim cutoffs) =
      effectiveClock seen packet := by
  have hclock : (packet.trim cutoffs).clock = packet.clock := by
    rw [Packet.clock, lastVarint_trim, ← Packet.clock]
  have hsequence : (packet.trim cutoffs).sequence = packet.sequence := lastVarint_trim 10 packet
  rw [effectiveClock, effectiveClock, hclock, hsequence]
  cases packet.sequence with
  | none => rfl
  | some sequence => simp only [latestDefault_trim]

theorem trimField_trimField {cutoff : Nat} {field : WireField}
    (hbundle : field.isMessage 1 = true → ∃ inner, IsBundle field.payload inner) :
    trimField cutoff (trimField cutoff field) = trimField cutoff field := by
  by_cases hmessage : field.isMessage 1 = true
  case neg => rw [trimField, trimField_isMessage, if_neg hmessage]
  case pos =>
    obtain ⟨inner, hinner⟩ := hbundle hmessage
    have htrimmed : (trimField cutoff field).payload =
        (bundleKept cutoff field).flatMap WireField.bytes := by
      rw [trimField, if_pos hmessage]
    have hkept : bundleKept cutoff (trimField cutoff field) = bundleKept cutoff field := by
      rw [bundleKept, htrimmed, parseFields_eq (isBundle_kept hinner).message, bundleKept,
        List.filter_filter]
      simp only [Bool.and_self]
    have hmessage' : (trimField cutoff field).isMessage 1 = true := by
      rw [trimField_isMessage]
      exact hmessage
    rw [trimField, if_pos hmessage', hkept]
    simp only [trimField, if_pos hmessage]

theorem trim_trim {bytes : List UInt8} {packet : Packet} (h : IsPacket bytes packet) :
    (packet.trim cutoffs).trim cutoffs = packet.trim cutoffs := by
  rw [Packet.trim, Packet.trim, List.map_map]
  refine List.map_congr_left fun field hfield => ?_
  exact trimField_trimField (h.bundles field hfield)

/-! ## When clocks are preserved -/

/-- Every retained packet has the same effective clock in the trimmed trace, read from its
beginning, as in the trace. -/
def ClocksPreserved (cutoffs : Cutoffs) (packets : List Packet) : Prop :=
  ∀ before packet after, packets = before ++ packet :: after →
    isDropped cutoffs (before ++ [packet]) packet = false →
    effectiveClock (kept cutoffs before ++ [packet.trim cutoffs]) (packet.trim cutoffs) =
      effectiveClock (before ++ [packet]) packet

/-- A dropped packet sets a default that a retained packet inherits, no other packet of the sequence
sets one in between, and the default names another clock than the retained packets before it. -/
structure Orphaned (cutoffs : Cutoffs) (packets : List Packet) : Prop where
  orphan : ∃ before setter between heir after sequence clock,
    packets = before ++ setter :: (between ++ heir :: after) ∧
    setter.setsDefault sequence = some clock ∧
    isDropped cutoffs (before ++ [setter]) setter = true ∧
    (∀ packet ∈ between, packet.setsDefault sequence = none) ∧
    heir.setsDefault sequence = none ∧ heir.clock = 0 ∧ heir.sequence = some sequence ∧
    isDropped cutoffs (before ++ setter :: (between ++ [heir])) heir = false ∧
    orBoottime clock ≠ orBoottime ((latestDefault (retained cutoffs before) sequence).getD 0)

theorem latestDefault_append {seen more : List Packet} {sequence : Nat}
    (h : ∀ packet ∈ more, packet.setsDefault sequence = none) :
    latestDefault (seen ++ more) sequence = latestDefault seen sequence := by
  induction more using List.reverseRecOn with
  | nil => rw [List.append_nil]
  | append_singleton more packet ih =>
      rw [← List.append_assoc, latestDefault_concat, h packet (by simp), Option.none_or]
      exact ih fun other hother => h other (List.mem_append_left _ hother)

theorem latestDefault_split {seen : List Packet} {sequence clock : Nat}
    (h : latestDefault seen sequence = some clock) :
    ∃ before setter between, seen = before ++ setter :: between ∧
      setter.setsDefault sequence = some clock ∧
      ∀ packet ∈ between, packet.setsDefault sequence = none := by
  induction seen using List.reverseRecOn with
  | nil => cases h
  | append_singleton seen packet ih =>
      rw [latestDefault_concat] at h
      cases hsets : packet.setsDefault sequence with
      | some own =>
          rw [hsets] at h
          exact ⟨seen, packet, [], rfl, hsets.trans h, by simp⟩
      | none =>
          rw [hsets, Option.none_or] at h
          obtain ⟨before, setter, between, rfl, hsetter, hbetween⟩ := ih h
          refine ⟨before, setter, between ++ [packet], by simp, hsetter, ?_⟩
          intro other hother
          rcases List.mem_append.mp hother with hmem | hmem
          · exact hbetween other hmem
          · rw [List.mem_singleton.mp hmem]
            exact hsets

theorem effectiveClock_inherits {seen : List Packet} {packet : Packet} {sequence : Nat}
    (hclock : packet.clock = 0) (hsequence : packet.sequence = some sequence)
    (hsets : packet.setsDefault sequence = none) :
    effectiveClock (seen ++ [packet]) packet =
      orBoottime ((latestDefault seen sequence).getD 0) := by
  rw [effectiveClock, if_neg (not_not.mpr hclock), hsequence]
  show orBoottime ((latestDefault (seen ++ [packet]) sequence).getD 0) = _
  rw [latestDefault_concat, hsets, Option.none_or]

theorem effectiveClock_kept (before : List Packet) (packet : Packet) :
    effectiveClock (kept cutoffs before ++ [packet.trim cutoffs]) (packet.trim cutoffs) =
      effectiveClock (retained cutoffs before ++ [packet]) packet := by
  have hmap : kept cutoffs before ++ [packet.trim cutoffs] =
      (retained cutoffs before ++ [packet]).map (Packet.trim cutoffs) := by
    rw [List.map_append, List.map_singleton, kept, keptFrom_eq]
    rfl
  rw [hmap, effectiveClock_trim]

/-- Clocks are preserved unless a retained packet is orphaned of a default. -/
theorem clocks_preserved_iff (packets : List Packet) :
    ClocksPreserved cutoffs packets ↔ ¬ Orphaned cutoffs packets := by
  have hbetween : ∀ {before between : List Packet} {setter : Packet} {sequence : Nat},
      (∀ packet ∈ between, packet.setsDefault sequence = none) →
      latestDefault (retained cutoffs (before ++ setter :: between)) sequence =
        latestDefault (retained cutoffs (before ++ [setter])) sequence := by
    intro before between setter sequence hnone
    have hsplit : before ++ setter :: between = (before ++ [setter]) ++ between := by simp
    rw [hsplit, retained, retainedFrom_append]
    refine latestDefault_append fun packet hpacket => hnone packet ?_
    exact (retainedFrom_sublist _ between).subset hpacket
  constructor
  · rintro hpreserved ⟨before, setter, between, heir, after, sequence, clock, rfl,
      hsetter, hdropped,
      hnone, hheir, hclock, hsequence, hretained, hdiffers⟩
    have hposition := hpreserved (before ++ setter :: between) heir after (by simp)
      (by simpa using hretained)
    rw [effectiveClock_kept, effectiveClock_inherits hclock hsequence hheir,
      effectiveClock_inherits hclock hsequence hheir, hbetween hnone, retained_concat,
      if_pos hdropped, List.append_nil] at hposition
    have hforce : latestDefault (before ++ setter :: between) sequence = some clock := by
      have hsplit : before ++ setter :: between = (before ++ [setter]) ++ between := by simp
      rw [hsplit, latestDefault_append hnone, latestDefault_concat, hsetter]
      rfl
    rw [hforce] at hposition
    exact hdiffers hposition.symm
  · intro hnoOrphan before packet after hpackets hretained
    rw [effectiveClock_kept]
    by_cases hclock : packet.clock = 0
    case neg => simp only [effectiveClock, ne_eq, hclock, not_false_eq_true, if_true]
    cases hsequence : packet.sequence with
    | none => simp only [effectiveClock, hclock, hsequence]
    | some sequence =>
        cases hsets : packet.setsDefault sequence with
        | some own =>
            simp only [effectiveClock, hclock, hsequence, latestDefault_concat, hsets,
              Option.some_or]
        | none =>
            rw [effectiveClock_inherits hclock hsequence hsets,
              effectiveClock_inherits hclock hsequence hsets]
            cases hlatest : latestDefault before sequence with
            | none =>
                have hnone : latestDefault (retained cutoffs before) sequence = none := by
                  unfold latestDefault at hlatest ⊢
                  rw [List.findSome?_eq_none_iff] at hlatest ⊢
                  intro other hother
                  refine hlatest other (List.mem_reverse.mpr ?_)
                  exact (retainedFrom_sublist [] before).subset (List.mem_reverse.mp hother)
                rw [hnone]
            | some clock =>
                obtain ⟨first, setter, between, rfl, hsetter, hnone⟩ := latestDefault_split hlatest
                rw [hbetween hnone, retained_concat]
                by_cases hdropped : isDropped cutoffs (first ++ [setter]) setter = true
                · rw [if_pos hdropped, List.append_nil]
                  by_contra hdiffers
                  refine hnoOrphan ⟨first, setter, between, packet, after, sequence,
                    clock, ?_, hsetter,
                    hdropped, hnone, hsets, hclock, hsequence, ?_, fun heq => hdiffers heq.symm⟩
                  · rw [hpackets]
                    simp
                  · simpa using hretained
                · rw [if_neg hdropped, latestDefault_concat, hsetter, Option.some_or]

/-! ## Trimming twice -/

theorem isPacket_of_mem {input : List UInt8} {packets : List Packet} (h : IsTrace input packets) :
    ∀ packet ∈ packets, ∃ bytes, IsPacket bytes packet := by
  induction h with
  | nil => simp
  | @cons _ _ bytes _ packet packets _ _ hpacket _ ih =>
      intro other hother
      rcases List.mem_cons.mp hother with rfl | hmem
      · exact ⟨bytes, hpacket⟩
      · exact ih other hmem

/-- When clocks are preserved, a trimmed trace loses nothing more. The induction is on the packets,
extended at the end. -/
theorem kept_kept {packets : List Packet}
    (hpacket : ∀ packet ∈ packets, ∃ bytes, IsPacket bytes packet)
    (h : ClocksPreserved cutoffs packets) :
    kept cutoffs (kept cutoffs packets) = kept cutoffs packets := by
  induction packets using List.reverseRecOn with
  | nil => rfl
  | append_singleton packets packet ih =>
      have hbefore : ClocksPreserved cutoffs packets := by
        intro before other after hsplit
        refine h before other (after ++ [packet]) ?_
        rw [hsplit]
        simp
      have hrest := ih (fun other hother => hpacket other (List.mem_append_left _ hother)) hbefore
      by_cases hdropped : isDropped cutoffs (packets ++ [packet]) packet = true
      · rw [kept_concat, if_pos hdropped, List.append_nil]
        exact hrest
      · obtain ⟨bytes, hbytes⟩ := hpacket packet (by simp)
        have hclock := h packets packet [] rfl (Bool.eq_false_iff.mpr hdropped)
        have hagain : isDropped cutoffs (kept cutoffs packets ++ [packet.trim cutoffs])
            (packet.trim cutoffs) = false := by
          have hsame : isDropped cutoffs (packets ++ [packet]) packet = false :=
            Bool.eq_false_iff.mpr hdropped
          rw [isDropped, hclock, hasFtrace_trim, Packet.timestamp, lastVarint_trim]
          exact hsame
        rw [kept_concat, if_neg hdropped, kept_concat, hrest, hagain, trim_trim hbytes]
        rfl

theorem perfettoTrimStream_eq (cutoffs : Cutoffs) {input : List UInt8} {packets : List Packet}
    (h : IsTrace input packets) :
    perfettoTrimStream cutoffs.boottime cutoffs.monotonic input =
      ((kept cutoffs packets).flatMap Packet.frame, none) :=
  (trim_stream_in_spec cutoffs (input.length + 1) [] [] input (fun _ => rfl)
    (Nat.lt_succ_self _)).2 packets h

/-- Trimming preserves the clocks of what it keeps, and trimming again changes nothing, exactly when
no retained packet is orphaned of a default. -/
theorem trim_preserves_clocks_iff (cutoffs : Cutoffs) {input : List UInt8} {packets : List Packet}
    (h : IsTrace input packets) :
    (ClocksPreserved cutoffs packets ∧
      perfettoTrimStream cutoffs.boottime cutoffs.monotonic
          (perfettoTrimStream cutoffs.boottime cutoffs.monotonic input).1 =
        ((perfettoTrimStream cutoffs.boottime cutoffs.monotonic input).1, none)) ↔
      ¬ Orphaned cutoffs packets := by
  rw [← clocks_preserved_iff]
  constructor
  · exact And.left
  · intro hpreserved
    have houtput := isTrace_kept cutoffs [] h
    refine ⟨hpreserved, ?_⟩
    rw [perfettoTrimStream_eq cutoffs h]
    dsimp only
    rw [show keptFrom cutoffs [] packets = kept cutoffs packets from rfl] at houtput
    rw [perfettoTrimStream_eq cutoffs houtput, kept_kept (isPacket_of_mem h) hpreserved]

/-- A packet of sequence 1 at MONOTONIC time 5 that makes MONOTONIC the default of its sequence. -/
def setterBytes : List UInt8 :=
  [0x50, 0x01, 0xda, 0x03, 0x03, 0xd0, 0x03, 0x03, 0x40, 0x05]

/-- A packet of sequence 1 at time 100 that names no clock. -/
def heirBytes : List UInt8 :=
  [0x50, 0x01, 0x40, 0x64]

/-- The two packets as a trace. -/
def orphanInput : List UInt8 :=
  [0x0a, 0x0a] ++ setterBytes ++ [0x0a, 0x04] ++ heirBytes

/-- With cutoffs 200 and 50 the first packet is dropped and the second one kept. Its clock was
MONOTONIC and becomes BOOTTIME, and trimming again drops it. -/
theorem trim_loses_default :
    perfettoTrimStream 200 50 orphanInput = ([0x0a, 0x04] ++ heirBytes, none) ∧
      effectiveClock [parseFields setterBytes, parseFields heirBytes] (parseFields heirBytes) =
        clockMonotonic ∧
      effectiveClock [parseFields heirBytes] (parseFields heirBytes) = clockBoottime ∧
      perfettoTrimStream 200 50 ([0x0a, 0x04] ++ heirBytes) = ([], none) := by
  decide +kernel

/-- The trace of `orphanInput` orphans a packet. -/
theorem trim_preserves_clocks_orphan :
    ∃ packets, IsTrace orphanInput packets ∧ Orphaned ⟨200, 50⟩ packets := by
  have hok : (trimStreamIn 200 50 (orphanInput.length + 1) [] orphanInput).2 = none := by
    decide +kernel
  have hagain : perfettoTrimStream 200 50 (perfettoTrimStream 200 50 orphanInput).1 ≠
      ((perfettoTrimStream 200 50 orphanInput).1, none) := by
    decide +kernel
  obtain ⟨packets, htrace⟩ := (trim_stream_in_spec ⟨200, 50⟩ (orphanInput.length + 1) [] []
    orphanInput (fun _ => rfl) (Nat.lt_succ_self _)).1 hok
  refine ⟨packets, htrace, ?_⟩
  by_contra hnone
  exact hagain ((trim_preserves_clocks_iff ⟨200, 50⟩ htrace).mpr hnone).2

end Anettrace.Trim
