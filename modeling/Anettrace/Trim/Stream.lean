import Mathlib.Data.List.Flatten
import Anettrace.Trim.Packet

/-!
# The trimmed stream

`trim_stream_spec` says when the trimmer succeeds and what it writes. What it writes is a trace of
the same grammar: the packets kept are packets, and their lengths only shrink.
-/

namespace Anettrace.Trim

open Library

/-! ## Reading packets -/

theorem readVarintFdFrom_eq (shift result : Nat) (input : List UInt8) (h : shift ≠ 0 ∨ input ≠ []) :
    readVarintFdFrom shift result input =
      match decodeVarintFrom shift result input with
      | .error err => .error err
      | .ok found => .ok (some found) := by
  induction input generalizing shift result with
  | nil =>
      rw [readVarintFdFrom, if_neg (h.resolve_right (by simp))]
      rfl
  | cons byte rest ih =>
      rw [readVarintFdFrom, decodeVarintFrom]
      split
      · rfl
      split
      · rfl
      dsimp only
      split
      · rfl
      · exact ih (shift + 7) _ (Or.inl (by omega))

theorem read_varint_fd_iff {input next : List UInt8} {number : Nat} :
    readVarintFd input = .ok (some (number, next)) ↔
      ∃ bytes, input = bytes ++ next ∧ IsVarint bytes number := by
  cases input with
  | nil =>
      constructor
      · intro h
        cases h
      · rintro ⟨bytes, hsplit, hvarint⟩
        exact absurd (List.append_eq_nil_iff.mp hsplit.symm).1 hvarint.ne_nil
  | cons byte rest =>
      rw [readVarintFd, readVarintFdFrom_eq 0 0 _ (Or.inr (by simp)), ← decode_varint_iff,
        decodeVarint]
      cases decodeVarintFrom 0 0 (byte :: rest) with
      | error err => simp
      | ok found => simp

/-- Only an empty file is at its end. -/
theorem read_varint_fd_eof {input : List UInt8} (h : readVarintFd input = .ok none) :
    input = [] := by
  cases input with
  | nil => rfl
  | cons byte rest =>
      rw [readVarintFd, readVarintFdFrom_eq 0 0 _ (Or.inr (by simp))] at h
      split at h <;> cases h

theorem trim_stream_in_spec (cutoffs : Cutoffs) (rounds : Nat) (seen : List Packet)
    (state : TrimState) (input : List UInt8) (hstate : Remembers seen state)
    (hrounds : input.length < rounds) :
    ((trimStreamIn cutoffs.boottime cutoffs.monotonic rounds state input).2 = none →
      ∃ packets, IsTrace input packets) ∧
    ∀ packets, IsTrace input packets →
      trimStreamIn cutoffs.boottime cutoffs.monotonic rounds state input =
        ((keptFrom cutoffs seen packets).flatMap Packet.frame, none) := by
  induction rounds generalizing seen state input with
  | zero => omega
  | succ rounds ih =>
      constructor
      · intro h
        rw [trimStreamIn] at h
        split at h
        · cases h
        · rename_i heof
          rw [read_varint_fd_eof heof]
          exact ⟨[], .nil⟩
        rename_i key input' hkey
        split at h
        · cases h
        rename_i hten
        split at h
        · cases h
        · cases h
        rename_i size body hsize
        split at h
        · cases h
        rename_i hlong
        obtain ⟨keyBytes, rfl, hkeyVarint⟩ := read_varint_fd_iff.mp hkey
        obtain ⟨lengthBytes, rfl, hlengthVarint⟩ := read_varint_fd_iff.mp hsize
        have hkeyTen : key = 10 := not_not.mp hten
        have hlength : (body.take size).length = size := by
          rw [List.length_take]
          omega
        have hkeyPos := List.length_pos_iff.mpr hkeyVarint.ne_nil
        have hshorter : (body.drop size).length < rounds := by
          simp only [List.length_append] at hrounds
          rw [List.length_drop]
          omega
        have hassemble : ∀ packet packets, IsPacket (body.take size) packet →
            IsTrace (body.drop size) packets →
            IsTrace (keyBytes ++ (lengthBytes ++ body)) (packet :: packets) := by
          intro packet packets hpacket htrace
          have hcons := IsTrace.cons (hkeyTen ▸ hkeyVarint) (hlength ▸ hlengthVarint) hpacket htrace
          rw [List.append_assoc, List.append_assoc, List.take_append_drop] at hcons
          exact hcons
        -- whether a packet is kept or not, the state behind it knows it
        have hgoes : ∀ next trimmed, trimPacket cutoffs.boottime cutoffs.monotonic state
            (body.take size) = .ok (next, trimmed) →
          (trimStreamIn cutoffs.boottime cutoffs.monotonic rounds next (body.drop size)).2 = none →
          ∃ packets, IsTrace (keyBytes ++ (lengthBytes ++ body)) packets := by
          intro next trimmed htrim hdone
          obtain ⟨packet, hpacket⟩ := (trim_packet_spec hstate).1 _ _ htrim
          obtain ⟨next', hnext', hok⟩ := (trim_packet_spec hstate).2 packet hpacket
          rw [htrim] at hok
          simp only [Except.ok.injEq, Prod.mk.injEq] at hok
          rw [← hok.1] at hnext'
          obtain ⟨packets, htrace⟩ := (ih _ next (body.drop size) hnext' hshorter).1 hdone
          exact ⟨packet :: packets, hassemble packet packets hpacket htrace⟩
        split at h
        · cases h
        · exact hgoes _ _ ‹_› h
        · exact hgoes _ _ ‹_› h
      · intro packets htrace
        cases htrace with
        | nil => rfl
        | @cons keyBytes lengthBytes bytes rest packet packets hkey hlength hpacket hrest =>
            have hkeyRead : readVarintFd (keyBytes ++ lengthBytes ++ bytes ++ rest) =
                .ok (some (10, lengthBytes ++ (bytes ++ rest))) :=
              read_varint_fd_iff.mpr ⟨keyBytes, by simp, hkey⟩
            have hlengthRead : readVarintFd (lengthBytes ++ (bytes ++ rest)) =
                .ok (some (bytes.length, bytes ++ rest)) :=
              read_varint_fd_iff.mpr ⟨lengthBytes, rfl, hlength⟩
            have hfits : ¬ (bytes ++ rest).length < bytes.length := by
              rw [List.length_append]
              omega
            have hkeyPos := List.length_pos_iff.mpr hkey.ne_nil
            have hshorter : rest.length < rounds := by
              simp only [List.length_append] at hrounds
              omega
            obtain ⟨next, hnext, htrim⟩ := (trim_packet_spec hstate).2 packet hpacket
            have hloop := (ih (seen ++ [packet]) next rest hnext hshorter).2 packets hrest
            rw [trimStreamIn, hkeyRead]
            dsimp only
            rw [if_neg (by decide), hlengthRead]
            dsimp only
            rw [if_neg hfits, List.take_left, List.drop_left, htrim, keptFrom]
            by_cases hdropped : isDropped cutoffs (seen ++ [packet]) packet = true
            · rw [if_pos hdropped, if_pos hdropped]
              exact hloop
            · rw [if_neg hdropped, if_neg hdropped]
              dsimp only
              rw [hloop, List.flatMap_cons]
              rfl

/-! ## The output is a trace -/

/-- A field that stays takes no more room than before, and is still a field. -/
theorem trimField_spec {cutoff : Nat} {field : WireField} (h : IsField field)
    (hbundle : field.isMessage 1 = true → ∃ inner, IsBundle field.payload inner) :
    IsField (trimField cutoff field) ∧
      (trimField cutoff field).bytes.length ≤ field.bytes.length := by
  unfold trimField
  split
  case isFalse => exact ⟨h, Nat.le_refl _⟩
  case isTrue hmessage =>
    obtain ⟨inner, hinner⟩ := hbundle hmessage
    obtain ⟨keyBytes, body, hbytes, hkey, hbody⟩ := h.shape
    have hwire : field.wire = 2 := (WireField.isMessage_iff.mp hmessage).2
    rw [hwire] at hbody
    have hparsed : parseFields field.payload = inner := parseFields_eq hinner.message
    have hshorter : ((bundleKept cutoff field).flatMap WireField.bytes).length ≤
        field.payload.length := by
      have hpayload : field.payload = inner.flatMap WireField.bytes := hinner.message.1
      rw [bundleKept, hparsed, hpayload]
      exact (List.filter_sublist.flatMap _).length_le
    generalize hpayload' : field.payload = payload at hbody hshorter
    generalize hvalue' : field.value = value at hbody
    cases hbody with
    | @delimited lengthBytes _ hlength =>
        have hlength' : IsVarint (bufferVarint
            ((bundleKept cutoff field).flatMap WireField.bytes).length) _ :=
          bufferVarint_isVarint (Nat.lt_of_le_of_lt hshorter hlength.bound)
        refine ⟨⟨?_, h.key_ne, h.number_eq, h.wire_eq⟩, ?_⟩
        · refine ⟨_, _, rfl, bufferVarint_isVarint hkey.bound, ?_⟩
          show IsBody field.wire _ 0 _
          rw [hwire]
          exact .delimited hlength'
        · have hkeyLe := bufferVarint_length_le hkey
          have hlengthLe := bufferVarint_length_le hlength
          have hmono := Varint.encode_length_mono 10 hshorter
          change (bufferVarint _).length ≤ (bufferVarint _).length at hmono
          rw [hbytes]
          simp only [List.length_append]
          omega

theorem trimField_isMessage (cutoff : Nat) (field : WireField) (number : Nat) :
    (trimField cutoff field).isMessage number = field.isMessage number := by
  unfold trimField
  split <;> rfl

theorem trimField_number (cutoff : Nat) (field : WireField) :
    (trimField cutoff field).number = field.number := by
  unfold trimField
  split <;> rfl

theorem isBundle_kept {cutoff : Nat} {field : WireField} {inner : List WireField}
    (h : IsBundle field.payload inner) :
    IsBundle ((bundleKept cutoff field).flatMap WireField.bytes) (bundleKept cutoff field) := by
  have hsubset : ∀ other ∈ bundleKept cutoff field, other ∈ inner := by
    intro other hother
    rw [bundleKept, parseFields_eq h.message] at hother
    exact (List.mem_filter.mp hother).1
  refine ⟨⟨rfl, ?_⟩, ?_, ?_⟩
  · exact fun other hother => h.message.2 other (hsubset other hother)
  · exact fun other hother => h.compact other (hsubset other hother)
  · exact fun other hother => h.events other (hsubset other hother)

/-- A trimmed packet is a packet, and no longer than before. -/
theorem isPacket_trim {cutoffs : Cutoffs} {bytes : List UInt8} {packet : Packet}
    (h : IsPacket bytes packet) :
    IsPacket (packet.trim cutoffs).bytes (packet.trim cutoffs) ∧
      (packet.trim cutoffs).bytes.length ≤ bytes.length := by
  have hfields : ∀ field ∈ packet, IsField (trimField cutoffs.boottime field) ∧
      (trimField cutoffs.boottime field).bytes.length ≤ field.bytes.length :=
    fun field hfield => trimField_spec (h.message.2 field hfield) (h.bundles field hfield)
  refine ⟨⟨⟨rfl, ?_⟩, ?_, ?_, ?_⟩, ?_⟩
  · intro other hother
    obtain ⟨field, hfield, rfl⟩ := List.mem_map.mp hother
    exact (hfields field hfield).1
  · intro other hother
    obtain ⟨field, hfield, rfl⟩ := List.mem_map.mp hother
    rw [trimField_number]
    exact h.supported field hfield
  · intro other hother hmessage
    obtain ⟨field, hfield, rfl⟩ := List.mem_map.mp hother
    rw [trimField_isMessage] at hmessage
    have hother : ¬ field.isMessage 1 = true := by
      rw [WireField.isMessage_iff] at hmessage ⊢
      omega
    rw [trimField, if_neg hother]
    exact h.defaults field hfield hmessage
  · intro other hother hmessage
    obtain ⟨field, hfield, rfl⟩ := List.mem_map.mp hother
    rw [trimField_isMessage] at hmessage
    obtain ⟨inner, hinner⟩ := h.bundles field hfield hmessage
    rw [trimField, if_pos hmessage]
    exact ⟨_, isBundle_kept hinner⟩
  · rw [h.message.1]
    clear h
    induction packet with
    | nil => exact Nat.le_refl _
    | cons field rest ih =>
        have hfield := (hfields field List.mem_cons_self).2
        have hrest := ih fun other hother => hfields other (List.mem_cons_of_mem _ hother)
        simp only [Packet.trim, Packet.bytes, List.map_cons, List.flatMap_cons,
          List.length_append] at hrest ⊢
        omega

theorem isTrace_kept (cutoffs : Cutoffs) (seen : List Packet) {input : List UInt8}
    {packets : List Packet} (h : IsTrace input packets) :
    IsTrace ((keptFrom cutoffs seen packets).flatMap Packet.frame)
      (keptFrom cutoffs seen packets) := by
  induction h generalizing seen with
  | nil => exact .nil
  | @cons keyBytes lengthBytes bytes rest packet packets hkey hlength hpacket hrest ih =>
      rw [keptFrom]
      split
      case isTrue => exact ih _
      case isFalse =>
        obtain ⟨htrimmed, hshorter⟩ := isPacket_trim hpacket
        rw [List.flatMap_cons]
        exact .cons (bufferVarint_isVarint (by decide))
          (bufferVarint_isVarint (Nat.lt_of_le_of_lt hshorter hlength.bound)) htrimmed (ih _)

/-! ## The specification -/

/-- Trimming succeeds exactly on the traces of the grammar. It then writes the packets that are not
too old for their effective clock, in order, with the old events of their bundles removed and every
other field as it was, and what it writes is again a trace. -/
theorem trim_stream_spec (cutoffs : Cutoffs) (input : List UInt8) :
    ((perfettoTrimStream cutoffs.boottime cutoffs.monotonic input).2 = none ↔
      ∃ packets, IsTrace input packets) ∧
    ∀ packets, IsTrace input packets →
      (perfettoTrimStream cutoffs.boottime cutoffs.monotonic input).1 =
        (kept cutoffs packets).flatMap Packet.frame ∧
      IsTrace (perfettoTrimStream cutoffs.boottime cutoffs.monotonic input).1
        (kept cutoffs packets) := by
  have hspec := trim_stream_in_spec cutoffs (input.length + 1) [] [] input (fun _ => rfl)
    (Nat.lt_succ_self _)
  refine ⟨⟨hspec.1, ?_⟩, ?_⟩
  · rintro ⟨packets, htrace⟩
    rw [perfettoTrimStream, hspec.2 packets htrace]
  · intro packets htrace
    rw [perfettoTrimStream, hspec.2 packets htrace]
    exact ⟨rfl, isTrace_kept cutoffs [] htrace⟩

end Anettrace.Trim
