import Anettrace.Library.Numbers

/-!
# The wire reader of the trimmer

Model of the protobuf reader in `src/perfetto_trim.c`. A cursor is the list of the bytes between it
and the end of its message. `next_field_iff` says which bytes one call of `next_field` accepts and
what it reads off them, and `for_fields_iff` turns every loop over the fields of a message into a
fold over the fields the message consists of.
-/

namespace Anettrace.Trim

open Library

/-- The error codes the trimmer returns. -/
inductive Errno where
  | ebadmsg | eprototype | enotsup | eprotonosupport | eoverflow
  deriving DecidableEq, Repr

def decodeVarintFrom (shift result : Nat) : List UInt8 → Except Errno (Nat × List UInt8)
  | [] => .error .ebadmsg
  | byte :: rest =>
      if shift ≥ 64 then .error .ebadmsg
      else if shift = 63 ∧ byte > 1 then .error .ebadmsg
      else
        let result := result ||| ((byte.toNat &&& 0x7f) <<< shift)
        if byte &&& 0x80 = 0 then .ok (result, rest) else decodeVarintFrom (shift + 7) result rest

def decodeVarint (cursor : List UInt8) : Except Errno (Nat × List UInt8) :=
  decodeVarintFrom 0 0 cursor

/-- `struct wire_field`; `bytes` are those from `start` to `end`. -/
structure WireField where
  bytes : List UInt8
  payload : List UInt8
  key : Nat
  value : Nat
  number : Nat
  wire : Nat
  deriving DecidableEq, Repr

/-- The part of `next_field` after the key: the value, the payload and the position of the end. -/
def fieldBody (wire : Nat) (position : List UInt8) :
    Except Errno (Nat × List UInt8 × List UInt8) :=
  match wire with
  | 0 =>
      match decodeVarint position with
      | .error err => .error err
      | .ok (value, position) => .ok (value, [], position)
  | 1 => if position.length < 8 then .error .ebadmsg else .ok (0, [], position.drop 8)
  | 2 =>
      match decodeVarint position with
      | .error _ => .error .ebadmsg
      | .ok (length, position) =>
          if length > position.length then .error .ebadmsg
          else .ok (0, position.take length, position.drop length)
  | 5 => if position.length < 4 then .error .ebadmsg else .ok (0, [], position.drop 4)
  | _ => .error .eprototype

def nextField (cursor : List UInt8) : Except Errno (WireField × List UInt8) :=
  match decodeVarint cursor with
  | .error _ => .error .ebadmsg
  | .ok (key, position) =>
      if key = 0 then .error .ebadmsg
      else
        match fieldBody (key &&& 7) position with
        | .error err => .error err
        | .ok (value, payload, position) =>
            .ok ({ bytes := cursor.take (cursor.length - position.length)
                   payload := payload
                   key := key
                   value := value
                   number := (key >>> 3) % 2 ^ 32
                   wire := key &&& 7 }, position)

/-- The loop every message is read with: `while (cursor < end)` call `next_field` and do something
with the field. No field is empty, so as many rounds as there are bytes are enough. -/
def forFieldsIn {σ : Type} (body : σ → WireField → Except Errno σ) :
    Nat → σ → List UInt8 → Except Errno σ
  | _, state, [] => .ok state
  | 0, _, _ :: _ => .error .ebadmsg
  | rounds + 1, state, byte :: rest =>
      match nextField (byte :: rest) with
      | .error err => .error err
      | .ok (field, cursor) =>
          match body state field with
          | .error err => .error err
          | .ok state => forFieldsIn body rounds state cursor

def forFields {σ : Type} (body : σ → WireField → Except Errno σ) (state : σ)
    (message : List UInt8) : Except Errno σ :=
  forFieldsIn body message.length state message

/-- `buffer_varint`, which holds at most 10 bytes. -/
def bufferVarint (value : Nat) : List UInt8 :=
  Varint.encode 10 value

/-! ## Varints -/

/-- The varints `decode_varint` accepts for a number: 64 bits in at most 10 bytes. -/
structure IsVarint (bytes : List UInt8) (number : Nat) : Prop where
  terminated : Varint.Terminated bytes
  value_eq : Varint.value bytes = number
  length_le : bytes.length ≤ 10
  bound : number < 2 ^ 64

theorem IsVarint.ne_nil {bytes : List UInt8} {number : Nat} (h : IsVarint bytes number) :
    bytes ≠ [] :=
  h.terminated.ne_nil

/-- `buffer_varint` writes what `decode_varint` accepts, and nothing shorter is accepted. -/
theorem bufferVarint_isVarint {number : Nat} (h : number < 2 ^ 64) :
    IsVarint (bufferVarint number) number := by
  obtain ⟨hterminated, hvalue, hlength⟩ :=
    Varint.encode_spec (show number < 128 ^ 10 by omega) (by decide)
  exact ⟨hterminated, hvalue, hlength, h⟩

theorem bufferVarint_length_le {bytes : List UInt8} {number : Nat} (h : IsVarint bytes number) :
    (bufferVarint number).length ≤ bytes.length := by
  rw [← h.value_eq]
  exact Varint.encode_length_le h.terminated 10

/-- The high bit of a byte, checked over the 256 bytes. -/
theorem and_high : ∀ number < 256, number &&& 0x80 = 128 * (number / 128) := by
  decide +kernel

theorem high_bit (byte : UInt8) : byte &&& 0x80 = 0 ↔ byte.toNat < 128 := by
  have hlt := byte.toNat_lt
  have hand : (byte &&& 0x80).toNat = byte.toNat &&& 0x80 := UInt8.toNat_and byte 0x80
  rw [← UInt8.toNat_inj, hand, and_high _ (by omega)]
  show 128 * (byte.toNat / 128) = 0 ↔ _
  omega

/-- One more group, below the bits already read. -/
theorem accumulate {shift result : Nat} (hresult : result < 2 ^ shift) (byte : UInt8) :
    result ||| ((byte.toNat &&& 0x7f) <<< shift) = result + 2 ^ shift * (byte.toNat % 128) := by
  have hor := Nat.shiftLeft_add_eq_or_of_lt hresult (byte.toNat % 128)
  rw [Varint.and_low, Nat.or_comm, ← hor, Nat.shiftLeft_eq, Nat.add_comm, Nat.mul_comm]

/-- What the loop accepts: the rest of a varint, and as many groups as fit in 64 bits. The induction
is on the bytes; the result so far stays below the shift. -/
theorem decodeVarintFrom_iff (groups result : Nat) (cursor : List UInt8) (hgroups : groups ≤ 9)
    (hresult : result < 2 ^ (7 * groups)) (number : Nat) (next : List UInt8) :
    decodeVarintFrom (7 * groups) result cursor = .ok (number, next) ↔
      ∃ bytes, cursor = bytes ++ next ∧ Varint.Terminated bytes ∧ groups + bytes.length ≤ 10 ∧
        number = result + 2 ^ (7 * groups) * Varint.value bytes ∧ number < 2 ^ 64 := by
  induction cursor generalizing groups result with
  | nil =>
      simp only [decodeVarintFrom, reduceCtorEq, false_iff]
      rintro ⟨bytes, hsplit, hterminated, -⟩
      exact hterminated.ne_nil (List.append_eq_nil_iff.mp hsplit.symm).1
  | cons byte rest ih =>
      have hbyte := byte.toNat_lt
      rw [decodeVarintFrom, if_neg (by omega), accumulate hresult]
      by_cases hoverflow : 7 * groups = 63 ∧ byte > 1
      · rw [if_pos hoverflow]
        simp only [reduceCtorEq, false_iff]
        rintro ⟨bytes, hsplit, hterminated, hlength, hnumber, hbound⟩
        have hnine : groups = 9 := by omega
        have hbig : 1 < byte.toNat := UInt8.lt_iff_toNat_lt.mp hoverflow.2
        cases hterminated with
        | last hlast =>
            obtain ⟨rfl, -⟩ := List.cons.inj hsplit
            rw [hnumber, Varint.value, Varint.value, hnine] at hbound
            omega
        | more hmore hrest =>
            have hpos := List.length_pos_iff.mpr hrest.ne_nil
            rw [List.length_cons] at hlength
            omega
      · rw [if_neg hoverflow]
        have hpow : 2 ^ (7 * (groups + 1)) = 2 ^ (7 * groups) * 128 := by
          rw [Nat.mul_add, Nat.pow_add]
        by_cases hlast : byte.toNat < 128
        · rw [if_pos ((high_bit byte).mpr hlast)]
          simp only [Except.ok.injEq, Prod.mk.injEq]
          have hmod : byte.toNat % 128 = byte.toNat := Nat.mod_eq_of_lt hlast
          constructor
          · rintro ⟨hnumber, rfl⟩
            refine ⟨[byte], rfl, .last hlast, by simp; omega, ?_, ?_⟩
            · simp only [Varint.value, hmod, Nat.mul_zero, Nat.add_zero] at hnumber ⊢
              omega
            · rcases Nat.lt_or_ge groups 9 with hless | hnine
              · have hmono : 2 ^ (7 * (groups + 1)) ≤ 2 ^ 63 :=
                  Nat.pow_le_pow_right (by decide) (by omega)
                have hmul : 2 ^ (7 * groups) * (byte.toNat % 128) ≤ 2 ^ (7 * groups) * 127 :=
                  Nat.mul_le_mul_left _ (by omega)
                omega
              · have hnine' : groups = 9 := by omega
                have hsmall : byte.toNat ≤ 1 := by
                  have hle : ¬ byte > 1 := fun hgt => hoverflow ⟨by omega, hgt⟩
                  exact UInt8.le_iff_toNat_le.mp (UInt8.not_lt.mp hle)
                rw [hnine'] at hresult hnumber
                have hcases : byte.toNat = 0 ∨ byte.toNat = 1 := by omega
                rcases hcases with hzero | hone
                · rw [hzero] at hnumber
                  omega
                · rw [hone] at hnumber
                  omega
          · rintro ⟨bytes, hsplit, hterminated, -, hnumber, -⟩
            cases hterminated with
            | last =>
                obtain ⟨rfl, rfl⟩ := List.cons.inj hsplit
                simp only [Varint.value, Nat.mul_zero, Nat.add_zero] at hnumber
                exact ⟨hnumber.symm, rfl⟩
            | more hmore =>
                obtain ⟨rfl, -⟩ := List.cons.inj hsplit
                omega
        · rw [if_neg (fun hzero => hlast ((high_bit byte).mp hzero))]
          have hnext : result + 2 ^ (7 * groups) * (byte.toNat % 128) < 2 ^ (7 * (groups + 1)) := by
            have hmul : 2 ^ (7 * groups) * (byte.toNat % 128) ≤ 2 ^ (7 * groups) * 127 :=
              Nat.mul_le_mul_left _ (by omega)
            omega
          have hvalue : ∀ bytes, result + 2 ^ (7 * groups) * (byte.toNat % 128) +
              2 ^ (7 * (groups + 1)) * Varint.value bytes =
                result + 2 ^ (7 * groups) * Varint.value (byte :: bytes) := by
            intro bytes
            rw [hpow, Varint.value, Nat.mul_add, Nat.mul_assoc, Nat.add_assoc]
          rcases Nat.lt_or_ge groups 9 with hless | hnine
          · rw [show 7 * groups + 7 = 7 * (groups + 1) from rfl, ih (groups + 1) _ (by omega) hnext]
            constructor
            · rintro ⟨bytes, rfl, hterminated, hlength, hnumber, hbound⟩
              refine ⟨byte :: bytes, rfl, .more (by omega) hterminated, ?_, ?_, hbound⟩
              · rw [List.length_cons]
                omega
              · rw [hnumber, hvalue]
            · rintro ⟨bytes, hsplit, hterminated, hlength, hnumber, hbound⟩
              cases hterminated with
              | last hlast' =>
                  obtain ⟨rfl, -⟩ := List.cons.inj hsplit
                  omega
              | more hmore hrest =>
                  obtain ⟨rfl, rfl⟩ := List.cons.inj hsplit
                  rw [List.length_cons] at hlength
                  refine ⟨_, rfl, hrest, by omega, ?_, hbound⟩
                  rw [hnumber, hvalue]
          · have hnine' : groups = 9 := by omega
            have hgt : byte > 1 := UInt8.lt_iff_toNat_lt.mpr (by show 1 < byte.toNat; omega)
            exact absurd ⟨by omega, hgt⟩ hoverflow

theorem decode_varint_iff {cursor next : List UInt8} {number : Nat} :
    decodeVarint cursor = .ok (number, next) ↔
      ∃ bytes, cursor = bytes ++ next ∧ IsVarint bytes number := by
  have h := decodeVarintFrom_iff 0 0 cursor (by decide) (by decide) number next
  simp only [Nat.mul_zero, Nat.pow_zero, Nat.one_mul, Nat.zero_add] at h
  rw [decodeVarint, h]
  constructor
  · rintro ⟨bytes, hsplit, hterminated, hlength, hnumber, hbound⟩
    exact ⟨bytes, hsplit, hterminated, hnumber.symm, hlength, hbound⟩
  · rintro ⟨bytes, hsplit, hvarint⟩
    exact ⟨bytes, hsplit, hvarint.terminated, hvarint.length_le, hvarint.value_eq.symm,
      hvarint.bound⟩

/-! ## Fields -/

/-- The bytes after the key, by wire type, with the value and the payload they carry. -/
inductive IsBody : Nat → List UInt8 → Nat → List UInt8 → Prop where
  | varint {bytes : List UInt8} {value : Nat} (h : IsVarint bytes value) : IsBody 0 bytes value []
  | fixed64 {bytes : List UInt8} (h : bytes.length = 8) : IsBody 1 bytes 0 []
  | delimited {lengthBytes payload : List UInt8} (h : IsVarint lengthBytes payload.length) :
      IsBody 2 (lengthBytes ++ payload) 0 payload
  | fixed32 {bytes : List UInt8} (h : bytes.length = 4) : IsBody 5 bytes 0 []

/-- A field whose bytes are a nonzero key and a body of the wire type of the key. -/
structure IsField (field : WireField) : Prop where
  shape : ∃ keyBytes body, field.bytes = keyBytes ++ body ∧ IsVarint keyBytes field.key ∧
    IsBody field.wire body field.value field.payload
  key_ne : field.key ≠ 0
  number_eq : field.number = (field.key >>> 3) % 2 ^ 32
  wire_eq : field.wire = field.key &&& 7

theorem IsField.bytes_ne_nil {field : WireField} (h : IsField field) : field.bytes ≠ [] := by
  obtain ⟨keyBytes, body, hbytes, hkey, -⟩ := h.shape
  rw [hbytes]
  intro hnil
  exact hkey.ne_nil (List.append_eq_nil_iff.mp hnil).1

/-- The cases of `next_field` after the key. -/
theorem field_body_iff {wire value : Nat} {position payload next : List UInt8} :
    fieldBody wire position = .ok (value, payload, next) ↔
      ∃ body, position = body ++ next ∧ IsBody wire body value payload := by
  have hfixed : ∀ size, (if position.length < size then Except.error Errno.ebadmsg
      else .ok (0, [], position.drop size)) = .ok (value, payload, next) ↔
        ∃ body, position = body ++ next ∧ body.length = size ∧ value = 0 ∧ payload = [] := by
    intro size
    split
    case isTrue hshort =>
      simp only [reduceCtorEq, false_iff]
      rintro ⟨body, rfl, hlength, -⟩
      rw [List.length_append] at hshort
      omega
    case isFalse hlong =>
      simp only [Except.ok.injEq, Prod.mk.injEq]
      constructor
      · rintro ⟨rfl, rfl, rfl⟩
        refine ⟨position.take size, (List.take_append_drop size position).symm, ?_, rfl, rfl⟩
        rw [List.length_take]
        omega
      · rintro ⟨body, rfl, hlength, rfl, rfl⟩
        exact ⟨rfl, rfl, List.drop_left' hlength⟩
  unfold fieldBody
  split
  · -- a varint
    constructor
    · intro h
      split at h
      · cases h
      · rename_i number rest hdecode
        cases h
        obtain ⟨bytes, hsplit, hvarint⟩ := decode_varint_iff.mp hdecode
        exact ⟨bytes, hsplit, .varint hvarint⟩
    · rintro ⟨body, hsplit, hbody⟩
      cases hbody with
      | varint hvarint => rw [decode_varint_iff.mpr ⟨body, hsplit, hvarint⟩]
  · rw [hfixed]
    constructor
    · rintro ⟨body, hsplit, hlength, rfl, rfl⟩
      exact ⟨body, hsplit, .fixed64 hlength⟩
    · rintro ⟨body, hsplit, hbody⟩
      cases hbody with
      | fixed64 hlength => exact ⟨body, hsplit, hlength, rfl, rfl⟩
  · -- a length and as many bytes
    constructor
    · intro h
      split at h
      · cases h
      · rename_i length rest hdecode
        split at h
        · cases h
        · rename_i hlong
          cases h
          obtain ⟨bytes, rfl, hvarint⟩ := decode_varint_iff.mp hdecode
          have hlength : (rest.take length).length = length := by
            rw [List.length_take]
            omega
          refine ⟨bytes ++ rest.take length, ?_, .delimited ?_⟩
          · rw [List.append_assoc, List.take_append_drop]
          · rw [hlength]
            exact hvarint
    · rintro ⟨body, hsplit, hbody⟩
      cases hbody with
      | @delimited lengthBytes _ hvarint =>
          rw [List.append_assoc] at hsplit
          rw [decode_varint_iff.mpr ⟨lengthBytes, hsplit, hvarint⟩]
          have hfits : ¬ payload.length > (payload ++ next).length := by
            rw [List.length_append]
            omega
          dsimp only
          rw [if_neg hfits, List.take_left, List.drop_left]
  · rw [hfixed]
    constructor
    · rintro ⟨body, hsplit, hlength, rfl, rfl⟩
      exact ⟨body, hsplit, .fixed32 hlength⟩
    · rintro ⟨body, hsplit, hbody⟩
      cases hbody with
      | fixed32 hlength => exact ⟨body, hsplit, hlength, rfl, rfl⟩
  · simp only [reduceCtorEq, false_iff]
    rintro ⟨body, hsplit, hbody⟩
    cases hbody <;> contradiction

/-- `next_field` accepts a field at the cursor and returns it with the position after it. -/
theorem next_field_iff {cursor next : List UInt8} {field : WireField} :
    nextField cursor = .ok (field, next) ↔ cursor = field.bytes ++ next ∧ IsField field := by
  unfold nextField
  constructor
  · intro h
    split at h
    · cases h
    rename_i key position hkey
    split at h
    · cases h
    rename_i hne
    split at h
    · cases h
    rename_i value payload rest hbody
    cases h
    obtain ⟨keyBytes, rfl, hvarint⟩ := decode_varint_iff.mp hkey
    obtain ⟨body, rfl, hisBody⟩ := field_body_iff.mp hbody
    have hlength : (keyBytes ++ (body ++ next)).length - next.length =
        (keyBytes ++ body).length := by
      simp only [List.length_append]
      omega
    have hbytes : (keyBytes ++ (body ++ next)).take
        ((keyBytes ++ (body ++ next)).length - next.length) = keyBytes ++ body := by
      rw [hlength, ← List.append_assoc, List.take_left]
    refine ⟨?_, ⟨keyBytes, body, hbytes, hvarint, hisBody⟩, hne, rfl, rfl⟩
    dsimp only
    rw [hbytes, List.append_assoc]
  · rintro ⟨rfl, ⟨keyBytes, body, hbytes, hvarint, hbody⟩, hne, hnumber, hwire⟩
    have hsplit : field.bytes ++ next = keyBytes ++ (body ++ next) := by
      rw [hbytes, List.append_assoc]
    rw [decode_varint_iff.mpr ⟨keyBytes, hsplit, hvarint⟩]
    dsimp only
    rw [if_neg hne, ← hwire, field_body_iff.mpr ⟨body, rfl, hbody⟩]
    have htake : (field.bytes ++ next).take ((field.bytes ++ next).length - next.length) =
        field.bytes := by
      rw [List.length_append, Nat.add_sub_cancel, List.take_left]
    dsimp only
    rw [htake, ← hnumber]

/-! ## Messages -/

def IsMessage (message : List UInt8) (fields : List WireField) : Prop :=
  message = fields.flatMap WireField.bytes ∧ ∀ field ∈ fields, IsField field

theorem isMessage_nil : IsMessage [] [] :=
  ⟨rfl, by simp⟩

theorem isMessage_cons {field : WireField} {rest : List UInt8} {fields : List WireField}
    (hfield : IsField field) (hrest : IsMessage rest fields) :
    IsMessage (field.bytes ++ rest) (field :: fields) := by
  refine ⟨?_, ?_⟩
  · rw [List.flatMap_cons, ← hrest.1]
  · intro other hother
    rcases List.mem_cons.mp hother with rfl | hmem
    · exact hfield
    · exact hrest.2 other hmem

theorem isMessage_cons_inv {byte : UInt8} {bytes : List UInt8} {fields : List WireField}
    (h : IsMessage (byte :: bytes) fields) :
    ∃ field rest, fields = field :: rest ∧
      nextField (byte :: bytes) = .ok (field, rest.flatMap WireField.bytes) ∧
      IsField field ∧ IsMessage (rest.flatMap WireField.bytes) rest := by
  cases fields with
  | nil => exact absurd h.1 (by simp)
  | cons field rest =>
      have hfield := h.2 field List.mem_cons_self
      refine ⟨field, rest, rfl, ?_, hfield, rfl, fun other hother =>
        h.2 other (List.mem_cons_of_mem _ hother)⟩
      exact next_field_iff.mpr ⟨by rw [h.1, List.flatMap_cons], hfield⟩

/-- A message has one reading. -/
theorem IsMessage.unique {message : List UInt8} {first second : List WireField}
    (hfirst : IsMessage message first) (hsecond : IsMessage message second) : first = second := by
  induction first generalizing message second with
  | nil =>
      cases message with
      | cons byte bytes => exact absurd hfirst.1 (by simp)
      | nil =>
          cases second with
          | nil => rfl
          | cons field rest =>
              have hnil := hsecond.1
              rw [List.flatMap_cons] at hnil
              exact absurd (List.append_eq_nil_iff.mp hnil.symm).1
                (hsecond.2 field List.mem_cons_self).bytes_ne_nil
  | cons field rest ih =>
      cases message with
      | nil =>
          have hnil := hfirst.1
          rw [List.flatMap_cons] at hnil
          exact absurd (List.append_eq_nil_iff.mp hnil.symm).1
            (hfirst.2 field List.mem_cons_self).bytes_ne_nil
      | cons byte bytes =>
          obtain ⟨field', rest', heq, hnext, -, hrest⟩ := isMessage_cons_inv hfirst
          obtain ⟨field'', rest'', rfl, hnext', -, hrest'⟩ := isMessage_cons_inv hsecond
          cases heq
          rw [hnext] at hnext'
          simp only [Except.ok.injEq, Prod.mk.injEq] at hnext'
          rw [hnext'.1]
          congr 1
          refine ih hrest ?_
          rw [hnext'.2]
          exact hrest'

section

variable {σ : Type} (body : σ → WireField → Except Errno σ) (rounds : Nat) (state : σ)
  {message : List UInt8}

/-- The loop over a message is the fold over its fields, once the message has fields. -/
theorem for_fields_message {fields : List WireField} (h : IsMessage message fields)
    (hrounds : message.length ≤ rounds) :
    forFieldsIn body rounds state message = fields.foldlM body state := by
  induction fields generalizing rounds state message with
  | nil =>
      rw [show message = [] from h.1]
      cases rounds <;> rfl
  | cons field rest ih =>
      cases message with
      | nil =>
          have hnil := h.1
          rw [List.flatMap_cons] at hnil
          exact absurd (List.append_eq_nil_iff.mp hnil.symm).1
            (h.2 field List.mem_cons_self).bytes_ne_nil
      | cons byte bytes =>
          cases rounds with
          | zero => exact absurd hrounds (by simp)
          | succ rounds =>
              obtain ⟨field', rest', heq, hnext, hfield, hrest⟩ := isMessage_cons_inv h
              cases heq
              rw [forFieldsIn, hnext, List.foldlM_cons]
              dsimp only
              cases body state field with
              | error err => rfl
              | ok state' =>
                  refine ih rounds state' hrest ?_
                  have hlength := congrArg List.length h.1
                  have hpos := List.length_pos_iff.mpr hfield.bytes_ne_nil
                  rw [List.flatMap_cons, List.length_append] at hlength
                  omega

/-- A loop that succeeds has read its message as fields. -/
theorem for_fields_parses {result : σ} (h : forFieldsIn body rounds state message = .ok result) :
    ∃ fields, IsMessage message fields := by
  induction rounds generalizing state message with
  | zero =>
      cases message with
      | nil => exact ⟨[], isMessage_nil⟩
      | cons byte bytes => cases h
  | succ rounds ih =>
      cases message with
      | nil => exact ⟨[], isMessage_nil⟩
      | cons byte bytes =>
          rw [forFieldsIn] at h
          split at h
          · cases h
          rename_i field cursor hnext
          split at h
          · cases h
          rename_i state' _
          obtain ⟨hsplit, hfield⟩ := next_field_iff.mp hnext
          obtain ⟨fields, hfields⟩ := ih state' h
          rw [hsplit]
          exact ⟨field :: fields, isMessage_cons hfield hfields⟩

end

/-- A loop over the fields of a message succeeds when the bytes are a message and the fold over its
fields does. -/
theorem for_fields_iff {σ : Type} {body : σ → WireField → Except Errno σ} {state result : σ}
    {message : List UInt8} :
    forFields body state message = .ok result ↔
      ∃ fields, IsMessage message fields ∧ fields.foldlM body state = .ok result := by
  constructor
  · intro h
    obtain ⟨fields, hfields⟩ := for_fields_parses body _ state h
    refine ⟨fields, hfields, ?_⟩
    rw [← for_fields_message body _ state hfields (Nat.le_refl _)]
    exact h
  · rintro ⟨fields, hfields, hfold⟩
    rw [forFields, for_fields_message body _ state hfields (Nat.le_refl _)]
    exact hfold

end Anettrace.Trim
