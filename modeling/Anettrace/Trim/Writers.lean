import Anettrace.Native.Proto
import Anettrace.Trim.Stream

/-!
# What the exporter writes, as the trimmer reads it

The writers of `src/perfetto_export.c` and the readers of `src/perfetto_trim.c` are separate code.
`writers_and_readers_agree` says that they speak one encoding: the reader yields the fields that
were written, the two varint writers write the same bytes, and the two varint readers accept the
same ones.
-/

namespace Anettrace.Trim

open Library Library.Varint Anettrace.Native

/-- A call of one of the writers. -/
inductive FieldWrite where
  | uint (field : UInt32) (value : UInt64)
  | fixed64 (field : UInt32) (value : UInt64)
  | string (field : UInt32) (value : List UInt8)
  | message (field : UInt32) (inner : ProtoBuffer)
  deriving DecidableEq, Repr

namespace FieldWrite

def write (buffer : ProtoBuffer) : FieldWrite → ProtoBuffer
  | .uint field value => buffer.protoUint field value
  | .fixed64 field value => buffer.protoFixed64 field value
  | .string field value => buffer.protoString field value
  | .message field inner => buffer.protoMessage field inner

def field : FieldWrite → UInt32
  | .uint field _ | .fixed64 field _ | .string field _ | .message field _ => field

def wire : FieldWrite → UInt8
  | .uint _ _ => 0
  | .fixed64 _ _ => 1
  | .string _ _ | .message _ _ => 2

def value : FieldWrite → Nat
  | .uint _ value => value.toNat
  | _ => 0

def payload : FieldWrite → List UInt8
  | .string _ value => value
  | .message _ inner => inner.data
  | _ => []

def key (call : FieldWrite) : Nat :=
  ((call.field.toUInt64 <<< 3) ||| call.wire.toUInt64).toNat

/-- The bytes after the key. -/
def body : FieldWrite → List UInt8
  | .uint _ value => encode 10 value.toNat
  | .fixed64 _ value => littleEndian 8 value.toNat
  | .string _ value => encode 10 (UInt64.ofNat value.length).toNat ++ value
  | .message _ inner => encode 10 (UInt64.ofNat inner.data.length).toNat ++ inner.data

/-- The field that the trimmer should see. A fixed-width value is in the bytes of the field only. -/
def written (call : FieldWrite) : WireField where
  bytes := encode 10 call.key ++ call.body
  payload := call.payload
  key := call.key
  value := call.value
  number := call.field.toNat
  wire := call.wire.toNat

/-- A field number is at least 1, and the size of a payload is a `size_t`. -/
def Writable (call : FieldWrite) : Prop :=
  1 ≤ call.field.toNat ∧ call.payload.length < 2 ^ 64

instance (call : FieldWrite) : Decidable call.Writable :=
  inferInstanceAs (Decidable (_ ∧ _))

theorem write_data (buffer : ProtoBuffer) (call : FieldWrite) :
    (call.write buffer).data = buffer.data ++ call.written.bytes := by
  cases call with
  | uint | fixed64 =>
      show (buffer.data ++ _) ++ _ = _
      rw [List.append_assoc]
      rfl
  | string | message =>
      show ((buffer.data ++ _) ++ _) ++ _ = _
      rw [List.append_assoc, List.append_assoc]
      rfl

theorem writes_data (buffer : ProtoBuffer) (calls : List FieldWrite) :
    (calls.foldl write buffer).data =
      buffer.data ++ (calls.map written).flatMap WireField.bytes := by
  induction calls generalizing buffer with
  | nil => exact (List.append_nil _).symm
  | cons call rest ih =>
      rw [List.foldl_cons, ih, write_data, List.map_cons, List.flatMap_cons, List.append_assoc]

theorem wire_lt (call : FieldWrite) : call.wire.toNat < 8 := by
  cases call <;> exact Nat.lt_of_sub_eq_succ rfl

/-- The key is the field number above three bits of wire type. -/
theorem key_eq (call : FieldWrite) : call.key = call.field.toNat * 8 + call.wire.toNat := by
  have hwire : call.wire.toNat < 2 ^ 3 := call.wire_lt
  have hfield := call.field.toNat_lt
  have hshift : (call.field.toUInt64 <<< 3).toNat = call.field.toNat <<< 3 := by
    rw [UInt64.toNat_shiftLeft, UInt32.toNat_toUInt64]
    refine Nat.mod_eq_of_lt ?_
    rw [Nat.shiftLeft_eq]
    show call.field.toNat * 8 < 2 ^ 64
    omega
  have hkey : call.key = call.field.toNat <<< 3 ||| call.wire.toNat := by
    unfold key
    rw [UInt64.toNat_or, hshift, UInt8.toNat_toUInt64]
  rw [hkey, ← Nat.shiftLeft_add_eq_or_of_lt hwire, Nat.shiftLeft_eq]

/-- The size of a payload that fits is written as it is. -/
theorem length_toNat {length : Nat} (h : length < 2 ^ 64) :
    (UInt64.ofNat length).toNat = length := by
  rw [UInt64.toNat_ofNat']
  exact Nat.mod_eq_of_lt h

theorem body_isBody {call : FieldWrite} (h : call.Writable) :
    IsBody call.wire.toNat call.body call.value call.payload := by
  cases call with
  | uint field value => exact .varint (bufferVarint_isVarint value.toNat_lt)
  | fixed64 field value => exact .fixed64 (littleEndian_length 8 value.toNat)
  | string field value =>
      have hsize : value.length < 2 ^ 64 := h.2
      refine .delimited ?_
      rw [length_toNat hsize]
      exact bufferVarint_isVarint hsize
  | message field inner =>
      have hsize : inner.data.length < 2 ^ 64 := h.2
      refine .delimited ?_
      rw [length_toNat hsize]
      exact bufferVarint_isVarint hsize

theorem written_isField {call : FieldWrite} (h : call.Writable) : IsField call.written := by
  have hwire := call.wire_lt
  have hfield := call.field.toNat_lt
  have hkey := call.key_eq
  have hpos := h.1
  refine ⟨⟨encode 10 call.key, call.body, rfl, bufferVarint_isVarint ?_, body_isBody h⟩, ?_, ?_, ?_⟩
  · omega
  · show call.key ≠ 0
    omega
  · show call.field.toNat = (call.key >>> 3) % 2 ^ 32
    rw [Nat.shiftRight_eq_div_pow]
    omega
  · show call.wire.toNat = call.key &&& 7
    rw [show 7 = 2 ^ 3 - 1 from rfl, Nat.and_two_pow_sub_one_eq_mod]
    omega

end FieldWrite

def readFields (message : List UInt8) : Except Errno (List WireField) :=
  forFields (fun fields field => .ok (fields ++ [field])) [] message

theorem foldlM_keep (fields seen : List WireField) :
    fields.foldlM (fun fields field => (.ok (fields ++ [field]) : Except Errno (List WireField)))
      seen =
      .ok (seen ++ fields) := by
  induction fields generalizing seen with
  | nil => rw [List.append_nil]; rfl
  | cons field rest ih =>
      rw [List.foldlM_cons]
      refine (ih (seen ++ [field])).trans ?_
      rw [List.append_assoc, List.singleton_append]

theorem readFields_message {message : List UInt8} {fields : List WireField}
    (h : IsMessage message fields) : readFields message = .ok fields := by
  unfold readFields forFields
  rw [for_fields_message _ _ _ h le_rfl, foldlM_keep, List.nil_append]

theorem readFields_writes {calls : List FieldWrite} (h : ∀ call ∈ calls, call.Writable) :
    readFields (calls.foldl FieldWrite.write ProtoBuffer.empty).data =
      .ok (calls.map FieldWrite.written) := by
  refine readFields_message ⟨?_, ?_⟩
  · rw [FieldWrite.writes_data]
    rfl
  · intro field hmem
    obtain ⟨call, hcall, rfl⟩ := List.mem_map.mp hmem
    exact FieldWrite.written_isField (h call hcall)

theorem decodeVarint_eq_readVarintFd {bytes : List UInt8} (h : bytes ≠ []) :
    readVarintFd bytes = (decodeVarint bytes).map some := by
  rw [readVarintFd, readVarintFdFrom_eq 0 0 bytes (.inr h), decodeVarint]
  cases decodeVarintFrom 0 0 bytes <;> rfl

/-- The reader yields the fields that the calls of the writers wrote, in order, and then the end;
the varint writers write the same bytes; and the varint readers accept the same nonempty bytes, with
the same number and the same rest, which are those of a terminated varint of at most ten bytes whose
number has at most 64 bits. -/
theorem writers_and_readers_agree :
    (∀ calls : List FieldWrite, (∀ call ∈ calls, call.Writable) →
      readFields (calls.foldl FieldWrite.write ProtoBuffer.empty).data =
        .ok (calls.map FieldWrite.written)) ∧
      (∀ value : UInt64, (ProtoBuffer.empty.protoVarint value).data = bufferVarint value.toNat) ∧
      ∀ bytes ≠ [], readVarintFd bytes = (decodeVarint bytes).map some ∧
        ∀ (number : Nat) (next : List UInt8), decodeVarint bytes = .ok (number, next) ↔
          ∃ front, bytes = front ++ next ∧ Terminated front ∧ value front = number ∧
            front.length ≤ 10 ∧ number < 2 ^ 64 := by
  refine ⟨fun calls h => readFields_writes h, fun value => rfl,
    fun bytes h => ⟨decodeVarint_eq_readVarintFd h, fun number next => decode_varint_iff.trans ?_⟩⟩
  constructor
  · rintro ⟨front, hsplit, hvarint⟩
    exact ⟨front, hsplit, hvarint.terminated, hvarint.value_eq, hvarint.length_le, hvarint.bound⟩
  · rintro ⟨front, hsplit, hterminated, hvalue, hlength, hbound⟩
    exact ⟨front, hsplit, hterminated, hvalue, hlength, hbound⟩

/-- A packet with one field of each kind, and the varint of 300. -/
theorem writers_and_readers_agree_small :
    readFields ([.uint 8 300, .fixed64 47 1, .string 23 [104, 105],
        .message 11 (ProtoBuffer.empty.protoUint 1 2)].foldl FieldWrite.write
          ProtoBuffer.empty).data =
        .ok ([.uint 8 300, .fixed64 47 1, .string 23 [104, 105],
          .message 11 (ProtoBuffer.empty.protoUint 1 2)].map FieldWrite.written) ∧
      readVarintFd [0xac, 0x02] = (decodeVarint [0xac, 0x02]).map some :=
  ⟨writers_and_readers_agree.1 _ (by decide +kernel),
    (writers_and_readers_agree.2.2 [0xac, 0x02] (by decide)).1⟩

end Anettrace.Trim
