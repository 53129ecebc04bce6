import Anettrace.Export.Identity
import Anettrace.Library.Numbers

/-!
# Protobuf buffers

The growing buffers of `src/perfetto_export.c` and the writers that append fields to them. A buffer
never holds more bytes than were allocated for it. Memory does not run out, so a buffer never
becomes `failed`. A writer appends the same bytes to every buffer, which `Appends` says.
-/

namespace Anettrace.Native

open Library Library.Varint Anettrace.Export

/-- `struct proto_buffer`, less `failed`. -/
structure ProtoBuffer where
  data : List UInt8
  capacity : Nat
  fits : data.length ≤ capacity
  deriving DecidableEq, Repr

namespace ProtoBuffer

def empty : ProtoBuffer :=
  ⟨[], 0, Nat.le_refl 0⟩

/-- The loop of `proto_reserve` that doubles `capacity`; every turn gains at least one byte. -/
def doubled (size extra : Nat) : Nat → Nat → Nat
  | 0, capacity => capacity
  | fuel + 1, capacity =>
      if capacity - size < extra then doubled size extra fuel (capacity * 2) else capacity

def protoReserve (buffer : ProtoBuffer) (extra : Nat) : Nat :=
  let size := buffer.data.length
  if extra ≤ buffer.capacity - size then buffer.capacity
  else doubled size extra extra (if buffer.capacity ≠ 0 then buffer.capacity else 256)

theorem doubled_room {size extra : Nat} (fuel : Nat) {capacity : Nat} (hpositive : 0 < capacity)
    (hsize : size ≤ capacity) (hfuel : size + extra ≤ capacity + fuel) :
    size + extra ≤ doubled size extra fuel capacity := by
  induction fuel generalizing capacity with
  | zero => exact hfuel
  | succ fuel ih =>
      unfold doubled
      split
      · exact ih (by omega) (by omega) (by omega)
      · omega

theorem protoReserve_room (buffer : ProtoBuffer) (extra : Nat) :
    buffer.data.length + extra ≤ buffer.protoReserve extra := by
  have hfits := buffer.fits
  unfold protoReserve
  dsimp only
  split
  · omega
  · refine doubled_room _ ?_ ?_ ?_ <;> split <;> omega

def protoBytes (buffer : ProtoBuffer) (data : List UInt8) : ProtoBuffer where
  data := buffer.data ++ data
  capacity := buffer.protoReserve data.length
  fits := by
    rw [List.length_append]
    exact buffer.protoReserve_room data.length

def protoVarint (buffer : ProtoBuffer) (value : UInt64) : ProtoBuffer :=
  buffer.protoBytes (encode 10 value.toNat)

def protoTag (buffer : ProtoBuffer) (field : UInt32) (wire : UInt8) : ProtoBuffer :=
  buffer.protoVarint ((field.toUInt64 <<< 3) ||| wire.toUInt64)

def protoUint (buffer : ProtoBuffer) (field : UInt32) (value : UInt64) : ProtoBuffer :=
  (buffer.protoTag field 0).protoVarint value

def protoFixed64 (buffer : ProtoBuffer) (field : UInt32) (value : UInt64) : ProtoBuffer :=
  (buffer.protoTag field 1).protoBytes (littleEndian 8 value.toNat)

/-- `proto_string`, on the bytes before the terminating zero. -/
def protoString (buffer : ProtoBuffer) (field : UInt32) (value : List UInt8) : ProtoBuffer :=
  ((buffer.protoTag field 2).protoVarint (UInt64.ofNat value.length)).protoBytes value

def protoMessage (buffer : ProtoBuffer) (field : UInt32) (message : ProtoBuffer) : ProtoBuffer :=
  buffer.protoString field message.data

/-- The bytes of a string literal. -/
def text (value : String) : List UInt8 :=
  value.toUTF8.data.toList

def nativeEventStart (event : ProtoBuffer) (type : UInt64) (uuid : UInt64)
    (name category : List UInt8) : ProtoBuffer :=
  let event := (event.protoUint 9 type).protoUint 11 uuid
  let event := if name ≠ [] then event.protoString 23 name else event
  if category ≠ [] then event.protoString 22 category else event

def nativeEventFlow (traceTags : Bool) (event : ProtoBuffer) (flowId : UInt64)
    (terminating : Bool) : ProtoBuffer :=
  if flowId = 0 ∨ traceTags then event
  else event.protoFixed64 (if terminating then 48 else 47) flowId

/-- The loops of `native_annotation_string` that count the bytes of a length after the first. -/
def lengthBytes : Nat → Nat → Nat
  | 0, _ => 0
  | fuel + 1, length => if 128 ≤ length then lengthBytes fuel (length >>> 7) + 1 else 0

def nativeAnnotationString (event : ProtoBuffer) (name value : List UInt8) : ProtoBuffer :=
  let size := 4 + name.length + value.length + lengthBytes name.length name.length +
    lengthBytes value.length value.length
  (((event.protoTag 4 2).protoVarint (UInt64.ofNat size)).protoString 10 name).protoString 6 value

/-- The decimal digits that `native_annotation_uint` writes before `digits`. -/
def decimalFrom : Nat → Nat → List UInt8 → List UInt8
  | 0, _, digits => digits
  | fuel + 1, value, digits =>
      let digits := UInt8.ofNat (48 + value % 10) :: digits
      if value / 10 ≠ 0 then decimalFrom fuel (value / 10) digits else digits

def nativeAnnotationUint (event : ProtoBuffer) (name : String) (value : UInt64) : ProtoBuffer :=
  event.nativeAnnotationString (text name) (decimalFrom 20 value.toNat [])

def hexDigit (value : UInt64) : UInt8 :=
  (text "0123456789abcdef").getD (value &&& 15).toNat 0

/-- `native_annotation_id`: sixteen hexadecimal digits. -/
def nativeAnnotationId (event : ProtoBuffer) (name : String) (value : UInt64) : ProtoBuffer :=
  event.nativeAnnotationString (text name)
    ((List.range 16).reverse.map fun digit => hexDigit (value >>> (4 * UInt64.ofNat digit)))

/-! ## Appending -/

def Appends (writer : ProtoBuffer → ProtoBuffer) : Prop :=
  ∀ buffer, (writer buffer).data = buffer.data ++ (writer empty).data

theorem Appends.none : Appends id :=
  fun buffer => (List.append_nil buffer.data).symm

theorem Appends.comp {first second : ProtoBuffer → ProtoBuffer} (hsecond : Appends second)
    (hfirst : Appends first) : Appends fun buffer => second (first buffer) := by
  intro buffer
  show (second (first buffer)).data = buffer.data ++ (second (first empty)).data
  rw [hsecond (first buffer), hsecond (first empty), hfirst buffer, List.append_assoc]

theorem protoBytes_appends (data : List UInt8) : Appends fun buffer => buffer.protoBytes data :=
  fun _ => rfl

theorem protoFixed64_appends (field : UInt32) (value : UInt64) :
    Appends fun buffer => buffer.protoFixed64 field value :=
  (protoBytes_appends _).comp (protoBytes_appends _)

theorem protoString_appends (field : UInt32) (value : List UInt8) :
    Appends fun buffer => buffer.protoString field value :=
  (protoBytes_appends _).comp ((protoBytes_appends _).comp (protoBytes_appends _))

theorem nativeEventFlow_appends (traceTags : Bool) (flowId : UInt64) (terminating : Bool) :
    Appends fun event => nativeEventFlow traceTags event flowId terminating := by
  unfold nativeEventFlow
  split
  · exact Appends.none
  · exact protoFixed64_appends _ _

theorem nativeAnnotationString_appends (name value : List UInt8) :
    Appends fun event => event.nativeAnnotationString name value :=
  (protoString_appends 6 value).comp ((protoString_appends 10 name).comp
    ((protoBytes_appends _).comp (protoBytes_appends _)))

theorem nativeAnnotationUint_appends (name : String) (value : UInt64) :
    Appends fun event => event.nativeAnnotationUint name value :=
  nativeAnnotationString_appends _ _

theorem nativeAnnotationId_appends (name : String) (value : UInt64) :
    Appends fun event => event.nativeAnnotationId name value :=
  nativeAnnotationString_appends _ _

end ProtoBuffer

end Anettrace.Native
