import Anettrace.Trim.Writers

/-!
# Annotations

The writers of debug annotations in `src/perfetto_export.c`. `native_annotation_string` writes the
nested message into the event without building it first, and the others write the text of a number.
-/

namespace Anettrace.Native

open Library Library.Varint Anettrace.Trim

namespace ProtoBuffer

def nativeAnnotationInt (event : ProtoBuffer) (name : String) (value : Int64) : ProtoBuffer :=
  let magnitude := if value < 0 then 0 - value.toUInt64 else value.toUInt64
  let digits := decimalFrom 20 magnitude.toNat []
  event.nativeAnnotationString (text name) (if value < 0 then 45 :: digits else digits)

/-- The message that a string annotation stands for. -/
def annotationOf (name value : List UInt8) : ProtoBuffer :=
  (empty.protoString 10 name).protoString 6 value

/-! ## The nested message -/

/-- A length has one byte for each seven bits, and at least one. -/
theorem encode_length (size fuel : Nat) {length : Nat} (hsize : length < 128 ^ (size + 1))
    (hfuel : length < 128 ^ (fuel + 1)) :
    (encode (size + 1) length).length = 1 + lengthBytes fuel length := by
  induction fuel generalizing size length with
  | zero =>
      have hrest : length / 128 = 0 := Nat.div_eq_of_lt hfuel
      rw [encode, shiftRight_seven, hrest, if_neg (by simp)]
      rfl
  | succ fuel ih =>
      rw [encode, lengthBytes, shiftRight_seven]
      by_cases hmore : 128 ≤ length
      case neg =>
        have hrest : length / 128 = 0 := Nat.div_eq_of_lt (Nat.lt_of_not_le hmore)
        rw [if_neg hmore, hrest, if_neg (by simp)]
        rfl
      case pos =>
        have hpos : length / 128 ≠ 0 := (Nat.div_pos hmore (by decide)).ne'
        have hsmaller : length / 128 < 128 ^ (fuel + 1) := by
          rw [Nat.pow_succ] at hfuel
          exact Nat.div_lt_of_lt_mul (by omega)
        cases size with
        | zero => omega
        | succ size =>
            have hrest : length / 128 < 128 ^ (size + 1) := by
              rw [Nat.pow_succ] at hsize
              exact Nat.div_lt_of_lt_mul (by omega)
            rw [if_pos hmore, if_pos hpos, List.length_cons, ih size hrest hsmaller]
            omega

/-- The loops that count the bytes of a length have enough turns. -/
theorem lt_pow_self (length : Nat) : length < 128 ^ (length + 1) :=
  Nat.lt_of_lt_of_le (Nat.lt_pow_self (by decide))
    (Nat.pow_le_pow_right (by decide) (Nat.le_succ _))

theorem encode_size {length : Nat} (h : length < 2 ^ 64) :
    (encode 10 (UInt64.ofNat length).toNat).length = 1 + lengthBytes length length := by
  rw [FieldWrite.length_toNat h]
  exact encode_length 9 length (by omega) (lt_pow_self length)

/-- The size that `native_annotation_string` computes is that of the nested message. -/
theorem annotation_size {name value : List UInt8} (hname : name.length < 2 ^ 64)
    (hvalue : value.length < 2 ^ 64) :
    (annotationOf name value).data.length = 4 + name.length + value.length +
      lengthBytes name.length name.length + lengthBytes value.length value.length := by
  have hten : encode 10 (((10 : UInt32).toUInt64 <<< 3) ||| (2 : UInt8).toUInt64).toNat =
      [82] := by decide
  have hsix : encode 10 (((6 : UInt32).toUInt64 <<< 3) ||| (2 : UInt8).toUInt64).toNat =
      [50] := by decide
  unfold annotationOf protoString protoTag protoVarint protoBytes
  dsimp only
  rw [hten, hsix]
  simp only [List.length_append, encode_size hname, encode_size hvalue, empty, List.length_nil,
    List.length_singleton]
  omega

theorem nativeAnnotationString_nested (event : ProtoBuffer) {name value : List UInt8}
    (hname : name.length < 2 ^ 64) (hvalue : value.length < 2 ^ 64) :
    (event.nativeAnnotationString name value).data =
      (event.protoMessage 4 (annotationOf name value)).data := by
  have hinner : ∀ buffer : ProtoBuffer, ((buffer.protoString 10 name).protoString 6 value).data =
      buffer.data ++ (annotationOf name value).data :=
    (protoString_appends 6 value).comp (protoString_appends 10 name)
  unfold nativeAnnotationString
  rw [hinner, ← annotation_size hname hvalue]
  rfl

/-! ## Texts of numbers -/

def decimalText (number : Nat) : List UInt8 :=
  (Nat.toDigits 10 number).map fun digit => UInt8.ofNat digit.toNat

def integerText (number : Int) : List UInt8 :=
  if number < 0 then 45 :: decimalText number.natAbs else decimalText number.natAbs

/-- The hexadecimal text of a number, with zeros in front up to sixteen digits. -/
def hexText (number : Nat) : List UInt8 :=
  ((Nat.toDigits 16 number).leftpad 16 '0').map fun digit => UInt8.ofNat digit.toNat

theorem digit_byte : ∀ digit < 10, UInt8.ofNat (Nat.digitChar digit).toNat =
    UInt8.ofNat (48 + digit) := by
  decide

/-- The digits are written from the last to the first. -/
theorem decimalFrom_eq {fuel number : Nat} (h : number < 10 ^ (fuel + 1)) (digits : List UInt8) :
    decimalFrom (fuel + 1) number digits = decimalText number ++ digits := by
  induction fuel generalizing number digits with
  | zero =>
      have hlt : number < 10 := h
      unfold decimalFrom decimalText
      rw [Nat.div_eq_of_lt hlt, Nat.mod_eq_of_lt hlt, Nat.toDigits_of_lt_base hlt,
        List.map_singleton,
        digit_byte number hlt]
      rfl
  | succ fuel ih =>
      unfold decimalFrom
      dsimp only
      by_cases hmore : number / 10 = 0
      case pos =>
        have hlt : number < 10 := by omega
        rw [if_neg (not_not_intro hmore), Nat.mod_eq_of_lt hlt]
        unfold decimalText
        rw [Nat.toDigits_of_lt_base hlt, List.map_singleton, digit_byte number hlt]
        rfl
      case neg =>
        have hbase : 10 ≤ number := by omega
        have hsmaller : number / 10 < 10 ^ (fuel + 1) := by
          rw [Nat.pow_succ] at h
          exact Nat.div_lt_of_lt_mul (by omega)
        rw [if_pos hmore, ih hsmaller]
        unfold decimalText
        rw [Nat.toDigits_of_base_le (by decide) hbase, List.map_append, List.map_singleton,
          digit_byte _ (Nat.mod_lt number (by decide)), List.append_assoc, List.singleton_append]

/-- The magnitude of a signed number, also of the least one. -/
theorem magnitude_eq (value : Int64) :
    (if value < 0 then 0 - value.toUInt64 else value.toUInt64).toNat = value.toInt.natAbs := by
  have hlt : value < 0 ↔ value.toInt < 0 := Int64.lt_iff_toInt_lt
  have hnat : value.toInt = if 2 * value.toUInt64.toNat < 2 ^ 64 then (value.toUInt64.toNat : Int)
      else (value.toUInt64.toNat : Int) - 2 ^ 64 := by
    exact BitVec.toInt_eq_toNat_cond value.toBitVec
  have hbound := value.toUInt64.toNat_lt
  by_cases hneg : value < 0
  case pos =>
    have htoInt := hlt.mp hneg
    rw [if_pos hneg, UInt64.toNat_sub]
    split at hnat <;> simp only [UInt64.reduceToNat] <;> omega
  case neg =>
    have htoInt := mt hlt.mpr hneg
    rw [if_neg hneg]
    split at hnat <;> omega

theorem hex_byte : ∀ digit < 16,
    (text "0123456789abcdef").getD digit 0 = UInt8.ofNat (Nat.digitChar digit).toNat := by
  decide +kernel

/-- The digits of a number by their places are its text, padded with zeros. -/
theorem places_eq (width : Nat) {number : Nat} (h : number < 16 ^ (width + 1)) :
    (List.range (width + 1)).reverse.map (fun place => Nat.digitChar (number / 16 ^ place % 16)) =
      (Nat.toDigits 16 number).leftpad (width + 1) '0' := by
  induction width generalizing number with
  | zero =>
      have hlt : number < 16 := h
      rw [Nat.toDigits_of_lt_base hlt]
      simp [List.leftpad, Nat.mod_eq_of_lt hlt]
  | succ width ih =>
      have hsmaller : number / 16 < 16 ^ (width + 1) := by
        rw [Nat.pow_succ] at h
        exact Nat.div_lt_of_lt_mul (by omega)
      have hplaces : (List.range (width + 2)).reverse.map
          (fun place => Nat.digitChar (number / 16 ^ place % 16)) =
          (Nat.toDigits 16 (number / 16)).leftpad (width + 1) '0' ++
            [Nat.digitChar (number % 16)] := by
        rw [← ih hsmaller, List.range_succ_eq_map, List.reverse_cons, List.map_append,
          ← List.map_reverse,
          List.map_map, List.map_singleton, Nat.pow_zero, Nat.div_one]
        refine congrArg (· ++ [Nat.digitChar (number % 16)]) (List.map_congr_left fun place _ => ?_)
        show Nat.digitChar (number / 16 ^ (place + 1) % 16) = _
        rw [Nat.pow_succ, Nat.mul_comm, Nat.div_div_eq_div_mul]
      rw [hplaces]
      by_cases hlt : number < 16
      case pos =>
        rw [Nat.div_eq_of_lt hlt, Nat.toDigits_zero, Nat.toDigits_of_lt_base hlt,
          Nat.mod_eq_of_lt hlt]
        simp [List.leftpad, ← List.replicate_succ']
      case neg =>
        rw [Nat.toDigits_of_base_le (by decide) (Nat.le_of_not_lt hlt)]
        simp [List.leftpad]

/-- The digits of `native_annotation_id` are those of the hexadecimal text. -/
theorem hexDigits_eq (value : UInt64) :
    ((List.range 16).reverse.map fun digit => hexDigit (value >>> (4 * UInt64.ofNat digit))) =
      hexText value.toNat := by
  have hlt : value.toNat < 16 ^ (15 + 1) := value.toNat_lt
  unfold hexText
  rw [← places_eq 15 hlt, List.map_map]
  refine List.map_congr_left fun place hplace => ?_
  have hplace : place < 16 := List.mem_range.mp (List.mem_reverse.mp hplace)
  have hshift : (4 * UInt64.ofNat place).toNat % 64 = 4 * place := by
    rw [UInt64.toNat_mul, UInt64.toNat_ofNat']
    simp only [UInt64.reduceToNat]
    omega
  have hdigit : ((value >>> (4 * UInt64.ofNat place)) &&& 15).toNat =
      value.toNat / 16 ^ place % 16 := by
    rw [UInt64.toNat_and, UInt64.toNat_shiftRight, hshift, Nat.shiftRight_eq_div_pow,
      show (15 : UInt64).toNat = 2 ^ 4 - 1 from rfl, Nat.and_two_pow_sub_one_eq_mod, Nat.pow_mul]
  show hexDigit _ = UInt8.ofNat (Nat.digitChar (value.toNat / 16 ^ place % 16)).toNat
  unfold hexDigit
  rw [hdigit, hex_byte _ (Nat.mod_lt _ (by decide))]

/-! ## Reading annotations -/

/-- The bytes are a string annotation of the event: one field with a message of a name and a
text. -/
def IsAnnotation (name value bytes : List UInt8) : Prop :=
  readFields bytes = .ok [(FieldWrite.message 4 (annotationOf name value)).written] ∧
    readFields (annotationOf name value).data =
      .ok [(FieldWrite.string 10 name).written, (FieldWrite.string 6 value).written]

theorem nativeAnnotationString_reads {name value : List UInt8} (hname : name.length < 2 ^ 63)
    (hvalue : value.length < 2 ^ 32) (event : ProtoBuffer) :
    ∃ bytes, (event.nativeAnnotationString name value).data = event.data ++ bytes ∧
      IsAnnotation name value bytes := by
  have hlengthName : (encode 10 (UInt64.ofNat name.length).toNat).length ≤ 10 :=
    (encode_spec (show _ < 128 ^ 10 by have := (UInt64.ofNat name.length).toNat_lt; omega)
      (by decide)).2.2
  have hlengthValue : (encode 10 (UInt64.ofNat value.length).toNat).length ≤ 10 :=
    (encode_spec (show _ < 128 ^ 10 by have := (UInt64.ofNat value.length).toNat_lt; omega)
      (by decide)).2.2
  have hsize : (annotationOf name value).data.length < 2 ^ 64 := by
    rw [encode_size (by omega)] at hlengthName hlengthValue
    rw [annotation_size (by omega) (by omega)]
    omega
  have hinner := @readFields_writes [.string 10 name, .string 6 value] (by
    intro call hmem
    rcases List.mem_cons.mp hmem with rfl | hmem
    · exact ⟨show 1 ≤ (10 : UInt32).toNat by decide, show name.length < 2 ^ 64 by omega⟩
    · rw [List.mem_singleton.mp hmem]
      exact ⟨show 1 ≤ (6 : UInt32).toNat by decide, show value.length < 2 ^ 64 by omega⟩)
  have houter := @readFields_writes [.message 4 (annotationOf name value)] (by
    intro call hmem
    rw [List.mem_singleton.mp hmem]
    exact ⟨show 1 ≤ (4 : UInt32).toNat by decide, hsize⟩)
  refine ⟨(empty.nativeAnnotationString name value).data,
    nativeAnnotationString_appends name value event, ?_,
    hinner⟩
  rw [nativeAnnotationString_nested _ (by omega) (by omega)]
  exact houter

theorem decimalText_length {number : Nat} (h : number < 10 ^ 20) :
    (decimalText number).length ≤ 20 := by
  unfold decimalText
  rw [List.length_map, Nat.length_toDigits_le_iff (by decide) (by decide)]
  exact h

theorem hexText_length (value : UInt64) : (hexText value.toNat).length = 16 := by
  rw [← hexDigits_eq, List.length_map, List.length_reverse, List.length_range]

/-- The numbers of annotations have texts of at most twenty digits. -/
theorem lt_ten_pow {number : Nat} (h : number < 2 ^ 64) : number < 10 ^ 20 := by
  omega

/-- A string annotation is the field of its nested message, whatever the lengths of its name and its
value; and the annotations of numbers are read as the decimal text, with a sign in front of a
negative number, and as the hexadecimal text of sixteen digits. The names are as long as an object
can be. -/
theorem annotations_encoded (event : ProtoBuffer) :
    (∀ name value : List UInt8, name.length < 2 ^ 64 → value.length < 2 ^ 64 →
      (event.nativeAnnotationString name value).data =
        (event.protoMessage 4 (annotationOf name value)).data) ∧
      ∀ name : String, (text name).length < 2 ^ 63 →
        (∀ value : UInt64, ∃ bytes, (event.nativeAnnotationUint name value).data =
          event.data ++ bytes ∧
          IsAnnotation (text name) (decimalText value.toNat) bytes) ∧
        (∀ value : Int64, ∃ bytes, (event.nativeAnnotationInt name value).data =
          event.data ++ bytes ∧
          IsAnnotation (text name) (integerText value.toInt) bytes) ∧
        ∀ value : UInt64, (hexText value.toNat).length = 16 ∧
          ∃ bytes, (event.nativeAnnotationId name value).data = event.data ++ bytes ∧
            IsAnnotation (text name) (hexText value.toNat) bytes := by
  refine ⟨fun name value hname hvalue => nativeAnnotationString_nested event hname hvalue,
    fun name hname => ⟨fun value => ?_, fun value => ?_, fun value => ⟨hexText_length value, ?_⟩⟩⟩
  · have hlt := lt_ten_pow value.toNat_lt
    unfold nativeAnnotationUint
    rw [decimalFrom_eq hlt, List.append_nil]
    exact nativeAnnotationString_reads hname
      (Nat.lt_of_le_of_lt (decimalText_length hlt) (by decide)) event
  · have hmagnitude := magnitude_eq value
    have hbound : value.toInt.natAbs < 10 ^ 20 := by
      rw [← hmagnitude]
      exact lt_ten_pow (UInt64.toNat_lt _)
    have hsign : value < 0 ↔ value.toInt < 0 := Int64.lt_iff_toInt_lt
    have htext : (if value < 0 then 45 :: decimalText value.toInt.natAbs
        else decimalText value.toInt.natAbs) = integerText value.toInt := by
      unfold integerText
      by_cases hneg : value < 0
      case pos => rw [if_pos hneg, if_pos (hsign.mp hneg)]
      case neg => rw [if_neg hneg, if_neg (mt hsign.mpr hneg)]
    have hlength : (integerText value.toInt).length < 2 ^ 32 := by
      have hdigits := decimalText_length hbound
      unfold integerText
      split
      · rw [List.length_cons]
        omega
      · omega
    unfold nativeAnnotationInt
    dsimp only
    rw [hmagnitude, decimalFrom_eq hbound, List.append_nil, htext]
    exact nativeAnnotationString_reads hname hlength event
  · unfold nativeAnnotationId
    rw [hexDigits_eq]
    exact nativeAnnotationString_reads hname (by rw [hexText_length]; decide) event

/-- The least number, and a name and a value of lengths at a boundary. -/
theorem annotations_encoded_small :
    (empty.nativeAnnotationString (List.replicate 128 97) (List.replicate 127 98)).data =
        (empty.protoMessage 4 (annotationOf (List.replicate 128 97) (List.replicate 127 98))).data ∧
      (∃ bytes, (empty.nativeAnnotationInt "delta" Int64.minValue).data = empty.data ++ bytes ∧
        IsAnnotation (text "delta") (integerText Int64.minValue.toInt) bytes) ∧
      integerText Int64.minValue.toInt = text "-9223372036854775808" :=
  ⟨(annotations_encoded empty).1 _ _ (by decide +kernel) (by decide +kernel),
    ((annotations_encoded empty).2 "delta" (by decide +kernel)).2.1 Int64.minValue, by
      decide +kernel⟩

end ProtoBuffer

end Anettrace.Native
