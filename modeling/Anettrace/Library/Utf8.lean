import Mathlib.Data.List.Basic

/-!
# UTF-8

Texts and the bytes they are stored in. A byte below 0x80 stands for a character of its own,
whatever is around it: bytes that are cut at such a byte hold a text if both parts do.
-/

namespace Library.Utf8

def encode (text : List Char) : List UInt8 := text.flatMap String.utf8EncodeChar

/-- The text that is stored in bytes, if they are well formed. -/
def decode (bytes : List UInt8) : Option (List Char) :=
  (String.fromUTF8? ⟨bytes.toArray⟩).map String.toList

variable {text other : List Char} {bytes front back : List UInt8} {byte : UInt8} {char : Char}

theorem encode_append (text other : List Char) :
    encode (text ++ other) = encode text ++ encode other :=
  List.flatMap_append

theorem encode_cons (char : Char) (text : List Char) :
    encode (char :: text) = String.utf8EncodeChar char ++ encode text :=
  rfl

theorem utf8Encode_eq (text : List Char) : text.utf8Encode = ⟨(encode text).toArray⟩ := by
  ext1
  rw [List.utf8Encode, List.data_toByteArray]
  rfl

theorem decode_encode (text : List Char) : decode (encode text) = some text := by
  have h : String.fromUTF8? ⟨(encode text).toArray⟩ = some (String.ofList text) := by
    unfold String.fromUTF8?
    rw [← utf8Encode_eq, dif_pos ByteArray.isValidUTF8_utf8Encode]
    rfl
  rw [decode, h, Option.map_some, String.toList_ofList]

/-- Bytes are well formed if they are those of a text, which is then the one that is stored in
them. -/
theorem decode_eq_some_iff : decode bytes = some text ↔ encode text = bytes := by
  constructor
  · intro h
    obtain ⟨string, hstring, rfl⟩ := Option.map_eq_some_iff.mp h
    unfold String.fromUTF8? at hstring
    split at hstring
    case isTrue hvalid =>
      have hbytes : string.toByteArray = ⟨bytes.toArray⟩ := by
        rw [← Option.some.inj hstring]
        rfl
      have hencode : string.toList.utf8Encode = string.toByteArray := by
        rw [← String.toByteArray_ofList, String.ofList_toList]
      rw [hbytes, utf8Encode_eq, ByteArray.mk.injEq] at hencode
      exact List.toArray_inj hencode
    case isFalse => cases hstring
  · rintro rfl
    exact decode_encode text

theorem isSome_decode_iff : (decode bytes).isSome = true ↔ ∃ text, encode text = bytes := by
  simp only [Option.isSome_iff_exists, decode_eq_some_iff]

/-! ## The bytes of a character -/

theorem utf8EncodeChar_ascii (h : char.toNat < 0x80) :
    String.utf8EncodeChar char = [UInt8.ofNat char.toNat] :=
  if_pos (Nat.le_of_lt_succ h)

theorem ofNat_high {number : Nat} (hle : 0x80 ≤ number) (hlt : number < 0x100) :
    0x80 ≤ UInt8.ofNat number := by
  rw [UInt8.le_iff_toNat_le, UInt8.toNat_ofNat_of_lt' hlt]
  exact hle

theorem utf8EncodeChar_high (h : 0x80 ≤ char.toNat) (hmem : byte ∈ String.utf8EncodeChar char) :
    0x80 ≤ byte := by
  have hvalue : char.val.toNat = char.toNat := rfl
  unfold String.utf8EncodeChar at hmem
  dsimp only at hmem
  rw [hvalue, if_neg (by omega)] at hmem
  split at hmem
  case isTrue =>
    simp only [List.mem_cons, List.not_mem_nil, or_false] at hmem
    rcases hmem with rfl | rfl
    all_goals exact ofNat_high (by omega) (by omega)
  case isFalse =>
    split at hmem
    all_goals simp only [List.mem_cons, List.not_mem_nil, or_false] at hmem
    · rcases hmem with rfl | rfl | rfl
      all_goals exact ofNat_high (by omega) (by omega)
    · rcases hmem with rfl | rfl | rfl | rfl
      all_goals exact ofNat_high (by omega) (by omega)

theorem char_of_mem_encode (hmem : byte ∈ encode text) (h : byte < 0x80) :
    ∃ char ∈ text, char.toNat = byte.toNat := by
  obtain ⟨char, hchar, hbyte⟩ := List.mem_flatMap.mp hmem
  refine ⟨char, hchar, ?_⟩
  by_cases hascii : char.toNat < 0x80
  · rw [utf8EncodeChar_ascii hascii, List.mem_singleton] at hbyte
    rw [hbyte, UInt8.toNat_ofNat_of_lt' (Nat.lt_trans hascii (by decide))]
  · exact absurd (utf8EncodeChar_high (by omega) hbyte) (UInt8.not_le.mpr h)

/-! ## Cutting bytes -/

theorem exists_of_encode_eq (h : byte < 0x80) (heq : encode text = front ++ byte :: back) :
    ∃ first rest, encode first = front ∧ encode rest = back := by
  induction text generalizing front with
  | nil => exact absurd heq.symm (by simp [encode])
  | cons char text ih =>
      rw [encode_cons] at heq
      -- The cut is behind the bytes of the first character, or at one of them.
      rcases List.append_eq_append_iff.mp heq with ⟨rest, rfl, hrest⟩ | ⟨rest, hchar, hrest⟩
      · obtain ⟨first, more, rfl, rfl⟩ := ih hrest
        exact ⟨char :: first, more, encode_cons char first, rfl⟩
      · cases rest with
        | nil =>
            rw [List.append_nil] at hchar
            have hcut : encode text = [] ++ byte :: back := hrest.symm
            obtain ⟨first, more, hfirst, rfl⟩ := ih hcut
            refine ⟨[char], more, ?_, rfl⟩
            rw [← hchar, encode_cons]
            exact List.append_nil _
        | cons next rest =>
            obtain ⟨rfl, hback⟩ := List.cons.inj hrest
            have hmem : byte ∈ String.utf8EncodeChar char := by
              rw [hchar]
              exact List.mem_append_right _ List.mem_cons_self
            have hascii : char.toNat < 0x80 := by
              by_contra hhigh
              exact absurd (utf8EncodeChar_high (by omega) hmem) (UInt8.not_le.mpr h)
            rw [utf8EncodeChar_ascii hascii] at hchar
            obtain ⟨rfl, hrest⟩ : front = [] ∧ rest = [] := by
              cases front with
              | nil => exact ⟨rfl, (List.cons.inj hchar).2.symm⟩
              | cons other front => simp at hchar
            rw [hrest] at hback
            exact ⟨[], text, rfl, hback.symm⟩

theorem exists_of_within {last : UInt8} (hfirst : byte < 0x80) (hlast : last < 0x80)
    (h : byte :: (bytes ++ [last]) <:+: encode text) : ∃ inner, encode inner = bytes := by
  obtain ⟨front, back, heq⟩ := h
  rw [List.append_assoc, List.cons_append] at heq
  obtain ⟨-, rest, -, hrest⟩ := exists_of_encode_eq hfirst heq.symm
  rw [List.append_assoc, List.singleton_append] at hrest
  obtain ⟨inner, -, hinner, -⟩ := exists_of_encode_eq hlast hrest
  exact ⟨inner, hinner⟩

end Library.Utf8
