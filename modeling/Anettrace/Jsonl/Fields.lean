import Anettrace.Jsonl.Model
import Anettrace.Library.JsonLine

/-!
# Values of a line

What is printed for a value is the text of a JSON value, and what `json_escape` leaves of a text is
stored in well-formed bytes if and only if the text is.
-/

namespace Anettrace.Jsonl

open Library Export

/-! ## Escapes -/

/-- A byte that `json_escape` puts behind a backslash. -/
def escapeByte (byte : UInt8) : List UInt8 := if byte = 34 ∨ byte = 92 then [92, byte] else [byte]

/-- The same for a character. -/
def escapeChar (char : Char) : List Char :=
  if char = '"' ∨ char = '\\' then ['\\', char] else [char]

/-- A byte that is no control character is kept. -/
theorem withoutControls_cons_of_le {byte : UInt8} (h : 0x20 ≤ byte) (rest : List UInt8) :
    withoutControls (byte :: rest) = byte :: withoutControls rest :=
  List.filter_cons_of_pos (decide_eq_true h)

/-- A control character is dropped. -/
theorem withoutControls_cons_of_not_le {byte : UInt8} (h : ¬ 0x20 ≤ byte) (rest : List UInt8) :
    withoutControls (byte :: rest) = withoutControls rest :=
  List.filter_cons_of_neg (by rwa [decide_eq_true_eq])

/-- Text that fits is escaped byte by byte, without its control characters. -/
theorem jsonEscapeFrom_eq (size : Nat) (text : List UInt8) (out : Nat) (hzero : 0 ∉ text)
    (hsize : out + 2 * text.length < size) :
    jsonEscapeFrom size out text = (withoutControls text).flatMap escapeByte := by
  induction text generalizing out with
  | nil => rfl
  | cons ch rest ih =>
      rw [List.length_cons] at hsize
      rw [List.mem_cons, not_or] at hzero
      have hopen : ¬ (ch = 0 ∨ size ≤ out + 1) := by
        rintro (rfl | hfull)
        · exact hzero.1 rfl
        · omega
      rw [jsonEscapeFrom, if_neg hopen]
      by_cases hspecial : ch = 34 ∨ ch = 92
      case pos =>
        have hprinted : 0x20 ≤ ch := by
          rcases hspecial with rfl | rfl
          · decide
          · decide
        rw [if_pos ⟨hspecial, by omega⟩, ih (out + 2) hzero.2 (by omega),
          withoutControls_cons_of_le hprinted,
          List.flatMap_cons, escapeByte, if_pos hspecial]
        rfl
      case neg =>
        rw [if_neg fun h => hspecial h.1]
        by_cases hprinted : 0x20 ≤ ch
        case pos =>
          rw [if_pos hprinted, ih (out + 1) hzero.2 (by omega), withoutControls_cons_of_le hprinted,
            List.flatMap_cons, escapeByte, if_neg hspecial]
          rfl
        case neg =>
          rw [if_neg hprinted, ih out hzero.2 (by omega), withoutControls_cons_of_not_le hprinted]

/-- A text that the buffer has room for is escaped whole. -/
theorem jsonEscape_eq {text : List UInt8} {size : Nat} (hzero : 0 ∉ text)
    (hsize : 2 * text.length < size) :
    jsonEscape text size = (withoutControls text).flatMap escapeByte :=
  jsonEscapeFrom_eq size text 0 hzero (by omega)

/-- Bytes from 0x80 on are no quotes and no backslashes. -/
theorem flatMap_escapeByte_high {bytes : List UInt8} (h : ∀ byte ∈ bytes, 0x80 ≤ byte) :
    bytes.flatMap escapeByte = bytes := by
  have hself : ∀ byte ∈ bytes, escapeByte byte = [byte] := by
    intro byte hbyte
    refine if_neg ?_
    rintro (rfl | rfl)
    · exact absurd (h 34 hbyte) (by decide)
    · exact absurd (h 92 hbyte) (by decide)
  rw [List.flatMap_congr hself]
  exact List.flatMap_singleton' bytes

theorem flatMap_escapeByte_char (char : Char) :
    (String.utf8EncodeChar char).flatMap escapeByte = Utf8.encode (escapeChar char) := by
  by_cases hspecial : char = '"' ∨ char = '\\'
  case pos =>
    rcases hspecial with rfl | rfl
    · rfl
    · rfl
  case neg =>
    rw [escapeChar, if_neg hspecial, Utf8.encode_cons]
    change _ = String.utf8EncodeChar char ++ []
    rw [List.append_nil]
    by_cases hlow : char.toNat < 0x80
    case neg => exact flatMap_escapeByte_high fun byte hbyte =>
      Utf8.utf8EncodeChar_high (by omega) hbyte
    case pos =>
      have hplain : ¬ (UInt8.ofNat char.toNat = 34 ∨ UInt8.ofNat char.toNat = 92) := by
        have hnumber : (UInt8.ofNat char.toNat).toNat = char.toNat :=
          UInt8.toNat_ofNat_of_lt' (Nat.lt_trans hlow (by decide))
        rintro (hquote | hslash)
        · rw [hquote] at hnumber
          exact hspecial (Or.inl (Char.toNat_inj.mp hnumber.symm))
        · rw [hslash] at hnumber
          exact hspecial (Or.inr (Char.toNat_inj.mp hnumber.symm))
      rw [Utf8.utf8EncodeChar_ascii hlow, List.flatMap_singleton, escapeByte, if_neg hplain]

theorem flatMap_escapeByte_encode (text : List Char) :
    (Utf8.encode text).flatMap escapeByte = Utf8.encode (text.flatMap escapeChar) := by
  induction text with
  | nil => rfl
  | cons char rest ih =>
      rw [Utf8.encode_cons, List.flatMap_append, ih, flatMap_escapeByte_char, List.flatMap_cons,
        Utf8.encode_append]

/-- Bytes hold a text if their escapes do. -/
theorem exists_of_encode_escaped {text : List Char} (front bytes : List UInt8)
    (h : Utf8.encode text = front ++ bytes.flatMap escapeByte) :
    ∃ inner, Utf8.encode inner = front ++ bytes := by
  induction bytes generalizing text front with
  | nil => exact ⟨text, h⟩
  | cons byte rest ih =>
      rw [List.flatMap_cons] at h
      by_cases hspecial : byte = 34 ∨ byte = 92
      case neg =>
        rw [escapeByte, if_neg hspecial, ← List.append_assoc] at h
        obtain ⟨inner, hinner⟩ := ih (front ++ [byte]) h
        exact ⟨inner, by rw [hinner, List.append_assoc, List.singleton_append]⟩
      case pos =>
        have hlow : byte < 0x80 := by
          rcases hspecial with rfl | rfl
          · decide
          · decide
        -- The bytes are cut at the backslash, and behind the byte that it escapes.
        rw [escapeByte, if_pos hspecial, List.cons_append, List.cons_append, List.nil_append] at h
        obtain ⟨first, more, hfirst, hmore⟩ := Utf8.exists_of_encode_eq (by decide) h
        have hcut : Utf8.encode more = [] ++ byte :: rest.flatMap escapeByte := hmore
        obtain ⟨-, last, -, hlast⟩ := Utf8.exists_of_encode_eq hlow hcut
        obtain ⟨inner, hinner⟩ := ih [] hlast
        obtain ⟨char, hchar⟩ : ∃ char, String.utf8EncodeChar char = [byte] := by
          rcases hspecial with rfl | rfl
          · exact ⟨'"', rfl⟩
          · exact ⟨'\\', rfl⟩
        exact ⟨first ++ char :: inner, by
          rw [Utf8.encode_append, hfirst, Utf8.encode_cons, hchar, hinner]; rfl⟩

/-! ## Numbers -/

/-- The digits that `printf` writes are those of a JSON number. -/
theorem isDigit_digitChar : ∀ digit < 10, Json.isDigit (Nat.digitChar digit) = true := by
  decide

/-- A decimal number starts with `0` only if it is zero. -/
theorem digitChar_ne_zero : ∀ digit < 10, digit ≠ 0 → Nat.digitChar digit ≠ '0' := by
  decide

/-- A number has no zero in front. -/
theorem decimal_pos {value : Nat} (h : value ≠ 0) :
    ∃ first rest, decimal value = first :: rest ∧ Json.isDigit first = true ∧ first ≠ '0' ∧
      ∀ char ∈ rest, Json.isDigit char = true := by
  induction value using Nat.strongRecOn with
  | ind value ih =>
      rw [decimal, Nat.toDigits_eq_if (by decide)]
      split
      case isTrue hsmall =>
        exact ⟨_, [], rfl, isDigit_digitChar value hsmall, digitChar_ne_zero value hsmall h, nofun⟩
      case isFalse hlarge =>
        obtain ⟨first, rest, hdigits, hfirst, hzero, hrest⟩ := ih (value / 10) (by omega) (by omega)
        refine ⟨first, rest ++ [Nat.digitChar (value % 10)], ?_, hfirst, hzero, ?_⟩
        · rw [decimal] at hdigits
          rw [hdigits, List.cons_append]
        · intro char hchar
          rcases List.mem_append.mp hchar with hmem | hlast
          · exact hrest char hmem
          · rw [List.mem_singleton.mp hlast]
            exact isDigit_digitChar _ (Nat.mod_lt _ (by decide))

/-- A decimal number is a whole part in the grammar of JSON. -/
theorem isWhole_decimal (value : Nat) : Json.IsWhole (decimal value) := by
  by_cases h : value = 0
  · rw [h]
    exact Json.IsWhole.zero
  · obtain ⟨first, rest, hdigits, hfirst, hzero, hrest⟩ := decimal_pos h
    rw [hdigits]
    exact Json.IsWhole.digits hfirst hzero hrest

theorem isNumber_decimal (value : Nat) : Json.IsNumber (decimal value) := by
  have h := Json.IsNumber.intro (Or.inl rfl) (isWhole_decimal value) .none .none
  rwa [List.nil_append, List.append_nil, List.append_nil] at h

theorem isNumber_signedDecimal (value : Int) : Json.IsNumber (signedDecimal value) := by
  unfold signedDecimal
  split
  case isTrue =>
    have h := Json.IsNumber.intro (Or.inr rfl) (isWhole_decimal value.natAbs) .none .none
    rwa [List.append_nil, List.append_nil] at h
  case isFalse => exact isNumber_decimal value.natAbs

/-! ## Values -/

/-- A text needs no escape, or the buffer of `json_escape` has room for one at every byte. -/
def Field.Sound : Field → Prop
  | .plain text => ∀ char ∈ text, Json.Unescaped char
  | .escaped _ source dest => 2 * source ≤ dest + 1
  | _ => True

def readBack (text : List UInt8) : List Char := (Utf8.decode (withoutControls text)).getD []

def Field.chars : Field → List Char
  | .plain text => '"' :: (text ++ ['"'])
  | .escaped text _ _ => '"' :: ((readBack text).flatMap escapeChar ++ ['"'])
  | .unsigned value => decimal value
  | .signed value => signedDecimal value
  | .flag value => flagWord value

def Field.value : Field → Json.Value
  | .plain text => .string text
  | .escaped text _ _ => .string (readBack text)
  | .unsigned value => .number (decimal value)
  | .signed value => .number (signedDecimal value)
  | .flag value => .bool value

/-- The string that is read back is stored in the bytes of the text, but for its control bytes. -/
theorem WellFormed.encode_readBack {text : List UInt8} (h : WellFormed text) :
    Utf8.encode (readBack text) = withoutControls text := by
  obtain ⟨chars, hchars⟩ := Option.isSome_iff_exists.mp h
  rw [readBack, hchars, Option.getD_some]
  exact Utf8.decode_eq_some_iff.mp hchars

theorem readBack_printed {text : List UInt8} {char : Char} (hmem : char ∈ readBack text) :
    0x20 ≤ char.toNat := by
  by_cases h : WellFormed text
  case neg =>
    rw [readBack, Option.not_isSome_iff_eq_none.mp h] at hmem
    exact absurd hmem List.not_mem_nil
  case pos =>
    by_contra hcontrol
    have hbyte : UInt8.ofNat char.toNat ∈ withoutControls text := by
      rw [← h.encode_readBack]
      refine List.mem_flatMap.mpr ⟨char, hmem, ?_⟩
      rw [Utf8.utf8EncodeChar_ascii (by omega)]
      exact List.mem_singleton_self _
    have hle := of_decide_eq_true (List.mem_filter.mp hbyte).2
    have hsize : char.toNat < UInt8.size := Nat.lt_trans (by omega) (by decide : 0x20 < UInt8.size)
    rw [UInt8.le_iff_toNat_le, UInt8.toNat_ofNat_of_lt' hsize] at hle
    exact hcontrol hle

/-- The reader takes an escaped character for the character itself. -/
theorem readString_escapeChar {char : Char} (h : 0x20 ≤ char.toNat) (rest : List Char) :
    Json.readString (escapeChar char ++ rest) = (Json.readString rest).map fun read =>
      (char :: read.1, read.2) := by
  unfold escapeChar
  split
  case isTrue hspecial =>
    rcases hspecial with rfl | rfl
    · exact Json.readString_escape (by decide) rfl rest
    · exact Json.readString_escape (by decide) rfl rest
  case isFalse hplain =>
    exact Json.readString_plain (fun hquote => hplain (Or.inl hquote))
      (fun hslash => hplain (Or.inr hslash)) h rest

/-- The text that is printed for a value is read as the value. -/
theorem Field.Sound.reads {field : Field} (h : field.Sound) :
    Json.Reads field.chars field.value := by
  cases field with
  | plain text => exact Json.reads_unescaped h
  | escaped text source dest =>
      exact Json.reads_string fun char hchar => readString_escapeChar (readBack_printed hchar)
  | unsigned value => exact (isNumber_decimal value).reads
  | signed value => exact (isNumber_signedDecimal value).reads
  | flag value => exact Json.reads_bool value

theorem Field.Sound.room {text : List UInt8} {source dest : Nat}
    (h : (Field.escaped text source dest).Sound)
    (harray : IsString (text, source)) : 2 * text.length < dest := by
  have hsource : 2 * source ≤ dest + 1 := h
  have hlength : text.length < source := harray.2
  omega

/-- A value is printed as the bytes of its text, if the text that is escaped is well formed. -/
theorem Field.Sound.bytes_eq {field : Field} (h : field.Sound)
    (harray : ∀ array ∈ field.array, IsString array)
    (hformed : ∀ array ∈ field.array, WellFormed array.1) :
    field.bytes = Utf8.encode field.chars := by
  cases field with
  | plain text => rfl
  | escaped text source dest =>
      have hescaped : jsonEscape text dest = Utf8.encode ((readBack text).flatMap escapeChar) := by
        rw [jsonEscape_eq (harray _ rfl).1 (h.room (harray _ rfl)),
          ← (hformed _ rfl).encode_readBack,
          flatMap_escapeByte_encode]
      change 34 :: (jsonEscape text dest ++ [34]) = _
      rw [hescaped, Field.chars, Utf8.encode_cons, Utf8.encode_append]
      rfl
  | unsigned value => rfl
  | signed value => rfl
  | flag value => rfl

/-- The text that is escaped is well formed, if what is printed is. -/
theorem Field.Sound.wellFormed {field : Field} (h : field.Sound)
    (harray : ∀ array ∈ field.array, IsString array)
    {chars : List Char} (hwithin : field.bytes <:+: Utf8.encode chars) :
    ∀ array ∈ field.array, WellFormed array.1 := by
  intro array hmem
  cases field with
  | escaped text source dest =>
      obtain rfl : (text, source) = array := Option.some.inj hmem
      obtain ⟨inner, hinner⟩ := Utf8.exists_of_within (by decide) (by decide) hwithin
      rw [jsonEscape_eq (harray _ rfl).1 (h.room (harray _ rfl))] at hinner
      exact Utf8.isSome_decode_iff.mpr (exists_of_encode_escaped [] (withoutControls text) hinner)
  | plain | unsigned | signed | flag => exact absurd hmem nofun

/-- Decimal numbers are printed without control characters. -/
theorem decimal_printed {value : Nat} {char : Char} (hmem : char ∈ decimal value) :
    0x20 ≤ char.toNat := by
  have hdigit := Nat.isDigit_of_mem_toDigits (by decide) (by decide) hmem
  exact Nat.le_trans (by decide) (Char.isDigit_iff_toNat.mp hdigit).1

/-- Quotes add no control character. -/
theorem quoted_printed {text : List Char} (h : ∀ char ∈ text, 0x20 ≤ char.toNat) {char : Char}
    (hmem : char ∈ '"' :: (text ++ ['"'])) : 0x20 ≤ char.toNat := by
  rcases List.mem_cons.mp hmem with rfl | hmem
  · decide
  · rcases List.mem_append.mp hmem with hmem | hmem
    · exact h char hmem
    · rw [List.mem_singleton.mp hmem]
      decide

/-- No control character is printed for a value. -/
theorem Field.Sound.printed {field : Field} (h : field.Sound) {char : Char}
    (hmem : char ∈ field.chars) :
    0x20 ≤ char.toNat := by
  cases field with
  | plain text => exact quoted_printed (fun char hchar => (h char hchar).2.2) hmem
  | escaped text source dest =>
      refine quoted_printed (fun char hchar => ?_) hmem
      obtain ⟨other, hother, hchar⟩ := List.mem_flatMap.mp hchar
      unfold escapeChar at hchar
      split at hchar
      case isTrue =>
        rcases List.mem_cons.mp hchar with rfl | hchar
        · decide
        · rw [List.mem_singleton.mp hchar]
          exact readBack_printed hother
      case isFalse =>
        rw [List.mem_singleton.mp hchar]
        exact readBack_printed hother
  | unsigned value => exact decimal_printed hmem
  | signed value =>
      change char ∈ signedDecimal value at hmem
      unfold signedDecimal at hmem
      split at hmem
      case isTrue =>
        rcases List.mem_cons.mp hmem with rfl | hmem
        · decide
        · exact decimal_printed hmem
      case isFalse => exact decimal_printed hmem
  | flag value =>
      have hall : (flagWord value).all (fun char => decide (0x20 ≤ char.toNat)) = true := by
        cases value with
        | false => rfl
        | true => rfl
      exact of_decide_eq_true (List.all_eq_true.mp hall char hmem)

/-- The bytes of a text without control characters. -/
theorem encode_printed {text : List Char} (h : ∀ char ∈ text, 0x20 ≤ char.toNat) :
    ∀ byte ∈ Utf8.encode text, 0x20 ≤ byte := by
  intro byte hbyte
  by_contra hcontrol
  have hlow : byte < 0x80 := UInt8.lt_trans (UInt8.not_le.mp hcontrol) (by decide)
  obtain ⟨char, hchar, hnumber⟩ := Utf8.char_of_mem_encode hbyte hlow
  rw [UInt8.le_iff_toNat_le, ← hnumber] at hcontrol
  exact hcontrol (h char hchar)

/-- No control byte is printed for a value. -/
theorem Field.Sound.bytes_printed {field : Field} (h : field.Sound)
    (harray : ∀ array ∈ field.array, IsString array) : ∀ byte ∈ field.bytes, 0x20 ≤ byte := by
  cases field with
  | escaped text source dest =>
      intro byte hbyte
      rcases List.mem_cons.mp hbyte with rfl | hbyte
      · decide
      rcases List.mem_append.mp hbyte with hbyte | hlast
      · rw [jsonEscape_eq (harray _ rfl).1 (h.room (harray _ rfl))] at hbyte
        obtain ⟨other, hother, hbyte⟩ := List.mem_flatMap.mp hbyte
        have hprinted : 0x20 ≤ other := of_decide_eq_true (List.mem_filter.mp hother).2
        unfold escapeByte at hbyte
        split at hbyte
        case isTrue =>
          rcases List.mem_cons.mp hbyte with rfl | hbyte
          · decide
          · rwa [List.mem_singleton.mp hbyte]
        case isFalse => rwa [List.mem_singleton.mp hbyte]
      · rw [List.mem_singleton.mp hlast]
        decide
  | plain | unsigned | signed | flag => exact encode_printed fun char hchar => h.printed hchar

end Anettrace.Jsonl
