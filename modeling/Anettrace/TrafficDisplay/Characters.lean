import Anettrace.TrafficDisplay.Line
import Mathlib.Algebra.BigOperators.Group.List.Basic
import Mathlib.Algebra.Order.Ring.Nat
import Mathlib.Data.List.Induction
import Mathlib.Data.List.TakeWhile

/-!
# Characters of a line

What may stand on a line of the display: printable ASCII bytes, and characters of the CJK block in
their UTF-8 encoding. `isCjk_iff` says that the decoder of the source knows exactly these encodings.
`clip` puts a line together that shows a text, cut where no sequence is open.
-/

namespace Anettrace.TrafficDisplay

/-! ## UTF-8 -/

def InCjkBlock (char : Char) : Prop := 0x4e00 ≤ char.toNat ∧ char.toNat ≤ 0x9fff

/-- The code point of three bytes. -/
theorem codepoint_eq (first second third : UInt8) :
    codepoint first second third =
      first.toNat % 16 * 4096 + second.toNat % 64 * 64 + third.toNat % 64 := by
  have hfirst : (first &&& 0x0f).toNat = first.toNat % 16 := by
    rw [UInt8.toNat_and]
    exact Nat.and_two_pow_sub_one_eq_mod first.toNat 4
  have hlow (byte : UInt8) : (byte &&& 0x3f).toNat = byte.toNat % 64 := by
    rw [UInt8.toNat_and]
    exact Nat.and_two_pow_sub_one_eq_mod byte.toNat 6
  have hthird : third.toNat % 64 < 2 ^ 6 := Nat.mod_lt _ (by decide)
  have hrest : (second.toNat % 64) <<< 6 + third.toNat % 64 < 2 ^ 12 := by
    rw [Nat.shiftLeft_eq]
    omega
  rw [codepoint, hfirst, hlow, hlow, Nat.or_assoc, ← Nat.shiftLeft_add_eq_or_of_lt hthird,
    ← Nat.shiftLeft_add_eq_or_of_lt hrest, Nat.shiftLeft_eq, Nat.shiftLeft_eq]
  omega

theorem and_two_high : ∀ number < 256, number &&& 0xc0 = 64 * (number / 64) := by
  decide +kernel

/-- The bytes behind the first one of a sequence. -/
theorem continuation_iff (byte : UInt8) :
    byte &&& 0xc0 = 0x80 ↔ 128 ≤ byte.toNat ∧ byte.toNat < 192 := by
  have hlt := byte.toNat_lt
  have hand : (byte &&& 0xc0).toNat = byte.toNat &&& 0xc0 := UInt8.toNat_and byte 0xc0
  rw [← UInt8.toNat_inj, hand, and_two_high _ (by omega)]
  show 64 * (byte.toNat / 64) = 128 ↔ _
  omega

/-- The conditions of the decoder, in the order in which it looks at the bytes. -/
theorem isCjk_conditions (first second third : UInt8) :
    isCjk first second third = true ↔
      (first ≥ 0xe4 ∧ first ≤ 0xe9) ∧ second &&& 0xc0 = 0x80 ∧ third &&& 0xc0 = 0x80 ∧
        codepoint first second third ≥ 0x4e00 ∧ codepoint first second third ≤ 0x9fff := by
  simp only [isCjk, Bool.and_eq_true, decide_eq_true_eq, beq_iff_eq, and_assoc]

/-- The same conditions, in numbers. -/
theorem isCjk_bounds (first second third : UInt8) :
    isCjk first second third = true ↔
      (228 ≤ first.toNat ∧ first.toNat ≤ 233) ∧ (128 ≤ second.toNat ∧ second.toNat < 192) ∧
        (128 ≤ third.toNat ∧ third.toNat < 192) ∧
        0x4e00 ≤ codepoint first second third ∧ codepoint first second third ≤ 0x9fff := by
  rw [isCjk_conditions, continuation_iff, continuation_iff, ge_iff_le, UInt8.le_iff_toNat_le,
    UInt8.le_iff_toNat_le]
  rfl

theorem encode_cjk {char : Char} (h : InCjkBlock char) :
    String.utf8EncodeChar char =
      [UInt8.ofNat (char.toNat / 4096 % 16 + 224), UInt8.ofNat (char.toNat / 64 % 64 + 128),
        UInt8.ofNat (char.toNat % 64 + 128)] := by
  obtain ⟨hfrom, hto⟩ := h
  have hvalue : char.val.toNat = char.toNat := rfl
  unfold String.utf8EncodeChar
  rw [hvalue, if_neg (by omega), if_neg (by omega), if_pos (by omega)]

/-- The decoder knows three bytes exactly when they encode a character of the block. -/
theorem isCjk_iff (first second third : UInt8) :
    isCjk first second third = true ↔
      ∃ char, InCjkBlock char ∧ String.utf8EncodeChar char = [first, second, third] := by
  rw [isCjk_bounds, codepoint_eq]
  constructor
  · rintro ⟨hfirst, hsecond, hthird, hfrom, hto⟩
    obtain ⟨value, hvalue⟩ : ∃ value, value =
        first.toNat % 16 * 4096 + second.toNat % 64 * 64 + third.toNat % 64 := ⟨_, rfl⟩
    rw [← hvalue] at hfrom hto
    have hvalid : value.isValidChar := Or.inl (by omega)
    have hnat : (Char.ofNatAux value hvalid).toNat = value := rfl
    have hblock : InCjkBlock (Char.ofNatAux value hvalid) := ⟨hfrom, hto⟩
    have hbytes : value / 4096 % 16 + 224 = first.toNat ∧ value / 64 % 64 + 128 = second.toNat ∧
        value % 64 + 128 = third.toNat := by omega
    refine ⟨Char.ofNatAux value hvalid, hblock, ?_⟩
    rw [encode_cjk hblock, hnat, hbytes.1, hbytes.2.1, hbytes.2.2, UInt8.ofNat_toNat,
      UInt8.ofNat_toNat,
      UInt8.ofNat_toNat]
  · rintro ⟨char, hblock, hencode⟩
    rw [encode_cjk hblock] at hencode
    obtain ⟨hfirst, hencode⟩ := List.cons.inj hencode
    obtain ⟨hsecond, hencode⟩ := List.cons.inj hencode
    obtain ⟨hthird, -⟩ := List.cons.inj hencode
    obtain ⟨hfrom, hto⟩ := hblock
    rw [← hfirst, ← hsecond, ← hthird, UInt8.toNat_ofNat', UInt8.toNat_ofNat', UInt8.toNat_ofNat']
    omega

/-! ## The characters of a text -/

/-- A byte that takes a cell of its own. -/
def Printable (byte : UInt8) : Prop := byte ≥ 32 ∧ byte ≤ 126

instance (byte : UInt8) : Decidable (Printable byte) := inferInstanceAs (Decidable (_ ∧ _))

def CjkAt (text : Text) (place : Nat) : Prop :=
  ∃ char, InCjkBlock char ∧ String.utf8EncodeChar char <+: text.drop place

def InSequence (text : Text) (place : Nat) : Prop :=
  ∃ start, CjkAt text start ∧ start ≤ place ∧ place < start + 3

/-- The first character is of three bytes. -/
theorem cjkAt_zero_iff (text : Text) :
    CjkAt text 0 ↔ ∃ first second third rest, text = first :: second :: third :: rest ∧
      isCjk first second third = true := by
  constructor
  · rintro ⟨char, hblock, rest, hrest⟩
    have hencode := encode_cjk hblock
    rw [hencode, List.drop_zero] at hrest
    exact ⟨_, _, _, rest, hrest.symm, (isCjk_iff _ _ _).mpr ⟨char, hblock, hencode⟩⟩
  · rintro ⟨first, second, third, rest, rfl, hcjk⟩
    obtain ⟨char, hblock, hencode⟩ := (isCjk_iff first second third).mp hcjk
    refine ⟨char, hblock, ?_⟩
    rw [hencode]
    exact List.prefix_append [first, second, third] rest

theorem cjkAt_behind (front rest : Text) (place : Nat) :
    CjkAt (front ++ rest) (front.length + place) ↔ CjkAt rest place := by
  rw [CjkAt, CjkAt, List.drop_append, List.drop_eq_nil_of_le (Nat.le_add_right _ _),
    List.nil_append,
    Nat.add_sub_cancel_left]

/-- What the decoder finds at the beginning of a text: a sequence of the block, or one byte where no
such sequence begins. -/
structure FirstCharacter (front rest : Text) (character : Text × Nat) : Prop where
  characters : characters (front ++ rest) = character :: characters rest
  cells : trafficCharacterCells (front ++ rest) = (front.length, character.2)
  shape : (∃ char, InCjkBlock char ∧ front = String.utf8EncodeChar char ∧ character = (front, 2)) ∨
    ∃ byte, front = [byte] ∧ character = (if Printable byte then [byte] else [0x3f], 1) ∧
      ¬ CjkAt (front ++ rest) 0

theorem firstCharacter {text : Text} (h : text ≠ []) :
    ∃ front rest character, text = front ++ rest ∧ FirstCharacter front rest character := by
  cases text with
  | nil => exact absurd rfl h
  | cons first tail =>
      by_cases hat : CjkAt (first :: tail) 0
      · obtain ⟨_, second, third, rest, ⟨⟩, hcjk⟩ := (cjkAt_zero_iff _).mp hat
        obtain ⟨char, hblock, hencode⟩ := (isCjk_iff first second third).mp hcjk
        refine ⟨[first, second, third], rest, _, rfl, ?_, ?_,
          .inl ⟨char, hblock, hencode.symm, rfl⟩⟩
        · show characters (first :: second :: third :: rest) = _
          rw [TrafficDisplay.characters, if_pos hcjk]
        · show trafficCharacterCells (first :: second :: third :: rest) = _
          rw [trafficCharacterCells, if_pos hcjk]
          rfl
      · have hone : characters (first :: tail) =
              (if Printable first then [first] else [0x3f], 1) :: characters tail ∧
            trafficCharacterCells (first :: tail) = (1, 1) := by
          rcases tail with _ | ⟨second, _ | ⟨third, rest⟩⟩
          · exact ⟨rfl, rfl⟩
          · exact ⟨rfl, rfl⟩
          · have hnot : ¬ isCjk first second third = true := fun hcjk =>
              hat ((cjkAt_zero_iff _).mpr ⟨first, second, third, rest, rfl, hcjk⟩)
            rw [characters, trafficCharacterCells, if_neg hnot, if_neg hnot]
            exact ⟨rfl, rfl⟩
        exact ⟨[first], tail, _, rfl, hone.1, hone.2, .inr ⟨first, rfl, rfl, hat⟩⟩

namespace FirstCharacter

variable {front rest : Text} {character : Text × Nat}

section

variable (h : FirstCharacter front rest character)
include h

/-- A character is shown in as many bytes as it has. -/
theorem length_eq :
    character.1.length = front.length := by
  rcases h.shape with ⟨char, -, -, rfl⟩ | ⟨byte, rfl, rfl, -⟩
  · rfl
  · show (if Printable byte then [byte] else [0x3f]).length = 1
    split <;> rfl

theorem cells_le :
    0 < character.2 ∧ character.2 ≤ front.length := by
  rcases h.shape with ⟨char, hblock, rfl, rfl⟩ | ⟨byte, rfl, rfl, -⟩
  · rw [encode_cjk hblock]
    exact ⟨Nat.succ_pos _, Nat.le_succ 2⟩
  · exact ⟨Nat.succ_pos _, Nat.le_refl 1⟩

/-- No sequence of the block goes over the end of the first character: its bytes behind the first
are not such that a sequence could begin with them. -/
theorem boundary {place : Nat} (hat : CjkAt (front ++ rest) place) :
    place = 0 ∧ front.length = 3 ∨ front.length ≤ place := by
  rcases h.shape with ⟨char, hblock, hfront, -⟩ | ⟨byte, rfl, -, hnot⟩
  · rw [encode_cjk hblock] at hfront
    obtain ⟨first, second, third, rfl, hsecond, hthird⟩ : ∃ first second third : UInt8,
        front = [first, second, third] ∧ second.toNat < 192 ∧ third.toNat < 192 := by
      refine ⟨_, _, _, hfront, ?_, ?_⟩
      · rw [UInt8.toNat_ofNat']
        omega
      · rw [UInt8.toNat_ofNat']
        omega
    match place, hat with
    | 0, _ => exact .inl ⟨rfl, rfl⟩
    | 1, hat =>
        obtain ⟨_, _, _, _, hdrop, hcjk⟩ :=
          (cjkAt_zero_iff _).mp ((cjkAt_behind [first] _ 0).mp hat)
        obtain ⟨rfl, -⟩ := List.cons.inj hdrop
        have hlead := ((isCjk_bounds _ _ _).mp hcjk).1
        omega
    | 2, hat =>
        obtain ⟨_, _, _, _, hdrop, hcjk⟩ :=
            (cjkAt_zero_iff _).mp ((cjkAt_behind [first, second] _ 0).mp hat)
        obtain ⟨rfl, -⟩ := List.cons.inj hdrop
        have hlead := ((isCjk_bounds _ _ _).mp hcjk).1
        omega
    | place + 3, _ => exact .inr (Nat.le_add_left 3 place)
  · cases place with
    | zero => exact absurd hat hnot
    | succ place => exact .inr (Nat.le_add_left 1 place)

theorem inSequence_behind (place : Nat) :
    InSequence (front ++ rest) (front.length + place) ↔ InSequence rest place := by
  constructor
  · rintro ⟨start, hat, hfrom, hto⟩
    rcases h.boundary hat with ⟨rfl, hthree⟩ | hbehind
    · omega
    · obtain ⟨start, rfl⟩ := Nat.exists_eq_add_of_le hbehind
      exact ⟨start, (cjkAt_behind front rest start).mp hat, by omega, by omega⟩
  · rintro ⟨start, hat, hfrom, hto⟩
    exact ⟨front.length + start, (cjkAt_behind front rest start).mpr hat, by omega, by omega⟩

end

end FirstCharacter

theorem characters_induction {motive : Text → Prop} (nil : motive [])
    (cons : ∀ front rest character, FirstCharacter front rest character → motive rest →
      motive (front ++ rest)) (text : Text) : motive text := by
  induction hlength : text.length using Nat.strong_induction_on generalizing text with
  | _ length ih =>
      by_cases hnil : text = []
      · rw [hnil]
        exact nil
      · obtain ⟨front, rest, character, rfl, hfirst⟩ := firstCharacter hnil
        have hcells := hfirst.cells_le
        rw [List.length_append] at hlength
        exact cons front rest character hfirst (ih rest.length (by omega) rest rfl)

/-! ## Glyphs -/

/-- What stands on a line: a printable byte, or a sequence of the CJK block. -/
inductive Glyph where
  | ascii (byte : UInt8) (printable : Printable byte)
  | cjk (char : Char) (block : InCjkBlock char)

def Glyph.bytes : Glyph → Text
  | .ascii byte _ => [byte]
  | .cjk char _ => String.utf8EncodeChar char

def Glyph.cells : Glyph → Nat
  | .ascii _ _ => 1
  | .cjk _ _ => 2

theorem Glyph.cells_le (glyph : Glyph) : glyph.cells ≤ glyph.bytes.length := by
  cases glyph with
  | ascii byte printable => exact Nat.le_refl 1
  | cjk char block =>
      rw [Glyph.bytes, encode_cjk block]
      exact Nat.le_succ 2

theorem Glyph.zero_not_mem (glyph : Glyph) : 0 ∉ glyph.bytes := by
  cases glyph with
  | ascii byte printable =>
      intro hmem
      rw [← List.mem_singleton.mp hmem] at printable
      exact absurd printable (by decide)
  | cjk char block =>
      have hbyte {value : Nat} (hpos : 0 < value) (hlt : value < 256) :
          (0 : UInt8) ≠ UInt8.ofNat value := by
        intro hzero
        have hvalue := congrArg UInt8.toNat hzero
        rw [UInt8.toNat_ofNat', Nat.mod_eq_of_lt hlt] at hvalue
        exact absurd hvalue (Nat.ne_of_lt hpos)
      rw [Glyph.bytes, encode_cjk block, List.mem_cons, List.mem_cons, List.mem_singleton]
      rintro (hzero | hzero | hzero)
      · exact hbyte (by omega) (by omega) hzero
      · exact hbyte (by omega) (by omega) hzero
      · exact hbyte (by omega) (by omega) hzero

theorem FirstCharacter.glyph {front rest : Text} {character : Text × Nat}
    (h : FirstCharacter front rest character) :
    ∃ glyph : Glyph, glyph.bytes = character.1 ∧ glyph.cells = character.2 := by
  rcases h.shape with ⟨char, hblock, rfl, rfl⟩ | ⟨byte, rfl, rfl, -⟩
  · exact ⟨.cjk char hblock, rfl, rfl⟩
  · by_cases hprintable : Printable byte
    · rw [if_pos hprintable]
      exact ⟨.ascii byte hprintable, rfl, rfl⟩
    · rw [if_neg hprintable]
      exact ⟨.ascii 0x3f (by decide), rfl, rfl⟩

theorem glyph_of_character (text : Text) :
    ∀ character ∈ characters text,
      ∃ glyph : Glyph, glyph.bytes = character.1 ∧ glyph.cells = character.2 := by
  induction text using characters_induction with
  | nil => exact fun character hmem => absurd hmem List.not_mem_nil
  | cons front rest character hfirst ih =>
      rw [hfirst.characters]
      exact List.forall_mem_cons.mpr ⟨hfirst.glyph, ih⟩

/-! ## The front of a text -/

def lineOf (characters : List (Text × Nat)) : Text := characters.flatMap Prod.fst

def cellsOf (characters : List (Text × Nat)) : Nat := (characters.map Prod.snd).sum

@[simp] theorem lineOf_append (first second : List (Text × Nat)) :
    lineOf (first ++ second) = lineOf first ++ lineOf second := List.flatMap_append

@[simp] theorem lineOf_cons (character : Text × Nat) (rest : List (Text × Nat)) :
    lineOf (character :: rest) = character.1 ++ lineOf rest := List.flatMap_cons

@[simp] theorem lineOf_singleton (character : Text × Nat) : lineOf [character] = character.1 :=
  List.append_nil _

@[simp] theorem cellsOf_append (first second : List (Text × Nat)) :
    cellsOf (first ++ second) = cellsOf first + cellsOf second := by
  rw [cellsOf, List.map_append, List.sum_append]
  rfl

@[simp] theorem cellsOf_singleton (character : Text × Nat) : cellsOf [character] = character.2 :=
  Nat.add_zero _

def ShownAs (text : Text) (place : Nat) (byte shown : UInt8) : Prop :=
  (Printable byte ∨ InSequence text place) ∧ shown = byte ∨
    ¬ (Printable byte ∨ InSequence text place) ∧ shown = 0x3f

theorem FirstCharacter.shown {front rest : Text} {character : Text × Nat}
    (h : FirstCharacter front rest character) {place : Nat} (hplace : place < front.length) :
    ∃ byte shown, front[place]? = some byte ∧ character.1[place]? = some shown ∧
      ShownAs (front ++ rest) place byte shown := by
  rcases h.shape with ⟨char, hblock, rfl, rfl⟩ | ⟨byte, rfl, rfl, hnot⟩
  · have hget := List.getElem?_eq_getElem hplace
    refine ⟨_, _, hget, hget, .inl ⟨.inr ⟨0, ⟨char, hblock, List.prefix_append _ _⟩,
      Nat.zero_le _, ?_⟩, rfl⟩⟩
    rw [encode_cjk hblock] at hplace
    rwa [Nat.zero_add]
  · obtain rfl : place = 0 := Nat.lt_one_iff.mp hplace
    by_cases hprintable : Printable byte
    · rw [if_pos hprintable]
      exact ⟨byte, byte, rfl, rfl, .inl ⟨.inl hprintable, rfl⟩⟩
    · rw [if_neg hprintable]
      refine ⟨byte, 0x3f, rfl, rfl, .inr ⟨?_, rfl⟩⟩
      rintro (hbyte | ⟨start, hat, hfrom, -⟩)
      · exact hprintable hbyte
      · obtain rfl := Nat.le_zero.mp hfrom
        exact hnot hat

theorem front_boundary (text : Text) {kept : List (Text × Nat)} (hkept : kept <+: characters text)
    {place : Nat}
    (hat : CjkAt text place) : place + 3 ≤ (lineOf kept).length ∨ (lineOf kept).length ≤ place := by
  induction text using characters_induction generalizing kept place with
  | nil =>
      obtain rfl := List.prefix_nil.mp hkept
      exact .inr (Nat.zero_le place)
  | cons front rest character hfirst ih =>
      rw [hfirst.characters, List.prefix_cons_iff] at hkept
      rcases hkept with rfl | ⟨kept, rfl, hkept⟩
      · exact .inr (Nat.zero_le place)
      · rw [lineOf_cons, List.length_append, hfirst.length_eq]
        rcases hfirst.boundary hat with ⟨rfl, hthree⟩ | hbehind
        · omega
        · obtain ⟨place, rfl⟩ := Nat.exists_eq_add_of_le hbehind
          have hrest := ih hkept ((cjkAt_behind front rest place).mp hat)
          omega

theorem front_shown (text : Text) {kept : List (Text × Nat)} (hkept : kept <+: characters text)
    {place : Nat} (hplace : place < (lineOf kept).length) :
    ∃ byte shown, text[place]? = some byte ∧ (lineOf kept)[place]? = some shown ∧
      ShownAs text place byte shown := by
  induction text using characters_induction generalizing kept place with
  | nil =>
      obtain rfl := List.prefix_nil.mp hkept
      exact absurd hplace (Nat.not_lt_zero place)
  | cons front rest character hfirst ih =>
      rw [hfirst.characters, List.prefix_cons_iff] at hkept
      rcases hkept with rfl | ⟨kept, rfl, hkept⟩
      · exact absurd hplace (Nat.not_lt_zero place)
      · have hlength := hfirst.length_eq
        rw [lineOf_cons] at hplace ⊢
        rcases Nat.lt_or_ge place front.length with hinside | hbehind
        · obtain ⟨byte, shown, hbyte, hshown, has⟩ := hfirst.shown hinside
          refine ⟨byte, shown, ?_, ?_, has⟩
          · rw [List.getElem?_append_left hinside, hbyte]
          · rw [List.getElem?_append_left (by omega), hshown]
        · obtain ⟨place, rfl⟩ := Nat.exists_eq_add_of_le hbehind
          rw [List.length_append, hlength] at hplace
          obtain ⟨byte, shown, hbyte, hshown, has⟩ := ih hkept (Nat.lt_of_add_lt_add_left hplace)
          refine ⟨byte, shown, ?_, ?_, ?_⟩
          · rw [List.getElem?_append_right hbehind, Nat.add_sub_cancel_left, hbyte]
          · rw [List.getElem?_append_right (by omega), hlength, Nat.add_sub_cancel_left, hshown]
          · rwa [ShownAs, hfirst.inSequence_behind]

theorem length_lineOf (text : Text) : (lineOf (characters text)).length = text.length := by
  induction text using characters_induction with
  | nil => rfl
  | cons front rest character hfirst ih =>
      rw [hfirst.characters, lineOf_cons, List.length_append, List.length_append, ih,
        hfirst.length_eq]

end Anettrace.TrafficDisplay
