import Mathlib.Algebra.Order.Ring.Int
import Mathlib.Tactic.Common

/-!
# Numbers in bytes

The bytes of a number of a fixed width, least significant first, and the number they stand for. A
varint stores a number in groups of seven bits, least significant group first; every byte but the
last has its high bit set. A number has many varints, and `encode` writes the shortest.
-/

namespace Library

def littleEndian : Nat → Nat → List UInt8
  | 0, _ => []
  | width + 1, value => UInt8.ofNat (value % 256) :: littleEndian width (value / 256)

/-- The number that bytes stand for. -/
def ofLittleEndian : List UInt8 → Nat
  | [] => 0
  | byte :: rest => byte.toNat + 256 * ofLittleEndian rest

@[simp] theorem littleEndian_length (width value : Nat) :
    (littleEndian width value).length = width := by
  induction width generalizing value with
  | zero => rfl
  | succ width ih => rw [littleEndian, List.length_cons, ih]

/-- Reading the bytes back gives the number, up to what the width holds. -/
theorem ofLittleEndian_littleEndian (width value : Nat) :
    ofLittleEndian (littleEndian width value) = value % 256 ^ width := by
  induction width generalizing value with
  | zero => rw [Nat.pow_zero, Nat.mod_one]; rfl
  | succ width ih =>
      have hbyte : (UInt8.ofNat (value % 256)).toNat = value % 256 := by
        rw [UInt8.toNat_ofNat']
        omega
      rw [littleEndian, ofLittleEndian, ih, hbyte, Nat.pow_succ, Nat.mul_comm (256 ^ width),
        Nat.mod_mul]

end Library

namespace Library.Varint

/-- The number a sequence of groups stands for. -/
def value : List UInt8 → Nat
  | [] => 0
  | byte :: rest => byte.toNat % 128 + 128 * value rest

/-- Only the last byte has its high bit clear. -/
inductive Terminated : List UInt8 → Prop where
  | last {byte : UInt8} (h : byte.toNat < 128) : Terminated [byte]
  | more {byte : UInt8} {rest : List UInt8} (h : 128 ≤ byte.toNat) (hrest : Terminated rest) :
      Terminated (byte :: rest)

/-- The shortest varint of a number, in at most as many bytes as the first argument says. -/
def encode : Nat → Nat → List UInt8
  | 0, _ => []
  | size + 1, number =>
      let byte := number &&& 0x7f
      let rest := number >>> 7
      if rest ≠ 0 then UInt8.ofNat (byte ||| 0x80) :: encode size rest else [UInt8.ofNat byte]

theorem shiftRight_seven (number : Nat) : number >>> 7 = number / 128 :=
  Nat.shiftRight_eq_div_pow number 7

theorem and_low (number : Nat) : number &&& 0x7f = number % 128 :=
  Nat.and_two_pow_sub_one_eq_mod number 7

theorem or_high {group : Nat} (h : group < 128) : group ||| 0x80 = group + 128 := by
  have hor := Nat.shiftLeft_add_eq_or_of_lt (show group < 2 ^ 7 from h) 1
  rw [Nat.or_comm, show 0x80 = 1 <<< 7 from rfl, ← hor, Nat.add_comm]

/-- A varint is not empty. -/
theorem Terminated.ne_nil {bytes : List UInt8} (h : Terminated bytes) : bytes ≠ [] := by
  cases h <;> simp

/-- `encode` terminates its bytes and keeps the number, when the number fits. -/
theorem encode_spec {size number : Nat} (h : number < 128 ^ size) (hsize : 0 < size) :
    Terminated (encode size number) ∧ value (encode size number) = number ∧
      (encode size number).length ≤ size := by
  induction size generalizing number with
  | zero => omega
  | succ size ih =>
      have hgroup : number % 128 < 128 := Nat.mod_lt _ (by decide)
      simp only [encode, shiftRight_seven, and_low, or_high hgroup]
      split
      case isTrue hmore =>
        have hrest : number / 128 < 128 ^ size := by
          rw [Nat.pow_succ] at h
          exact Nat.div_lt_of_lt_mul (by omega)
        have hpos : 0 < size := by
          by_contra hzero
          have hsize0 : size = 0 := by omega
          rw [hsize0, Nat.pow_zero] at hrest
          omega
        obtain ⟨hterminated, hvalue, hlength⟩ := ih hrest hpos
        have hbyte : (UInt8.ofNat (number % 128 + 128)).toNat = number % 128 + 128 := by
          rw [UInt8.toNat_ofNat']
          omega
        refine ⟨.more (by omega) hterminated, ?_, ?_⟩
        · rw [value, hvalue, hbyte]
          omega
        · rw [List.length_cons]
          omega
      case isFalse hlast =>
        have hzero : number / 128 = 0 := not_not.mp hlast
        have hbyte : (UInt8.ofNat (number % 128)).toNat = number % 128 := by
          rw [UInt8.toNat_ofNat']
          omega
        refine ⟨.last (by omega), ?_, by simp⟩
        rw [value, value, hbyte]
        omega

/-- No varint of a number is shorter than the one `encode` writes. -/
theorem encode_length_le {bytes : List UInt8} (h : Terminated bytes) (size : Nat) :
    (encode size (value bytes)).length ≤ bytes.length := by
  induction h generalizing size with
  | @last byte hlast =>
      cases size with
      | zero => exact Nat.zero_le _
      | succ size =>
          have hrest : value [byte] / 128 = 0 := by
            rw [value, value]
            omega
          simp [encode, shiftRight_seven, hrest]
  | @more byte rest hmore hrest ih =>
      cases size with
      | zero => exact Nat.zero_le _
      | succ size =>
          have hshift : value (byte :: rest) / 128 = value rest := by
            rw [value]
            omega
          simp only [encode, shiftRight_seven, hshift]
          split
          · rw [List.length_cons, List.length_cons]
            exact Nat.succ_le_succ (ih size)
          · simp

/-- Larger numbers have no shorter varints. -/
theorem encode_length_mono (size : Nat) {small large : Nat} (h : small ≤ large) :
    (encode size small).length ≤ (encode size large).length := by
  induction size generalizing small large with
  | zero => exact Nat.le_refl _
  | succ size ih =>
      have hrest : small / 128 ≤ large / 128 := Nat.div_le_div_right h
      simp only [encode, shiftRight_seven]
      by_cases hmore : small / 128 = 0
      · rw [if_neg (not_not.mpr hmore)]
        split <;> simp
      · rw [if_pos hmore, if_pos (by omega), List.length_cons, List.length_cons]
        exact Nat.succ_le_succ (ih hrest)

end Library.Varint
