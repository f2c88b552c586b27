import Mathlib.Algebra.Group.Nat.Defs
import Mathlib.Algebra.Group.Int.Defs
import CInterop.View.Write

/-!
# Words bit by bit

What the operations on words do to each bit. From this, a number that was read from some bits is
stored to the same bits again (`plainBits_ofBits`), and says what these bits were
(`ofBits_injective`).
-/

namespace CInterop.Bits

/-- A bit of a word, counted from the lowest one. -/
def bit (word : UInt64) (i : Nat) : Bool := word.toBitVec.getLsbD i

theorem bit_of_ge (word : UInt64) {i : Nat} (beyond : 64 ≤ i) : bit word i = false :=
  BitVec.getLsbD_of_ge _ _ beyond

theorem bit_ofNat_of_lt {n width i : Nat} (small : n < 2 ^ width) (beyond : width ≤ i) :
    bit (.ofNat n) i = false := by
  have bits : (UInt64.ofNat n).toBitVec = BitVec.ofNat 64 n := rfl
  have power : n < 2 ^ i := Nat.lt_of_lt_of_le small (Nat.pow_le_pow_right (by decide) beyond)
  rw [bit, bits, BitVec.getLsbD_ofNat, Nat.testBit_lt_two_pow power, Bool.and_false]

theorem eq_of_bit {a b : UInt64} (same : ∀ i < 64, bit a i = bit b i) : a = b :=
  UInt64.toBitVec_inj.mp (BitVec.eq_of_getLsbD_eq same)

theorem eq_zero_iff_bit {word : UInt64} : word = 0 ↔ ∀ i < 64, bit word i = false := by
  constructor
  · rintro rfl i _
    simp [bit]
  · intro clear
    apply eq_of_bit
    intro i inside
    rw [clear i inside]
    simp [bit]

private theorem shift_amount {n : Nat} (small : n < 64) :
    ((UInt64.ofNat n).toBitVec % (64 : BitVec 64)).toNat = n := by
  simp
  omega

theorem bit_shiftLeft (word : UInt64) {n : Nat} (small : n < 64) (i : Nat) :
    bit (word <<< UInt64.ofNat n) i = (decide (i < 64) && decide (n ≤ i) && bit word (i - n)) := by
  unfold bit
  rw [UInt64.toBitVec_shiftLeft, BitVec.shiftLeft_eq', shift_amount small, BitVec.getLsbD_shiftLeft]
  by_cases below : i < n
  · simp [below, Nat.not_le.mpr below]
  · simp [below, Nat.not_lt.mp below]

theorem bit_shiftRight (word : UInt64) {n : Nat} (small : n < 64) (i : Nat) :
    bit (word >>> UInt64.ofNat n) i = bit word (n + i) := by
  unfold bit
  rw [UInt64.toBitVec_shiftRight, BitVec.ushiftRight_eq', shift_amount small,
    BitVec.getLsbD_ushiftRight]

theorem bit_and (a b : UInt64) (i : Nat) : bit (a &&& b) i = (bit a i && bit b i) := by
  simp [bit]

theorem bit_or (a b : UInt64) (i : Nat) : bit (a ||| b) i = (bit a i || bit b i) := by
  simp [bit]

theorem bit_not (a : UInt64) {i : Nat} (inside : i < 64) : bit (~~~a) i = !bit a i := by
  simp [bit, inside]

theorem bit_mask (width : Nat) {i : Nat} (inside : i < 64) :
    bit (mask width) i = decide (i < width) := by
  unfold mask
  split
  · rename_i whole
    have below : i < width := by omega
    have ones : (-1 : UInt64).toBitVec = BitVec.allOnes 64 := by decide
    simp only [bit, ones, BitVec.getLsbD_allOnes, inside, below]
  · rename_i part
    have small : width < 64 := by omega
    have value : (((1 : UInt64) <<< UInt64.ofNat width) - 1).toNat = 2 ^ width - 1 := by
      have power : 2 ^ width < 2 ^ 64 := Nat.pow_lt_pow_right (by decide) small
      have positive := Nat.two_pow_pos width
      have amount : (UInt64.ofNat width).toNat = width :=
        UInt64.toNat_ofNat_of_lt' (Nat.lt_trans small (by decide))
      have shifted : ((1 : UInt64) <<< UInt64.ofNat width).toNat = 2 ^ width := by
        rw [UInt64.toNat_shiftLeft, amount, UInt64.toNat_one, Nat.mod_eq_of_lt small,
          Nat.one_shiftLeft, Nat.mod_eq_of_lt power]
      rw [UInt64.toNat_sub_of_le _ _ (by rw [UInt64.le_iff_toNat_le, shifted]; exact positive)]
      rw [shifted]
      rfl
    unfold bit
    rw [← BitVec.testBit_toNat, UInt64.toNat_toBitVec, value, Nat.testBit_two_pow_sub_one]

theorem bit_extract (unit : UInt64) {offset : Nat} (small : offset < 64) (width : Nat) {i : Nat}
    (inside : i < 64) :
    bit (extract unit offset width) i = (decide (i < width) && bit unit (offset + i)) := by
  rw [extract, bit_and, bit_shiftRight unit small, bit_mask width inside, Bool.and_comm]

/-- Replacing a field changes its bits to the lowest ones of the new word, and no others. -/
theorem bit_replace (unit bits : UInt64) {offset : Nat} (small : offset < 64) (width : Nat)
    {i : Nat} (inside : i < 64) :
    bit (replace unit offset width bits) i =
      if offset ≤ i ∧ i < offset + width then bit bits (i - offset) else bit unit i := by
  have masked : bit (mask width <<< UInt64.ofNat offset) i
      = decide (offset ≤ i ∧ i < offset + width) := by
    rw [bit_shiftLeft _ small, bit_mask width (by omega)]
    by_cases behind : offset ≤ i
    · simp only [inside, behind, decide_true, Bool.true_and, true_and]
      exact decide_eq_decide.mpr (by omega)
    · simp [behind]
  simp only [replace, bit_or, bit_and, bit_not _ inside, masked, bit_shiftLeft bits small]
  by_cases within : offset ≤ i ∧ i < offset + width
  · simp [within, inside]
  · simp [within]

/-- The bits above the sign repeat it. -/
theorem bit_signExtend (bits : UInt64) {width : Nat} (positive : 0 < width) (small : width ≤ 64)
    {i : Nat} (inside : i < 64) :
    (signExtend bits width).toBitVec.getLsbD i = bit bits (min i (width - 1)) := by
  unfold signExtend
  split
  · rename_i whole
    have same : width = 64 := by
      simp only [Bool.or_eq_true, decide_eq_true_eq] at whole
      omega
    subst same
    rw [show min i (64 - 1) = i by omega]
    rfl
  · rename_i part
    have narrow : 64 - width < 64 := by omega
    have strict : width < 64 := by
      simp only [Bool.or_eq_true, decide_eq_true_eq] at part
      omega
    have amount : ((UInt64.ofNat (64 - width)).toInt64.toBitVec.smod (64 : BitVec 64)).toNat
        = 64 - width := by
      have nonneg : (UInt64.ofNat (64 - width)).toBitVec.msb = false := by
        rw [BitVec.msb_eq_decide]
        simp
        omega
      rw [UInt64.toBitVec_toInt64, BitVec.smod_eq, nonneg,
        show (64 : BitVec 64).msb = false by decide]
      exact shift_amount narrow
    rw [Int64.toBitVec_shiftRight, BitVec.getLsbD_sshiftRight', amount]
    have shifted : ∀ j < 64, ((bits <<< UInt64.ofNat (64 - width)).toInt64.toBitVec).getLsbD j
        = (decide (64 - width ≤ j) && bit bits (j - (64 - width))) := by
      intro j small
      have spread := bit_shiftLeft bits narrow j
      simp only [small, decide_true, Bool.true_and] at spread
      exact spread
    rw [BitVec.msb_eq_getLsbD_last, shifted 63 (by omega)]
    simp only [Nat.not_le.mpr inside, decide_false, Bool.not_false, Bool.true_and]
    split
    · rename_i low
      rw [shifted _ low]
      simp only [Nat.le_add_right, decide_true, Bool.true_and]
      congr 1
      omega
    · simp only [show 64 - width ≤ 63 by omega, decide_true, Bool.true_and]
      congr 1
      omega

/-- Masking leaves the residue as an unsigned number. -/
theorem toNat_and_mask (bits : UInt64) {width : Nat} (small : width ≤ 64) :
    (bits &&& mask width).toNat = bits.toNat % 2 ^ width := by
  have same : (bits &&& mask width).toBitVec = (bits.toBitVec.setWidth width).setWidth 64 := by
    apply BitVec.eq_of_getLsbD_eq
    intro i inside
    have own : (bits &&& mask width).toBitVec.getLsbD i = (bit bits i && bit (mask width) i) :=
      bit_and bits (mask width) i
    rw [own, bit_mask width inside, BitVec.getLsbD_setWidth, BitVec.getLsbD_setWidth, bit,
      Bool.and_comm]
    simp [inside]
  have power : 2 ^ width ≤ 2 ^ 64 := Nat.pow_le_pow_right (by decide) small
  have below : bits.toNat % 2 ^ width < 2 ^ width := Nat.mod_lt _ (Nat.two_pow_pos _)
  rw [← UInt64.toNat_toBitVec, same, BitVec.toNat_setWidth, BitVec.toNat_setWidth,
    UInt64.toNat_toBitVec, Nat.mod_eq_of_lt (Nat.lt_of_lt_of_le below power)]

/-- Extending the sign leaves the balanced residue. -/
theorem toInt_signExtend (bits : UInt64) {width : Nat} (positive : 0 < width) (small : width ≤ 64) :
    (signExtend bits width).toInt = (bits.toNat : Int).bmod (2 ^ width) := by
  have same : (signExtend bits width).toBitVec
      = (bits.toBitVec.setWidth width).signExtend 64 := by
    apply BitVec.eq_of_getLsbD_eq
    intro i inside
    rw [bit_signExtend bits positive small inside, BitVec.getLsbD_signExtend]
    simp only [inside, decide_true, Bool.true_and]
    split
    · rename_i low
      rw [BitVec.getLsbD_setWidth, show min i (width - 1) = i by omega]
      simp [low, bit]
    · rename_i high
      rw [BitVec.msb_eq_getLsbD_last, BitVec.getLsbD_setWidth,
        show min i (width - 1) = width - 1 by omega]
      simp [bit]
      omega
  rw [← Int64.toInt_toBitVec, same, BitVec.toInt_signExtend_of_le small, BitVec.toInt_setWidth,
    UInt64.toNat_toBitVec]

section

variable {bits : UInt64} {n : Int} {width : Nat}

theorem emod_emod_word (n : Int) (small : width ≤ 64) :
    n % (2 ^ 64 : Nat) % (2 ^ width : Nat) = n % (2 ^ width : Nat) :=
  Int.emod_emod_of_dvd n (Int.natCast_dvd_natCast.mpr (Nat.pow_dvd_pow 2 small))

/-- The lowest bits of a number are its residue. -/
theorem toNat_and_mask_of_emod (word : (bits.toNat : Int) = n % 2 ^ 64) (small : width ≤ 64) :
    ((bits &&& mask width).toNat : Int) = n % 2 ^ width := by
  rw [toNat_and_mask bits small, Int.natCast_emod, word]
  exact emod_emod_word n small

/-- The lowest bits of a number in two's complement are its balanced residue. -/
theorem toInt_signExtend_of_emod (word : (bits.toNat : Int) = n % 2 ^ 64) (positive : 0 < width)
    (small : width ≤ 64) : (signExtend bits width).toInt = n.bmod (2 ^ width) := by
  rw [toInt_signExtend bits positive small, word, Int.bmod_def, Int.bmod_def]
  exact emod_emod_word n small ▸ rfl

end

/-- Two words agree in their lowest bits. -/
def Agree (width : Nat) (a b : UInt64) : Prop := ∀ i < width, bit a i = bit b i

theorem agree_and_mask (bits : UInt64) {width : Nat} (small : width ≤ 64) :
    Agree width (bits &&& mask width) bits := by
  intro i below
  rw [bit_and, bit_mask width (by omega), decide_eq_true below, Bool.and_true]

theorem toUInt32_congr {a b : UInt64} (agree : Agree 32 a b) : a.toUInt32 = b.toUInt32 := by
  apply UInt32.toBitVec_inj.mp
  apply BitVec.eq_of_getLsbD_eq
  intro i inside
  rw [UInt64.toBitVec_toUInt32, UInt64.toBitVec_toUInt32, BitVec.getLsbD_setWidth,
    BitVec.getLsbD_setWidth]
  exact congrArg _ (agree i inside)

end CInterop.Bits

namespace CInterop.Value

open Bits

/-- A whole word is read as it is. -/
theorem ofBits_word (word : UInt64) (signed : Bool) :
    ofBits word 64 signed = if signed then .int word.toInt64 else .uint word := by
  cases signed with
  | true => simp [ofBits, signExtend]
  | false =>
    have whole : mask 64 = -1 := by decide
    simp [ofBits, whole]

/-- A number only depends on the bits that it is read from. -/
theorem ofBits_congr {a b : UInt64} {width : Nat} (positive : 0 < width) (small : width ≤ 64)
    (signed : Bool) (agree : Agree width a b) : ofBits a width signed = ofBits b width signed := by
  cases signed with
  | true =>
    have same : signExtend a width = signExtend b width := by
      apply Int64.toBitVec_inj.mp
      apply BitVec.eq_of_getLsbD_eq
      intro i inside
      rw [bit_signExtend a positive small inside, bit_signExtend b positive small inside]
      exact agree _ (by omega)
    simp [ofBits, same]
  | false =>
    have same : a &&& mask width = b &&& mask width := by
      apply eq_of_bit
      intro i inside
      rw [bit_and, bit_and, bit_mask width inside]
      by_cases low : i < width
      · rw [agree i low]
      · simp [low]
    simp [ofBits, same]

/-- A number that was read from some bits is stored to these bits again. -/
theorem plainBits_ofBits (type : CType) (word : UInt64) {width : Nat} (positive : 0 < width)
    (small : width ≤ 64) (signed : Bool) :
    ∃ stored, plainBits type (ofBits word width signed) = .ok stored ∧ Agree width stored word := by
  cases signed with
  | true =>
    refine ⟨_, rfl, ?_⟩
    intro i low
    have read := bit_signExtend word positive small (i := i) (by omega)
    rw [show min i (width - 1) = i by omega] at read
    exact read
  | false => exact ⟨_, rfl, agree_and_mask word small⟩

/-- A number that was read from some bits and from more of them tells that these agree. -/
theorem agree_of_ofBits {a b : UInt64} {width whole : Nat} (positive : 0 < width)
    (narrow : width ≤ whole) (small : whole ≤ 64) {signed : Bool}
    (same : ofBits a whole signed = ofBits b width signed) : Agree width a b := by
  obtain ⟨stored, found, agree⟩ :=
    plainBits_ofBits .void a (Nat.lt_of_lt_of_le positive narrow) small signed
  obtain ⟨other, found', agree'⟩ :=
    plainBits_ofBits .void b positive (Nat.le_trans narrow small) signed
  rw [same, found'] at found
  cases found
  exact fun i low => (agree i (Nat.lt_of_lt_of_le low narrow)).symm.trans (agree' i low)

/-- A number tells the bits that it was read from. -/
theorem ofBits_injective {a b : UInt64} {width : Nat} (positive : 0 < width) (small : width ≤ 64)
    {signed : Bool} (same : ofBits a width signed = ofBits b width signed) : Agree width a b :=
  agree_of_ofBits positive (Nat.le_refl width) small same

theorem integerBits_ofBits (heap : Heap) (type : CType) (word : UInt64) {width : Nat}
    (positive : 0 < width) (small : width ≤ 64) (signed : Bool) :
    ∃ stored, integerBits heap type (ofBits word width signed) = .ok stored
      ∧ Agree width stored word := by
  have plain : integerBits heap type (ofBits word width signed)
      = plainBits type (ofBits word width signed) := by
    cases signed <;> rfl
  rw [plain]
  exact plainBits_ofBits type word positive small signed

end CInterop.Value
