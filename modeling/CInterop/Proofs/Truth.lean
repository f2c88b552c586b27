import CInterop.Proofs.Callback.Results
import CInterop.Proofs.View.BitFields

/-!
# Numbers as truth values

A number can be stored as a truth value in memory, in a bit-field, and as the result of a callback.
C takes it for whether the number is zero or not (`Truth.of`). Memory does, except that an instance
of `bool` is copied with the byte that it has. A bit-field takes the lowest bits of the number, like
every other bit-field. A callback gives native code a 0 for zero, and a 1 for a number whose lowest
byte is 1. `Truth.leaves_of_number` says what each of them is left with.
-/

namespace CInterop

/-- What is left of a number that was stored as a truth value: the number in its place, and the
truth value that is read there. -/
@[ext]
structure Truth where
  stored : Nat
  back : Bool
  deriving DecidableEq

namespace Truth

/-- What C makes of a number. -/
def of (n : Int) : Truth := ⟨if n = 0 then 0 else 1, n != 0⟩

/-- The lowest bits of a number. -/
def lowest (width : Nat) (n : Int) : Truth := ⟨(n % 2 ^ width).toNat, n % 2 ^ width != 0⟩

/-- The lowest bits are what C makes of the number if they are 1, or the number is 0. -/
theorem lowest_eq_of_iff {width : Nat} (positive : 0 < width) (n : Int) :
    lowest width n = of n ↔ n = 0 ∨ n % 2 ^ width = 1 := by
  have more : (1 : Int) < 2 ^ width := by
    exact_mod_cast Nat.one_lt_two_pow (Nat.ne_of_gt positive)
  have natural : 0 ≤ n % 2 ^ width := Int.emod_nonneg n (by omega)
  rw [lowest, of, Truth.mk.injEq]
  constructor
  · rintro ⟨stored, -⟩
    by_cases zero : n = 0
    · exact .inl zero
    · rw [if_neg zero] at stored
      omega
  · rintro (rfl | one)
    · simp
    · have nonzero : n ≠ 0 := by
        rintro rfl
        simp at one
      simp [one, nonzero]

/-- A word that is the lowest bits of a number. -/
theorem lowest_of_word {width : Nat} {n : Int} {word : UInt64}
    (low : (word.toNat : Int) = n % 2 ^ width) : ⟨word.toNat, word != 0⟩ = lowest width n := by
  have zero : (word != 0) = (n % 2 ^ width != 0) := by
    rw [Bool.eq_iff_iff, bne_iff_ne, bne_iff_ne, ne_eq, ne_eq, ← UInt64.toNat_inj,
      UInt64.toNat_zero]
    omega
  rw [lowest, ← low, Int.toNat_natCast, low, zero]

/-- The truth value of a word that is 1 or 0. -/
theorem of_word {n : Int} {bits : UInt64} (zero : bits = 0 ↔ n = 0) :
    let word : UInt64 := if bits = 0 then 0 else 1
    ⟨word.toNat, word != 0⟩ = of n := by
  by_cases clear : bits = 0
  · simp [of, clear, zero.mp clear]
  · simp [of, clear, mt zero.mpr clear]

/-- Where a truth value is stored: at a spot, in a bit-field there, or in the result of a callback.
-/
inductive Destination where
  | memory (spot : Spot)
  | field (spot : Spot) (slot : BitSlot)
  | result

namespace Destination

/-- Storing a value as a truth value succeeds and leaves this. -/
def Leaves (heap : Heap) (value : Value) (truth : Truth) : Destination → Prop
  | memory spot => ∃ after, spot.view.write .bool spot.offset value heap = (.ok (), after)
    ∧ (after.memory.loadWord spot.address 1).toNat = truth.stored
    ∧ spot.Reads after .bool (.bool truth.back)
  | field spot slot => ∃ after,
    spot.view.writeBits .bool spot.offset slot value heap = (.ok (), after)
    ∧ (Bits.extract (after.memory.loadWord spot.address 1) slot.offset slot.width).toNat
        = truth.stored
    ∧ spot.view.readBits after .bool spot.offset slot = .ok (.bool truth.back)
  | result => ∃ bytes, Trampoline.encodeResult .bool value heap = (.ok (bytes, none), heap)
    ∧ (Bytes.toWord bytes).toNat = truth.stored
    ∧ Value.decodeResult .bool bytes heap = (.ok (.bool truth.back), heap)

/-- What is left at a destination is one truth value. -/
theorem Leaves.unique {heap : Heap} {value : Value} {truth other : Truth} :
    ∀ {destination : Destination}, destination.Leaves heap value truth →
      destination.Leaves heap value other → truth = other
  | memory _, ⟨_, ran, stored, read⟩, ⟨_, again, stored', read'⟩ => by
    cases ran.symm.trans again
    have back := Value.bool.inj (Except.ok.inj (read.symm.trans read'))
    exact Truth.ext (stored.symm.trans stored') back
  | field _ _, ⟨_, ran, stored, read⟩, ⟨_, again, stored', read'⟩ => by
    cases ran.symm.trans again
    have back := Value.bool.inj (Except.ok.inj (read.symm.trans read'))
    exact Truth.ext (stored.symm.trans stored') back
  | result, ⟨_, ran, stored, read⟩, ⟨_, again, stored', read'⟩ => by
    cases ran.symm.trans again
    have back := Value.bool.inj (Except.ok.inj (congrArg Prod.fst (read.symm.trans read')))
    exact Truth.ext (stored.symm.trans stored') back

end Destination

variable {heap : Heap} {value : Value} {n : Int} {byte : UInt64} {spot : Spot} {slot : BitSlot}

/-- The byte of an instance that is a truth value itself. -/
def copied? (heap : Heap) : Value → Option UInt64
  | .object x => if x.type == .bool then (x.bytes heap).toOption.map Bytes.toWord else none
  | _ => none

/-- What memory takes of a number. -/
def inMemory (heap : Heap) (value : Value) (n : Int) : Truth :=
  match copied? heap value with
  | some byte => ⟨byte.toNat, n != 0⟩
  | none => of n

theorem copied?_eq_some : copied? heap value = some byte ↔ ∃ x bytes, value = .object x
    ∧ (x.type == .bool) = true ∧ x.bytes heap = .ok bytes ∧ Bytes.toWord bytes = byte := by
  constructor
  · intro copied
    unfold copied? at copied
    split at copied
    case h_1 x =>
      obtain ⟨same, copied⟩ := Option.ite_none_right_eq_some.mp copied
      cases own : x.bytes heap with
      | ok bytes => exact ⟨x, bytes, rfl, same, own, by simpa [own, Except.toOption] using copied⟩
      | error failure => simp [own, Except.toOption] at copied
    case h_2 => cases copied
  · rintro ⟨x, bytes, rfl, same, own, rfl⟩
    simp [copied?, same, own, Except.toOption]

/-- The byte that is copied is zero only for zero. -/
theorem zero_of_copied (number : heap.Number value n) (copied : copied? heap value = some byte) :
    byte = 0 ↔ n = 0 := by
  obtain ⟨x, bytes, rfl, same, own, rfl⟩ := copied?_eq_some.mp copied
  obtain ⟨reads, -, numeric⟩ := Value.ofWord_congr same rfl
  have read := Instance.value_of_bytes numeric own
  obtain ⟨plain, gives, is⟩ := number
  cases gives with
  | itself => cases is
  | held scalar again =>
    rw [read, reads] at again
    cases again
    cases is
    by_cases zero : Bytes.toWord bytes = 0 <;> simp [zero]

theorem inMemory_eq_of_iff (number : heap.Number value n) :
    inMemory heap value n = of n ↔ ∀ byte, copied? heap value = some byte → byte ≤ 1 := by
  unfold inMemory
  cases copied : copied? heap value with
  | none => simp
  | some byte =>
    have zero : byte.toNat = 0 ↔ n = 0 := by
      rw [← zero_of_copied number copied, ← UInt64.toNat_inj, UInt64.toNat_zero]
    simp only [of, Truth.mk.injEq, and_true, Option.some.injEq, forall_eq', UInt64.le_iff_toNat_le,
      UInt64.toNat_one]
    by_cases clear : n = 0
    · rw [if_pos clear]
      omega
    · rw [if_neg clear]
      omega

theorem leaves_memory (holds : spot.Holds 1) (number : heap.Number value n) :
    (Destination.memory spot).Leaves heap value (inMemory heap value n) := by
  obtain ⟨bits, found, -, zero⟩ := Heap.exists_integerBits number .bool
  rcases View.write_integral (show CType.bool.isIntegral = true from rfl) rfl holds found with
    ⟨x, bytes, after, rfl, same, own, ran, stored⟩ | ⟨other, ran⟩
  · -- An instance of the type is copied, and the byte of the copy is that of the instance.
    have size : bytes.length = 1 := (View.length_bytes own).trans (CType.size_eq_of_same same)
    have loaded : after.memory.loadWord spot.address 1 = Bytes.toWord bytes :=
      stored ▸ Memory.loadWord_store _ _ size
    have copied : copied? heap (.object x) = some (Bytes.toWord bytes) :=
      copied?_eq_some.mpr ⟨x, bytes, rfl, same, own, rfl⟩
    have read : (Bytes.toWord bytes != 0) = (n != 0) := by
      rw [Bool.eq_iff_iff, bne_iff_ne, bne_iff_ne]
      exact not_congr (zero_of_copied number copied)
    rw [inMemory, copied]
    exact ⟨after, ran, congrArg UInt64.toNat loaded,
      (Spot.reads_bool holds).mpr (by rw [loaded, read])⟩
  · have copied : copied? heap value = none := by
      refine Option.eq_none_iff_forall_ne_some.mpr fun byte copied => ?_
      obtain ⟨x, _, object, same, -⟩ := copied?_eq_some.mp copied
      cases same.symm.trans (other x object)
    have loaded := Value.loadWord_storeTruth heap.memory spot.address bits
    rw [inMemory, copied, ← of_word zero, ← loaded]
    exact ⟨_, ran, rfl, (Spot.reads_bool holds).mpr rfl⟩

theorem leaves_field (holds : spot.Holds 1) (positive : 0 < slot.width)
    (fits : slot.offset + slot.width ≤ 8) (number : heap.Number value n) :
    (Destination.field spot slot).Leaves heap value (lowest slot.width n) := by
  obtain ⟨bits, found, word, -⟩ := Heap.exists_integerBits number .bool
  have field := View.extract_refield heap.memory spot.address (show 1 ≤ 8 by decide) positive fits
    bits
  rw [← lowest_of_word (Bits.toNat_and_mask_of_emod word (show slot.width ≤ 64 by omega)), ← field]
  exact ⟨_, Spot.writeBits_of_le holds.inside (by omega) found, rfl,
    Spot.readBits_of_le holds.inside (by omega)⟩

theorem leaves_result (number : heap.Number value n) :
    Destination.result.Leaves heap value (lowest 8 n) := by
  obtain ⟨bits, found, word, -⟩ := Heap.exists_integerBits number .bool
  have ran := Trampoline.encodeResult_narrow (show CType.bool.isIntegral = true from rfl)
    (by decide) value heap
  rw [found] at ran
  let low := bits &&& Bits.mask 8
  have whole : Bytes.toWord (Bytes.ofWord 8 low) = low :=
    Bytes.toWord_ofWord fun i beyond => Bits.bit_of_ge _ beyond
  -- The function that called reads the lowest byte, and there are no others.
  have first : Bytes.toWord (Bytes.ofWord 1 low) = low := by
    refine Bytes.toWord_ofWord fun i beyond => ?_
    rw [Bits.bit_and]
    by_cases inside : i < 64
    · rw [Bits.bit_mask 8 inside, decide_eq_false (by omega), Bool.and_false]
    · rw [Bits.bit_of_ge bits (by omega), Bool.false_and]
  have read : Value.decodeResult .bool (Bytes.ofWord 8 low) heap
      = (.ok (.bool (low != 0)), heap) := by
    show (Except.ok (Value.bool (Bytes.toWord (Bytes.ofWord 1 low) != 0)), heap) = _
    rw [first]
  rw [← lowest_of_word (Bits.toNat_and_mask_of_emod word (show 8 ≤ 64 by decide))]
  exact ⟨_, ran, congrArg UInt64.toNat whole, read⟩

/-- What a number leaves where it is stored as a truth value, and where that is what C makes of it.
-/
theorem leaves_of_number (number : heap.Number value n) :
    (∀ spot, spot.Holds 1 →
        (Destination.memory spot).Leaves heap value (inMemory heap value n)
          ∧ ((Destination.memory spot).Leaves heap value (of n)
            ↔ ∀ byte, copied? heap value = some byte → byte ≤ 1))
      ∧ (∀ spot slot, spot.Holds 1 → 0 < slot.width → slot.offset + slot.width ≤ 8 →
        (Destination.field spot slot).Leaves heap value (lowest slot.width n)
          ∧ ((Destination.field spot slot).Leaves heap value (of n)
            ↔ n = 0 ∨ n % 2 ^ slot.width = 1))
      ∧ (n = 0 ∨ n % 2 ^ 8 = 1 → Destination.result.Leaves heap value (of n))
      ∧ (n % 2 ^ 8 ≠ 0 → ∃ stored, Destination.result.Leaves heap value ⟨stored, n != 0⟩) := by
  -- Two truth values that are left are one, so what is left is `of n` only if it equals it.
  have left {destination : Destination} {truth : Truth}
      (leaves : destination.Leaves heap value truth) :
      destination.Leaves heap value (of n) ↔ truth = of n :=
    ⟨leaves.unique, fun same => same ▸ leaves⟩
  have result := leaves_result number
  refine ⟨fun spot holds => ?_, fun spot slot holds positive fits => ?_, fun plain => ?_,
    fun odd => ?_⟩
  · have leaves := leaves_memory holds number
    exact ⟨leaves, (left leaves).trans (inMemory_eq_of_iff number)⟩
  · have leaves := leaves_field holds positive fits number
    exact ⟨leaves, (left leaves).trans (lowest_eq_of_iff positive n)⟩
  · exact (left result).mpr ((lowest_eq_of_iff (by decide) n).mpr plain)
  · have nonzero : n ≠ 0 := by
      rintro rfl
      exact odd rfl
    have back : (n % 2 ^ 8 != 0) = (n != 0) := by
      rw [bne_iff_ne.mpr odd, bne_iff_ne.mpr nonzero]
    rw [lowest, back] at result
    exact ⟨_, result⟩

/-- A negative number with a 1 in its lowest byte is true wherever it is stored. -/
theorem leaves_of_number_negative :
    let spot : Spot := ⟨⟨⟨0, 0x10000000000, 4, false⟩, 0, 4⟩, 2⟩
    Heap.Number .empty (.int (-255)) (-255)
      ∧ (Destination.memory spot).Leaves .empty (.int (-255)) ⟨1, true⟩
      ∧ (Destination.field spot ⟨3, 2⟩).Leaves .empty (.int (-255)) ⟨1, true⟩
      ∧ Destination.result.Leaves .empty (.int (-255)) ⟨1, true⟩ := by
  intro spot
  have number : Heap.Number .empty (.int (-255)) (-255) := ⟨_, .itself _, rfl⟩
  have holds : spot.Holds 1 := ⟨by decide⟩
  obtain ⟨memory, field, result, -⟩ := leaves_of_number number
  exact ⟨number, (memory spot holds).1,
    (field spot ⟨3, 2⟩ holds (by decide) (by decide)).2.mpr (.inr (by decide)),
    result (.inr (by decide))⟩

/-- Two is false in a bit-field of one bit, and a byte 2 that is a truth value stays 2 in a copy. -/
theorem two_left :
    let block : Block := ⟨0, 0x10000000000, 2, false⟩
    let heap : Heap := { Heap.empty with memory := Memory.blank.store block.base [2] }
    let spot : Spot := ⟨⟨block, 0, 2⟩, 1⟩
    let x : Instance := ⟨.bool, block, 0⟩
    spot.Holds 1 ∧ x.Inside
      ∧ heap.Number (.uint 2) 2 ∧ ¬ (Destination.field spot ⟨0, 1⟩).Leaves heap (.uint 2) (of 2)
      ∧ heap.Number (.object x) 1 ∧ ¬ (Destination.memory spot).Leaves heap (.object x) (of 1) := by
  intro block heap spot x
  have holds : spot.Holds 1 := ⟨by decide⟩
  have two : heap.Number (.uint 2) 2 := ⟨_, .itself _, rfl⟩
  have inside : x.Inside := Nat.le_add_right 1 1
  have byte : heap.memory.load block.base 1 = [2] := by decide
  have own : x.bytes heap = .ok [2] :=
    (Instance.bytes_of_inside inside heap).trans (congrArg _ byte)
  have one : heap.Number (.object x) 1 :=
    ⟨.bool true, .held rfl (Instance.value_of_bytes rfl own), rfl⟩
  have field : (Destination.field spot ⟨0, 1⟩).Leaves heap (.uint 2) (lowest 1 2) :=
    leaves_field holds (by decide) (by decide) two
  have copied : copied? heap (.object x) = some 2 :=
    copied?_eq_some.mpr ⟨x, [2], rfl, rfl, own, rfl⟩
  have more (leaves : (Destination.memory spot).Leaves heap (.object x) (of 1)) : False := by
    have same := (leaves_memory holds one).unique leaves
    exact absurd ((inMemory_eq_of_iff one).mp same 2 copied) (by decide)
  exact ⟨holds, inside, two, fun leaves => absurd (field.unique leaves) (by decide), one, more⟩

end Truth

end CInterop
