import CInterop.Proofs.View.Integers

/-!
# Bit-fields hold residues

A number that is stored in a bit-field of `width` bits is read as its residue modulo `2 ^ width`, in
two's complement if the type is signed. The bits beside the field stay as they were, those of the
storage unit and those of all other bytes (`View.readBits_writeBits`).
-/

namespace CInterop.View

open HeapM

variable {view : View} {type : CType} {offset : Nat} {slot : BitSlot} {heap : Heap} {value : Value}
  {bits : UInt64}

/-- The memory in which a field of the storage unit at an address has new bits. -/
def refield (memory : Memory) (address size : Nat) (slot : BitSlot) (bits : UInt64) : Memory :=
  memory.storeWord address size
    (Bits.replace (memory.loadWord address size) slot.offset slot.width bits)

/-- A field holds as many of the bits that were stored in it as it has. -/
theorem extract_refield (memory : Memory) (address : Nat) {size : Nat} (small : size ≤ 8)
    (positive : 0 < slot.width) (fits : slot.offset + slot.width ≤ 8 * size) (bits : UInt64) :
    Bits.extract ((refield memory address size slot bits).loadWord address size) slot.offset
      slot.width = bits &&& Bits.mask slot.width := by
  apply Bits.eq_of_bit
  intro i inside
  rw [Bits.bit_extract _ (by omega) _ inside, Bits.bit_and, Bits.bit_mask _ inside]
  by_cases below : i < slot.width
  · rw [Memory.bit_loadWord _ _ (by omega) small, refield,
      Spot.bit_replaceField memory address _ bits small (by omega), if_pos (by omega),
      show 8 * address + (slot.offset + i) - (8 * address + slot.offset) = i by omega,
      decide_eq_true below, Bool.true_and, Bool.and_true]
  · rw [decide_eq_false below, Bool.false_and, Bool.and_false]

/-- What is stored in a bit-field is read as its residue, and nothing beside the field changes. -/
theorem readBits_writeBits {name : String} {width : Width} {signed : Bool} {align : Nat} {n : Int}
    (number : heap.Number value n) (positive : 0 < slot.width)
    (fits : slot.offset + slot.width ≤ 8 * width.bytes)
    (inside : offset + width.bytes ≤ view.length) :
    let type := CType.int name width signed align
    let address := view.place offset
    ∃ memory result, view.writeBits type offset slot value heap = (.ok (), { heap with memory })
      ∧ view.readBits { heap with memory } type offset slot = .ok result
      ∧ Value.Residue slot.width n signed result
      ∧ (∀ i, i < 8 * address + slot.offset ∨ 8 * address + slot.offset + slot.width ≤ i →
          memory.bit i = heap.memory.bit i)
      ∧ ∀ other, other < address ∨ address + width.bytes ≤ other →
          memory.byte other = heap.memory.byte other := by
  intro type address
  have small := width.bytes_le
  obtain ⟨bits, found, word, -⟩ := Heap.exists_integerBits number type
  let memory := refield heap.memory address width.bytes slot bits
  have field := extract_refield heap.memory address small positive fits bits
  have same : Spot.fieldValue type (bits &&& Bits.mask slot.width) slot.width
      = .ofBits bits slot.width signed :=
    Value.ofBits_congr positive (by omega) signed (Bits.agree_and_mask bits (by omega))
  have unit : Bits.unitBytes type.size = width.bytes := (Spot.unitBytes_size rfl rfl).1
  have written : view.writeBits type offset slot value heap = _ :=
    Spot.writeBits_of_le inside (by omega) found
  have read : view.readBits { heap with memory } type offset slot = _ :=
    Spot.readBits_of_le inside (by omega)
  rw [unit] at written read
  refine ⟨memory, _, written, read, ?_, ?_, ?_⟩
  · show Value.Residue slot.width n signed (Spot.fieldValue type (Bits.extract
      (memory.loadWord address width.bytes) slot.offset slot.width) slot.width)
    rw [field, same]
    exact Value.residue_ofBits word positive (by omega) signed
  · intro i beside
    have near : slot.offset < 64 := by omega
    exact (Spot.bit_replaceField heap.memory address slot.width bits small near i).trans
      (if_neg (by omega))
  · intro other beside
    refine Memory.byte_store_of_outside _ ?_
    rwa [Bytes.length_ofWord]

/-- Twelve in the three highest bits of a unit of ones, of which the sign is kept. -/
theorem readBits_writeBits_signed :
    let view : View := ⟨⟨0, 0x10000000000, 4, false⟩, 0, 4⟩
    let type := CType.natural "int32" .w32 true
    let heap : Heap := { Heap.empty with memory := Memory.blank.fill 0x10000000000 4 0xFF }
    heap.Number (.uint 12) 12
      ∧ ∃ memory, view.writeBits type 0 ⟨29, 3⟩ (.uint 12) heap = (.ok (), { heap with memory })
        ∧ view.readBits { heap with memory } type 0 ⟨29, 3⟩ = .ok (.int (-4))
        ∧ ∀ i, 0x80000000000 ≤ i → i < 0x80000000000 + 29 → memory.bit i = heap.memory.bit i := by
  intro view type heap
  have number : heap.Number (.uint 12) 12 := ⟨.uint 12, .itself _, rfl⟩
  obtain ⟨memory, result, written, read, residue, beside, -⟩ :=
    @readBits_writeBits view 0 ⟨29, 3⟩ heap (.uint 12) "int32" .w32 true 4 12 number (by decide)
      (by decide) (by decide)
  obtain ⟨i, rfl, balanced⟩ : ∃ i : Int64, result = .int i ∧ i.toInt = Int.bmod 12 (2 ^ 3) := by
    cases residue with
    | signed balanced => exact ⟨_, rfl, balanced⟩
  have last : i = -4 := Int64.toInt_inj.mp (balanced.trans (by decide))
  have base : view.place 0 = 0x10000000000 := rfl
  refine ⟨number, memory, written, last ▸ read, fun i _ below => beside i (.inl ?_)⟩
  rw [base]
  exact below

end CInterop.View
