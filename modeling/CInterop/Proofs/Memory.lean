import CInterop.Proofs.Bits

/-!
# Memory bit by bit

Memory is a sequence of bits, each byte with its lowest bit first. Loading a word reads consecutive
bits, storing one changes them and no others.
-/

namespace CInterop

namespace Bytes

/-- A bit of some bytes; behind the last byte there are none. -/
def bit (bytes : Bytes) (i : Nat) : Bool :=
  match bytes[i / 8]? with
  | some byte => byte.toBitVec.getLsbD (i % 8)
  | none => false

theorem bit_cons (byte : UInt8) (rest : Bytes) (i : Nat) :
    bit (byte :: rest) i = if i < 8 then byte.toBitVec.getLsbD i else bit rest (i - 8) := by
  by_cases low : i < 8
  · rw [if_pos low, bit, Nat.div_eq_of_lt low, Nat.mod_eq_of_lt low]
    rfl
  · rw [if_neg low, bit, show i / 8 = (i - 8) / 8 + 1 by omega,
      show i % 8 = (i - 8) % 8 by omega]
    rfl

theorem bit_toWord (bytes : Bytes) {i : Nat} (inside : i < 64) :
    Bits.bit (toWord bytes) i = bit bytes i := by
  induction bytes generalizing i with
  | nil => simp [toWord, Bits.bit, bit]
  | cons byte rest ih =>
    have shifted : Bits.bit (toWord rest <<< 8) i
        = (decide (i < 64) && decide (8 ≤ i) && Bits.bit (toWord rest) (i - 8)) :=
      Bits.bit_shiftLeft (toWord rest) (by decide : 8 < 64) i
    have low : Bits.bit byte.toUInt64 i = byte.toBitVec.getLsbD i := by
      simp [Bits.bit, inside]
    rw [toWord, Bits.bit_or, shifted, low, bit_cons]
    by_cases first : i < 8
    · simp [first, Nat.not_le.mpr first]
    · simp [first, Nat.not_lt.mp first, inside, ih (show i - 8 < 64 by omega)]

theorem bit_ofWord (count : Nat) (word : UInt64) {i : Nat} (inside : i < 8 * count) :
    bit (ofWord count word) i = Bits.bit word i := by
  induction count generalizing word i with
  | zero => omega
  | succ count ih =>
    rw [ofWord, bit_cons]
    split
    · rename_i low
      simp [Bits.bit, low]
    · rename_i high
      rw [ih _ (by omega)]
      have shifted := Bits.bit_shiftRight word (by decide : 8 < 64) (i - 8)
      rw [show 8 + (i - 8) = i by omega] at shifted
      exact shifted

/-- The first bytes spell the lowest bits. -/
theorem agree_take (bytes : Bytes) {count : Nat} (small : count ≤ 8) :
    Bits.Agree (8 * count) (toWord (bytes.take count)) (toWord bytes) := by
  intro i below
  rw [bit_toWord _ (by omega), bit_toWord _ (by omega), bit, bit,
    List.getElem?_take_of_lt (by omega)]

/-- A word that fits some bytes is spelled by them. -/
theorem toWord_ofWord {count : Nat} {word : UInt64}
    (fits : ∀ i, 8 * count ≤ i → Bits.bit word i = false) : toWord (ofWord count word) = word := by
  apply Bits.eq_of_bit
  intro i inside
  rw [bit_toWord _ inside]
  by_cases low : i < 8 * count
  · exact bit_ofWord count word low
  · rw [fits i (Nat.not_lt.mp low), bit, List.getElem?_eq_none (by rw [length_ofWord]; omega)]

end Bytes

namespace Memory

/-- A bit of the memory: bit `8 * a` is the lowest bit of the byte behind address `a`. -/
def bit (memory : Memory) (i : Nat) : Bool := (memory.byte (i / 8)).toBitVec.getLsbD (i % 8)

theorem load_add (memory : Memory) (address count more : Nat) :
    memory.load address (count + more)
      = memory.load address count ++ memory.load (address + count) more := by
  simp [load, List.range_add, Nat.add_assoc]

theorem loadWord_store (memory : Memory) (address : Nat) {bytes : Bytes} {count : Nat}
    (length : bytes.length = count) :
    (memory.store address bytes).loadWord address count = Bytes.toWord bytes := by
  subst length
  exact congrArg Bytes.toWord (memory.load_store address bytes)

theorem take_load (memory : Memory) (address : Nat) {count total : Nat} (inside : count ≤ total) :
    (memory.load address total).take count = memory.load address count := by
  obtain ⟨more, rfl⟩ := Nat.exists_eq_add_of_le inside
  rw [load_add, List.take_left' (length_load ..)]

theorem bit_load (memory : Memory) (address : Nat) {count i : Nat} (inside : i < 8 * count) :
    Bytes.bit (memory.load address count) i = memory.bit (8 * address + i) := by
  unfold Bytes.bit bit
  rw [memory.getElem?_load (show i / 8 < count by omega)]
  simp only
  rw [show (8 * address + i) / 8 = address + i / 8 by omega,
    show (8 * address + i) % 8 = i % 8 by omega]

theorem bit_loadWord (memory : Memory) (address : Nat) {count i : Nat} (inside : i < 8 * count)
    (small : count ≤ 8) :
    Bits.bit (memory.loadWord address count) i = memory.bit (8 * address + i) := by
  rw [loadWord, Bytes.bit_toWord _ (by omega), bit_load memory address inside]

theorem bit_loadWord_beyond (memory : Memory) (address : Nat) {count i : Nat}
    (beyond : 8 * count ≤ i) : Bits.bit (memory.loadWord address count) i = false := by
  by_cases inside : i < 64
  · rw [loadWord, Bytes.bit_toWord _ inside, Bytes.bit]
    rw [List.getElem?_eq_none (by rw [length_load]; omega)]
  · exact Bits.bit_of_ge _ (Nat.not_lt.mp inside)

theorem bit_store (memory : Memory) (address : Nat) (bytes : Bytes) (i : Nat) :
    (memory.store address bytes).bit i =
      if 8 * address ≤ i ∧ i < 8 * (address + bytes.length) then bytes.bit (i - 8 * address)
      else memory.bit i := by
  unfold bit
  split
  · rename_i inside
    have below : (i - 8 * address) / 8 < bytes.length := by omega
    have stored : (memory.store address bytes).byte (address + (i - 8 * address) / 8) = _ :=
      memory.byte_store_of_inside below
    rw [show address + (i - 8 * address) / 8 = i / 8 by omega] at stored
    rw [stored, Bytes.bit, List.getElem?_eq_getElem below]
    simp only
    rw [show (i - 8 * address) % 8 = i % 8 by omega]
  · rename_i outside
    rw [byte_store_of_outside memory (by omega)]

theorem bit_storeWord (memory : Memory) (address count : Nat) (word : UInt64) (i : Nat) :
    (memory.storeWord address count word).bit i =
      if 8 * address ≤ i ∧ i < 8 * (address + count) then Bits.bit word (i - 8 * address)
      else memory.bit i := by
  rw [storeWord, bit_store, Bytes.length_ofWord]
  split
  · exact Bytes.bit_ofWord count word (by omega)
  · rfl

theorem loadWord_congr {memory other : Memory} {address place count : Nat} (small : count ≤ 8)
    (same : ∀ i < 8 * count, memory.bit (8 * address + i) = other.bit (8 * place + i)) :
    memory.loadWord address count = other.loadWord place count := by
  apply Bits.eq_of_bit
  intro i _
  by_cases inside : i < 8 * count
  · rw [bit_loadWord memory address inside small, bit_loadWord other place inside small,
      same i inside]
  · rw [bit_loadWord_beyond memory address (Nat.not_lt.mp inside),
      bit_loadWord_beyond other place (Nat.not_lt.mp inside)]

end Memory

end CInterop
