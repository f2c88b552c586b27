import CInterop.CString
import CInterop.Proofs.Heap.Run
import CInterop.Proofs.Text.RoundTrip

/-!
# Text that was stored

Text that is stored for an address is found there by a reader, until its bytes are overwritten. The
reader stops at the first zero: narrow text has none, since storing one is refused, and wide text
is found up to it.
-/

namespace CInterop

namespace Memory

variable {memory : Memory} {limit address : Nat}

theorem load_succ (memory : Memory) (address count : Nat) :
    memory.load address (count + 1) = memory.byte address :: memory.load (address + 1) count := by
  rw [Nat.add_comm, load_add]
  rfl

/-- Storing changes nothing that is loaded from behind it. -/
theorem load_store_of_behind (memory : Memory) {start place : Nat} {bytes : Bytes}
    (behind : start + bytes.length ≤ place) (count : Nat) :
    (memory.store start bytes).load place count = memory.load place count := by
  simp only [load]
  refine List.map_congr_left fun i _ => ?_
  exact byte_store_of_outside memory (.inr (by omega))

theorem untilZero_of_load {bytes : Bytes} (solid : 0 ∉ bytes) (enough : bytes.length ≤ limit)
    (held : memory.load address (bytes.length + 1) = bytes ++ [0]) :
    memory.untilZero limit address = bytes := by
  induction bytes generalizing limit address with
  | nil =>
    cases limit with
    | zero => rfl
    | succ limit =>
      have zero : memory.byte address = 0 := (List.cons_eq_cons.mp held).1
      rw [untilZero, if_pos zero]
  | cons byte rest ih =>
    obtain ⟨first, others⟩ := List.cons_eq_cons.mp ((load_succ ..).symm.trans held)
    obtain ⟨limit, rfl⟩ : ∃ n, limit = n + 1 := ⟨limit - 1, by simp at enough; omega⟩
    have nonzero : byte ≠ 0 := fun zero => solid (zero ▸ List.mem_cons_self)
    have later : 0 ∉ rest := fun mem => solid (List.mem_cons_of_mem _ mem)
    rw [untilZero, first, if_neg nonzero, ih later (Nat.le_of_succ_le_succ enough) others]

end Memory

theorem Bytes.toWord_eq_zero {bytes : Bytes} (zeros : bytes.all (· == 0) = true) :
    bytes.toWord = 0 := by
  induction bytes with
  | nil => rfl
  | cons byte rest ih =>
    simp only [List.all_cons, Bool.and_eq_true, beq_iff_eq] at zeros
    rw [toWord, zeros.1, ih zeros.2]
    rfl

namespace Text.Wide

theorem all_unitBytes {size unit : Nat} (word : size = 2 ∨ size = 4)
    (fits : unit < 2 ^ (8 * size)) : (unitBytes size unit).all (· == 0) = true ↔ unit = 0 := by
  constructor
  · intro zeros
    rw [← toWord_unitBytes word fits, Bytes.toWord_eq_zero zeros]
    rfl
  · rintro rfl
    rcases word with rfl | rfl <;> decide

theorem length_flatMap {size : Nat} (word : size = 2 ∨ size = 4) (chosen : List Nat) :
    (chosen.flatMap (unitBytes size)).length = size * chosen.length := by
  induction chosen with
  | nil => rfl
  | cons unit rest ih =>
    rw [List.flatMap_cons, List.length_append, ih, length_unitBytes word, List.length_cons,
      Nat.mul_add, Nat.mul_one, Nat.add_comm]

theorem length_encode {size : Nat} (word : size = 2 ∨ size = 4) (text : String) :
    (encode size text).length = size * ((units size text).length + 1) := by
  rw [encode, length_flatMap word, List.length_append, List.length_singleton]

end Text.Wide

namespace Memory

open Text.Wide in
theorem untilZeroUnit_of_load {memory : Memory} {limit address size : Nat} {units : List Nat}
    (word : size = 2 ∨ size = 4) (fits : ∀ unit ∈ units, unit < 2 ^ (8 * size))
    (enough : units.length ≤ limit)
    (held : memory.load address (size * (units.length + 1))
      = (units ++ [0]).flatMap (unitBytes size)) :
    memory.untilZeroUnit size limit address
      = (units.takeWhile (· != 0)).flatMap (unitBytes size) := by
  induction units generalizing limit address with
  | nil =>
    cases limit with
    | zero => rfl
    | succ limit =>
      have zero : memory.load address size = unitBytes size 0 := by simpa using held
      rw [untilZeroUnit, zero, if_pos ((all_unitBytes word (Nat.two_pow_pos _)).mpr rfl)]
      rfl
  | cons unit rest ih =>
    obtain ⟨limit, rfl⟩ : ∃ n, limit = n + 1 := ⟨limit - 1, by simp at enough; omega⟩
    rw [List.length_cons, Nat.mul_add, Nat.mul_one, Nat.add_comm, load_add] at held
    obtain ⟨first, others⟩ := List.append_inj held (by simp [length_unitBytes word])
    have own := fits unit List.mem_cons_self
    have tail := ih (fun other later => fits other (List.mem_cons_of_mem _ later))
      (Nat.le_of_succ_le_succ enough) others
    rw [untilZeroUnit, first]
    by_cases zero : unit = 0
    · subst zero
      rw [if_pos ((all_unitBytes word own).mpr rfl)]
      rfl
    · rw [if_neg (mt (all_unitBytes word own).mp zero), tail]
      simp [zero]

end Memory

/-- The sizes of the units that wide text is encoded in. -/
def Text.Wide.IsUnit (unit : Nat) : Prop := unit = 2 ∨ unit = 4

theorem Text.Wide.IsUnit.pos {unit : Nat} (wide : IsUnit unit) : 0 < unit := by
  rcases wide with rfl | rfl <;> decide

namespace Heap

variable {heap other after : Heap} {address : UInt64} {item : Kept} {text : String} {unit : Nat}

/-- A text in some encoding lies at an address, ahead of the frontier. -/
structure Holds (heap : Heap) (address : UInt64) (bytes : Bytes) : Prop where
  stored : heap.memory.load address.toNat bytes.length = bytes
  inside : address.toNat + bytes.length ≤ heap.frontier

/-- What lies at an address stays there when something is stored before it. -/
theorem Holds.store {bytes : Bytes} (holds : heap.Holds address bytes) {start : Nat}
    {earlier : Bytes} (before : start + earlier.length ≤ address.toNat)
    (memory : other.memory = heap.memory.store start earlier)
    (frontier : other.frontier = heap.frontier) : other.Holds address bytes := by
  refine ⟨?_, frontier ▸ holds.inside⟩
  rw [memory, Memory.load_store_of_behind _ before, holds.stored]

theorem Holds.textAt (holds : heap.Holds address (Text.Utf8.encode text ++ [0]))
    (solid : 0 ∉ Text.Utf8.encode text) : heap.textAt address = Text.Utf8.encode text := by
  have stored := holds.stored
  have inside := holds.inside
  rw [List.length_append, List.length_singleton] at stored inside
  exact Memory.untilZero_of_load solid (by omega) stored

/-- A reader of wide text stops at the first zero unit. -/
theorem Holds.wideTextAt_eq (wide : Text.Wide.IsUnit unit)
    (holds : heap.Holds address (Text.Wide.encode unit text)) :
    heap.wideTextAt unit address = ((Text.Wide.units unit text).takeWhile (· != 0)).flatMap
      (Text.Wide.unitBytes unit) := by
  have word := wide
  have positive := wide.pos
  have stored := holds.stored
  have inside := holds.inside
  rw [Text.Wide.length_encode word] at stored inside
  have each := Nat.le_mul_of_pos_left ((Text.Wide.units unit text).length + 1) positive
  exact Memory.untilZeroUnit_of_load word (Text.Wide.units_fit word text) (by omega) stored

theorem Holds.wideTextAt (wide : Text.Wide.IsUnit unit)
    (holds : heap.Holds address (Text.Wide.encode unit text)) :
    Text.Wide.decode unit (heap.wideTextAt unit address) = Text.Wide.beforeNul text := by
  rw [holds.wideTextAt_eq wide, Text.Wide.decode_units wide]

theorem holds_fresh (base : Nat) (bytes : Bytes)
    (memory : after.memory = heap.memory.store base bytes)
    (ahead : base + bytes.length < after.frontier) (words : after.frontier ≤ Word.modulus) :
    (UInt64.ofNat base).toNat = base ∧ after.Holds (.ofNat base) bytes := by
  have small : base < UInt64.size := by
    have same : UInt64.size = Word.modulus := rfl
    omega
  have address : (UInt64.ofNat base).toNat = base := UInt64.toNat_ofNat_of_lt' small
  refine ⟨address, ?_, by omega⟩
  rw [address, memory, Memory.load_store]

theorem storeText_run (solid : 0 ∉ Text.Utf8.encode text) (heap : Heap) :
    storeText text heap
      = (.ok (.ofNat heap.frontier, .text heap.frontier (Text.Utf8.encode text).length),
        { (reserve ((Text.Utf8.encode text).length + 1) heap).2 with
          memory := heap.memory.store heap.frontier (Text.Utf8.encode text ++ [0]) }) := by
  have none : (Text.Utf8.encode text).findIdx? (· == 0) = none := by
    rw [List.findIdx?_eq_none_iff]
    intro byte mem
    exact beq_eq_false_iff_ne.mpr fun zero => solid (zero ▸ mem)
  unfold storeText
  simp only [none]
  rfl

theorem storeWide_run (heap : Heap)
    (fits : (Text.Wide.encode unit text).length ≤ largestBlock) :
    let bytes := Text.Wide.encode unit text
    storeWide unit text heap
      = (.ok (.ofNat heap.frontier, .block ⟨heap.nextId, heap.frontier, bytes.length, false⟩),
        { (reserve bytes.length heap).2 with
          nextId := heap.nextId + 1, memory := heap.memory.store heap.frontier bytes }) := by
  intro bytes
  unfold storeWide
  dsimp only
  rw [HeapM.bind_of_ok (allocate_run heap fits)]
  rfl

/-- A narrow text is stored as fresh memory, unless it holds a zero byte. -/
theorem storeText_eq_ok (ran : storeText text heap = (.ok (address, item), after))
    (words : after.frontier ≤ Word.modulus) :
    address.toNat = heap.frontier ∧ 0 ∉ Text.Utf8.encode text
      ∧ after.Holds address (Text.Utf8.encode text ++ [0]) := by
  have solid : 0 ∉ Text.Utf8.encode text := by
    unfold storeText at ran
    cases found : (Text.Utf8.encode text).findIdx? (· == 0) with
    | some position =>
      simp only [found] at ran
      cases ran
    | none =>
      intro mem
      have none := List.findIdx?_eq_none_iff.mp found 0 mem
      simp at none
  rw [storeText_run solid] at ran
  cases ran
  have ahead := frontier_reserve ((Text.Utf8.encode text).length + 1) heap
  obtain ⟨same, holds⟩ := holds_fresh heap.frontier (Text.Utf8.encode text ++ [0]) rfl
    (by rw [List.length_append, List.length_singleton]; exact ahead) words
  exact ⟨same, solid, holds⟩

theorem storeWide_eq_ok (ran : storeWide unit text heap = (.ok (address, item), after))
    (words : after.frontier ≤ Word.modulus) :
    address.toNat = heap.frontier
      ∧ after.Holds address (Text.Wide.encode unit text) := by
  obtain ⟨block, middle, allocated, _⟩ := HeapM.bind_eq_ok.mp ran
  rw [storeWide_run heap (le_of_allocate_eq_ok allocated)] at ran
  cases ran
  exact holds_fresh _ _ rfl (frontier_reserve _ heap) words

end Heap

end CInterop
