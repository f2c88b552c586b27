import CInterop.Proofs.Memory
import CInterop.Proofs.View.Effects

/-!
# Footprints

What an operation leaves alone: `HeapM.Touches` says that, whether it succeeds or fails, it changes
no bit of memory but some bits and those that it takes from the free addresses, and nothing of what
the blocks keep but for some blocks and for those that it makes.
-/

namespace CInterop

namespace Heap

variable {bits blocks : Nat → Prop} {heap middle after : Heap}

/-- A heap after changes to some bits, to what some blocks keep, and to memory that was free. -/
structure ChangedOnly (bits blocks : Nat → Prop) (heap after : Heap) : Prop where
  frontier : heap.frontier ≤ after.frontier
  nextId : heap.nextId ≤ after.nextId
  bit : ∀ i, ¬bits i → i < 8 * heap.frontier ∨ 8 * after.frontier ≤ i →
    after.memory.bit i = heap.memory.bit i
  kept : ∀ id < heap.nextId, ¬blocks id → after.kept id = heap.kept id

namespace ChangedOnly

theorem refl (heap : Heap) : ChangedOnly bits blocks heap heap :=
  ⟨Nat.le_refl _, Nat.le_refl _, fun _ _ _ => rfl, fun _ _ _ => rfl⟩

theorem trans (first : ChangedOnly bits blocks heap middle)
    (second : ChangedOnly bits blocks middle after) : ChangedOnly bits blocks heap after := by
  have grown := first.frontier
  have grown' := second.frontier
  refine ⟨by omega, Nat.le_trans first.nextId second.nextId, ?_, ?_⟩
  · intro i free taken
    rw [second.bit i free (by omega), first.bit i free (by omega)]
  · intro id known free
    rw [second.kept id (Nat.lt_of_lt_of_le known first.nextId) free, first.kept id known free]

theorem mono {more news : Nat → Prop} (changed : ChangedOnly bits blocks heap after)
    (wider : ∀ i, bits i → more i) (others : ∀ id, blocks id → news id) :
    ChangedOnly more news heap after :=
  ⟨changed.frontier, changed.nextId, fun i free => changed.bit i fun held => free (wider i held),
    fun id known free => changed.kept id known fun held => free (others id held)⟩

/-- What was free at first may have been changed afterwards. -/
theorem trans_fresh (first : ChangedOnly bits blocks heap middle)
    {more news : Nat → Prop} (second : ChangedOnly more news middle after)
    (fresh : ∀ i, more i → bits i ∨ 8 * heap.frontier ≤ i ∧ i < 8 * after.frontier)
    (made : ∀ id, news id → blocks id ∨ heap.nextId ≤ id) :
    ChangedOnly bits blocks heap after := by
  have grown := first.frontier
  have grown' := second.frontier
  refine ⟨by omega, Nat.le_trans first.nextId second.nextId, ?_, ?_⟩
  · intro i free taken
    have spared : ¬more i := fun touched => (fresh i touched).elim free (by omega)
    rw [second.bit i spared (by omega), first.bit i free (by omega)]
  · intro id known free
    have spared : ¬news id := fun touched => (made id touched).elim free (by omega)
    rw [second.kept id (Nat.lt_of_lt_of_le known first.nextId) spared, first.kept id known free]

theorem byte (changed : ChangedOnly bits blocks heap after) {address : Nat}
    (free : ∀ i < 8, ¬bits (8 * address + i))
    (taken : address < heap.frontier ∨ after.frontier ≤ address) :
    after.memory.byte address = heap.memory.byte address := by
  apply UInt8.eq_of_toBitVec_eq
  apply BitVec.eq_of_getLsbD_eq
  intro i below
  have same := changed.bit (8 * address + i) (free i below) (by omega)
  unfold Memory.bit at same
  rwa [show (8 * address + i) / 8 = address by omega, show (8 * address + i) % 8 = i by omega]
    at same

/-- Bytes that are not among those that changed are loaded as before. -/
theorem load_of_free (changed : ChangedOnly bits blocks heap after) {address count : Nat}
    (free : ∀ i, 8 * address ≤ i → i < 8 * (address + count) → ¬bits i)
    (taken : address + count ≤ heap.frontier ∨ after.frontier ≤ address) :
    after.memory.load address count = heap.memory.load address count := by
  refine List.map_congr_left fun i mem => ?_
  have below := List.mem_range.mp mem
  exact changed.byte (fun bit _ => free _ (by omega) (by omega)) (by omega)

/-- No bits, and no blocks. -/
def Nothing (_ : Nat) : Prop := False

theorem load (changed : ChangedOnly Nothing blocks heap after) {address count : Nat}
    (known : address + count ≤ heap.frontier) :
    after.memory.load address count = heap.memory.load address count :=
  changed.load_of_free (fun _ _ _ touched => touched) (.inl known)

end ChangedOnly

/-- What the blocks hold and keep alive that lie in memory that was handed out is as it was. -/
def Spares (heap after : Heap) : Prop :=
  ∀ block : Block, block.id < heap.nextId → block.base + block.length ≤ heap.frontier →
    after.memory.load block.base block.length = heap.memory.load block.base block.length
      ∧ after.keptBy block = heap.keptBy block

theorem ChangedOnly.spares
    (changed : ChangedOnly ChangedOnly.Nothing ChangedOnly.Nothing heap after) :
    heap.Spares after := fun block known below =>
  ⟨changed.load below, changed.kept block.id known id⟩

end Heap

namespace HeapM

open Heap

variable {α β : Type} {bits blocks : Nat → Prop}

/-- An operation changes no more than some bits, what some blocks keep, and free memory. -/
def Touches (bits blocks : Nat → Prop) (operation : HeapM α) : Prop :=
  ∀ heap, ChangedOnly bits blocks heap (operation heap).2

theorem Touches.changed {operation : HeapM α} (touches : Touches bits blocks operation)
    {heap after : Heap} {outcome : Except Failure α} (ran : operation heap = (outcome, after)) :
    ChangedOnly bits blocks heap after := by
  have changed := touches heap
  rwa [ran] at changed

theorem touches_of_quiet {operation : HeapM α} (quiet : Quiet operation) :
    Touches bits blocks operation := by
  intro heap
  rw [quiet heap]
  exact .refl heap

theorem Touches.bind {first : HeapM α} {next : α → HeapM β} (own : Touches bits blocks first)
    (rest : ∀ a, Touches bits blocks (next a)) : Touches bits blocks (first >>= next) := by
  intro heap
  have changed := own heap
  rw [bind_run]
  cases ran : first heap with
  | mk outcome middle =>
    rw [ran] at changed
    cases outcome with
    | error _ => exact changed
    | ok a => exact changed.trans (rest a middle)

theorem touches_onMemory {change : Memory → Memory}
    (spares : ∀ memory i, ¬bits i → (change memory).bit i = memory.bit i) :
    Touches bits blocks (onMemory change) := fun heap =>
  ⟨Nat.le_refl _, Nat.le_refl _, fun i free _ => spares heap.memory i free, fun _ _ _ => rfl⟩

end HeapM

namespace Heap

open HeapM

variable {bits blocks : Nat → Prop}

/-- Memory that is taken and filled at once was free. -/
theorem changedOnly_fill (heap : Heap) {bytes : Bytes} {frontier : Nat}
    (room : heap.frontier + bytes.length ≤ frontier) :
    ChangedOnly bits blocks heap
      { heap with memory := heap.memory.store heap.frontier bytes, frontier } := by
  refine ⟨by simp only; omega, Nat.le_refl _, ?_, fun _ _ _ => rfl⟩
  intro i _ taken
  rw [Memory.bit_store, if_neg]
  simp only at taken
  omega

theorem touches_allocate (length : Nat) : Touches bits blocks (allocate length) := by
  intro heap
  unfold allocate
  split
  · exact .refl heap
  · have grown := frontier_reserve length heap
    exact ⟨by show heap.frontier ≤ (reserve length heap).2.frontier; omega, Nat.le_succ _,
      fun _ _ _ => rfl, fun _ _ _ => rfl⟩

/-- The addresses right behind a fresh block are not handed out either. -/
theorem room_of_allocate {length : Nat} {block : Block} {heap after : Heap}
    (allocated : allocate length heap = (.ok block, after)) :
    heap.frontier + length + gap ≤ after.frontier := by
  have ran := allocate_run heap (le_of_allocate_eq_ok allocated)
  obtain rfl := congrArg Prod.snd (allocated.symm.trans ran)
  show _ ≤ heap.frontier + (length + alignment - 1) / alignment * alignment + gap
  unfold alignment
  omega

/-- What is done to a fresh block, or right behind it, is done to memory that was free. -/
theorem touches_fresh {α : Type} {length : Nat} {next : Block → HeapM α}
    (own : ∀ block : Block, block.length = length →
      Touches (fun i => 8 * block.base ≤ i ∧ i < 8 * (block.base + length + gap)) (· = block.id)
        (next block)) : Touches bits blocks (allocate length >>= next) := by
  intro heap
  have taken : ChangedOnly bits blocks heap (allocate length heap).2 := touches_allocate length heap
  rw [bind_run]
  cases allocated : allocate length heap with
  | mk outcome middle =>
    rw [allocated] at taken
    cases outcome with
    | error _ => exact taken
    | ok block =>
      -- The block begins where the free addresses began, and has the number that was free.
      have same := allocate_eq_ok allocated
      have room := room_of_allocate allocated
      have changed := own block (by rw [same]) middle
      have grown := changed.frontier
      subst same
      refine taken.trans_fresh changed ?_ ?_
      · intro i inside
        simp only at inside grown ⊢
        omega
      · rintro id rfl
        exact .inr (Nat.le_refl _)

theorem touches_storeText (text : String) : Touches bits blocks (storeText text) := by
  unfold storeText
  dsimp only
  split
  · exact touches_of_quiet (quiet_throw _)
  · intro heap
    refine changedOnly_fill heap ?_
    have grown := frontier_reserve ((Text.Utf8.encode text).length + 1) heap
    rw [List.length_append, List.length_singleton]
    exact Nat.le_of_lt grown

theorem touches_storeWide (unit : Nat) (text : String) :
    Touches bits blocks (storeWide unit text) := by
  refine touches_fresh fun block _ => ?_
  refine (touches_onMemory fun memory i free => ?_).bind fun _ => touches_of_quiet (quiet_pure _)
  rw [Memory.bit_store, if_neg]
  omega

theorem touches_addressFor (type : CType) (target : Target) (value : Value) :
    Touches bits blocks (addressFor type target value) := by
  refine addressFor_cases type target value (fun operation quiet => touches_of_quiet quiet) ?_ ?_
  · exact fun s => (touches_storeText s).bind fun _ => touches_of_quiet (quiet_pure _)
  · exact fun unit s => (touches_storeWide unit s).bind fun _ => touches_of_quiet (quiet_pure _)

/-- Keeping something alive touches one block only. -/
theorem touches_keepAt {block : Block} (own : blocks block.id) (offset length : Nat)
    (item : Option Kept) :
    Touches bits blocks (modify (keepAt block offset length item) : HeapM Unit) := by
  intro heap
  refine ⟨Nat.le_refl _, Nat.le_refl _, fun _ _ _ => rfl, ?_⟩
  intro id _ free
  have other : id ≠ block.id := fun same => free (same ▸ own)
  exact if_neg other

end Heap

end CInterop
