import Mathlib.Data.Int.ModEq
import CInterop.Proofs.View.Frame

/-!
# Steps and indices

An element of a block is reached in two ways: by its index, and by moving the pointer to it. An
index is refused when the way to the element leaves the signed words. A step wraps around instead,
and so may land in the block again. Wherever nothing overflows (`Pointer.OnTrack`) the two ways are
one and the same access, success or failure; elsewhere they agree only if the moved pointer is
refused as well (`Pointer.moved_access`).
-/

namespace CInterop

/-! ## Residues -/

namespace Word

theorem fitsSigned_iff {i : Int} :
    fitsSigned i = true ↔ -0x8000000000000000 ≤ i ∧ i ≤ 0x7FFFFFFFFFFFFFFF := by
  rw [fitsSigned, Bool.and_eq_true, decide_eq_true_iff, decide_eq_true_iff]
  rfl

/-- A word is read as its balanced residue. -/
theorem signed_toNat (word : UInt64) : signed word.toNat = (word.toNat : Int).bmod (2 ^ 64) := by
  have small : word.toNat < 2 ^ 64 := word.toBitVec.isLt
  unfold signed maxSigned modulus
  rw [Int.bmod_def]
  omega

theorem signed_modEq (n : Nat) : signed n ≡ n [ZMOD 2 ^ 64] := by
  unfold signed modulus Int.ModEq
  split
  · rfl
  · omega

theorem bmod_of_fits {i : Int} (fits : fitsSigned i = true) : i.bmod (2 ^ 64) = i := by
  rw [fitsSigned_iff] at fits
  rw [Int.bmod_def]
  omega

theorem fits_bmod (i : Int) : fitsSigned (i.bmod (2 ^ 64)) = true := by
  rw [fitsSigned_iff, Int.bmod_def]
  omega

theorem bmod_congr {i j : Int} (same : i ≡ j [ZMOD 2 ^ 64]) :
    i.bmod (2 ^ 64) = j.bmod (2 ^ 64) := by
  have same : i % (2 ^ 64 : Nat) = j % (2 ^ 64 : Nat) := same
  rw [Int.bmod_def, Int.bmod_def, same]

theorem toNat_toUInt64_modEq (i : Int64) : (i.toUInt64.toNat : Int) ≡ i.toInt [ZMOD 2 ^ 64] := by
  have same : i.toInt = (i.toUInt64.toNat : Int).bmod (2 ^ 64) :=
    BitVec.toInt_eq_toNat_bmod i.toBitVec
  rw [same]
  exact Int.bmod_emod.symm

theorem toNat_ofNat_modEq (n : Nat) : ((UInt64.ofNat n).toNat : Int) ≡ n [ZMOD 2 ^ 64] := by
  unfold Int.ModEq
  rw [UInt64.toNat_ofNat']
  omega

theorem toNat_add_modEq (a b : UInt64) :
    ((a + b).toNat : Int) ≡ a.toNat + b.toNat [ZMOD 2 ^ 64] := by
  unfold Int.ModEq
  rw [UInt64.toNat_add]
  omega

theorem toNat_mul_modEq (a b : UInt64) :
    ((a * b).toNat : Int) ≡ a.toNat * b.toNat [ZMOD 2 ^ 64] := by
  unfold Int.ModEq
  rw [UInt64.toNat_mul, Int.natCast_emod, Int.natCast_mul]
  exact Int.emod_emod_of_dvd _ (Int.dvd_refl _)

end Word

namespace HeapM

variable {α : Type} {first second : HeapM α} {heap : Heap}

/-- Two operations do the same to a heap, or both fail. -/
def Concur (first second : HeapM α) (heap : Heap) : Prop :=
  first heap = second heap
    ∨ (∃ failure, (first heap).1 = .error failure) ∧ ∃ failure, (second heap).1 = .error failure

/-- Beside an operation that fails, only one that fails as well does the same. -/
theorem concur_of_error {failure : Failure} (failed : (second heap).1 = .error failure) :
    Concur first second heap ↔ ∃ failure, (first heap).1 = .error failure := by
  constructor
  · rintro (same | ⟨found, -⟩)
    · exact ⟨failure, same ▸ failed⟩
    · exact found
  · exact fun found => .inr ⟨found, failure, failed⟩

end HeapM

namespace Pointer

/-! ## Where an element is looked for -/

/-- The distance to an element and the position of the element are signed words. -/
def OnTrack (p : Pointer) (start : UInt64) (index : Int64) : Prop :=
  Word.fitsSigned (index.toInt * Word.signed p.target.size) = true
    ∧ Word.fitsSigned (p.elementPosition start index) = true

/-- The view and the offset in it for an element at a position of a block. -/
def atPosition (p : Pointer) (operation : String) (block : Block) (position : Int) :
    HeapM (View × Nat) := do
  let size ← liftM (p.elementSize operation)
  match position with
  | .ofNat position => pure (block.view, position)
  | position => throw (.outOfBounds operation position size block.length)

variable {p : Pointer} {block : Block} {start : UInt64} {index : Int64}

/-- An element on track is looked for at its position. -/
theorem element_of_onTrack (place : p.place = .inBlock block start)
    (onTrack : p.OnTrack start index) (operation : String) : p.element operation index
      = p.atPosition operation block (p.elementPosition start index) := by
  have distance := Word.checked_eq_some_iff.mpr ⟨onTrack.1, rfl⟩
  have position := Word.checked_eq_some_iff.mpr ⟨onTrack.2, rfl⟩
  unfold element atPosition elementSize
  split
  · rfl
  simp only [place, distance, liftM_pure, pure_bind, Option.bind_eq_bind, Option.bind_some]
  unfold elementPosition at position ⊢
  rw [position]
  cases Word.signed start.toNat + index.toInt * Word.signed p.target.size <;> rfl

/-- An element off track is refused, wherever it may lie. -/
theorem element_of_offTrack (place : p.place = .inBlock block start)
    (offTrack : ¬p.OnTrack start index) (operation : String) : p.element operation index
      = p.atPosition operation block Word.minSigned := by
  have overflows : (do
      let delta ← Word.checked (index.toInt * Word.signed p.target.size)
      Word.checked (Word.signed start.toNat + delta)) = none := by
    cases delta : Word.checked (index.toInt * Word.signed p.target.size) with
    | none => rfl
    | some distance =>
      obtain ⟨fits, rfl⟩ := Word.checked_eq_some_iff.mp delta
      refine Option.eq_none_iff_forall_ne_some.mpr fun position found => offTrack ⟨fits, ?_⟩
      exact (Word.checked_eq_some_iff.mp found).1
  unfold element atPosition elementSize
  split
  · rfl
  simp only [place, liftM_pure, pure_bind]
  rw [overflows]
  rfl

/-- Only elements that have a size can overflow. -/
theorem size_ne_zero_of_offTrack (offTrack : ¬p.OnTrack start index) : p.target.size ≠ 0 := by
  intro empty
  have none : index.toInt * Word.signed p.target.size = 0 := by
    rw [empty]
    exact Int.mul_zero _
  refine offTrack ⟨none ▸ rfl, ?_⟩
  rw [elementPosition, none, Int.add_zero, Word.signed_toNat]
  exact Word.fits_bmod _

/-! ## Moving a pointer -/

/-- A pointer is moved by the distance to the element, as far as a word keeps it. -/
theorem position_offset (p : Pointer) (start : UInt64) (count : Int64) :
    Word.signed (start + count.toUInt64 * .ofNat p.target.size).toNat
      = (p.elementPosition start count).bmod (2 ^ 64) := by
  have size : ((UInt64.ofNat p.target.size).toNat : Int)
      ≡ Word.signed p.target.size [ZMOD 2 ^ 64] :=
    (Word.toNat_ofNat_modEq _).trans (Word.signed_modEq _).symm
  have distance := (Word.toNat_mul_modEq _ _).trans ((Word.toNat_toUInt64_modEq count).mul size)
  have moved := (Word.toNat_add_modEq _ _).trans ((Word.signed_modEq start.toNat).symm.add distance)
  rw [Word.signed_toNat]
  exact Word.bmod_congr moved

/-- What a moved pointer points at is looked for at the wrapped position. -/
theorem element_offset (place : p.place = .inBlock block start) (count : Int64)
    (operation : String) : (p.offset count).element operation 0
      = p.atPosition operation block ((p.elementPosition start count).bmod (2 ^ 64)) := by
  let moved := start + count.toUInt64 * .ofNat p.target.size
  have place_moved : (p.offset count).place = .inBlock block moved := by
    unfold offset
    rw [place]
  have position : (p.offset count).elementPosition moved 0
      = (p.elementPosition start count).bmod (2 ^ 64) := by
    unfold elementPosition
    rw [Int64.toInt_zero, Int.zero_mul, Int.add_zero]
    exact position_offset p start count
  have onTrack : (p.offset count).OnTrack moved 0 := by
    refine ⟨?_, position ▸ Word.fits_bmod _⟩
    rw [Int64.toInt_zero, Int.zero_mul]
    rfl
  rw [element_of_onTrack place_moved onTrack operation, position]
  rfl

/-- Moving a pointer along its track leads to the element of the index. -/
theorem element_offset_of_onTrack (place : p.place = .inBlock block start)
    (onTrack : p.OnTrack start index) (operation : String) :
    (p.offset index).element operation 0 = p.element operation index := by
  rw [element_offset place, Word.bmod_of_fits onTrack.2, element_of_onTrack place onTrack]

/-! ## Access -/

/-- Access through a moved pointer beside access to an element. -/
structure MovedAccess (p : Pointer) (block : Block) (start : UInt64) (count : Int64) : Prop where
  /-- On track the two are one operation, in what they give, change and report. -/
  onTrack : p.OnTrack start count → (p.offset count).deref = p.index count
    ∧ ∀ value, (p.offset count).set value = p.setIndex count value
  /-- Off track the index is refused before anything is read or changed. -/
  offTrack : ¬p.OnTrack start count → ∀ heap,
    p.index count heap = (.error (.outOfBounds "index" Word.minSigned p.target.size block.length),
        heap)
      ∧ ∀ value, p.setIndex count value heap
        = (.error (.outOfBounds "index_set" Word.minSigned p.target.size block.length), heap)
  /-- The moved pointer reads at the wrapped position. -/
  deref : (p.offset count).deref = do
    let (view, offset) ← p.atPosition "index" block ((p.elementPosition start count).bmod (2 ^ 64))
    liftM (view.read (← get) p.target offset)
  /-- The moved pointer stores at the wrapped position. -/
  set : ∀ value, (p.offset count).set value = do
    let (view, offset) ←
      p.atPosition "index_set" block ((p.elementPosition start count).bmod (2 ^ 64))
    view.write p.target offset value
    if view.block.native then modify (Heap.leak view.block)
  /-- The two agree on track, and off it just where the moved pointer fails as well. -/
  concur : ∀ heap,
    (HeapM.Concur (p.offset count).deref (p.index count) heap
        ↔ p.OnTrack start count ∨ ∃ failure, ((p.offset count).deref heap).1 = .error failure)
      ∧ ∀ value, HeapM.Concur ((p.offset count).set value) (p.setIndex count value) heap
        ↔ p.OnTrack start count ∨ ∃ failure, ((p.offset count).set value heap).1 = .error failure

theorem moved_access (place : p.place = .inBlock block start) (count : Int64) :
    p.MovedAccess block start count := by
  have onTrack (along : p.OnTrack start count) : (p.offset count).deref = p.index count
      ∧ ∀ value, (p.offset count).set value = p.setIndex count value := by
    unfold Pointer.deref Pointer.set Pointer.index setIndex
    simp only [element_offset_of_onTrack place along]
    exact ⟨rfl, fun _ => rfl⟩
  have offTrack (away : ¬p.OnTrack start count) (operation : String) :
      p.element operation count
        = throw (.outOfBounds operation Word.minSigned p.target.size block.length) := by
    rw [element_of_offTrack place away, atPosition, elementSize,
      if_neg (size_ne_zero_of_offTrack away)]
    rfl
  have refused (away : ¬p.OnTrack start count) (heap : Heap) :
      p.index count heap
          = (.error (.outOfBounds "index" Word.minSigned p.target.size block.length), heap)
        ∧ ∀ value, p.setIndex count value heap
          = (.error (.outOfBounds "index_set" Word.minSigned p.target.size block.length), heap) :=
      by
    unfold Pointer.index setIndex
    rw [offTrack away, offTrack away]
    exact ⟨rfl, fun _ => rfl⟩
  refine ⟨onTrack, refused, ?deref, ?set, ?concur⟩
  case deref =>
    unfold Pointer.deref Pointer.index
    rw [element_offset place]
    rfl
  case set =>
    intro value
    unfold Pointer.set setIndex
    rw [element_offset place]
    rfl
  case concur =>
    intro heap
    by_cases along : p.OnTrack start count
    · obtain ⟨deref, set⟩ := onTrack along
      refine ⟨iff_of_true (.inl ?_) (.inl along), fun value => iff_of_true (.inl ?_) (.inl along)⟩
      · rw [deref]
      · rw [set]
    · obtain ⟨index, setIndex⟩ := refused along heap
      simp only [along, false_or]
      exact ⟨HeapM.concur_of_error (congrArg Prod.fst index),
        fun value => HeapM.concur_of_error (congrArg Prod.fst (setIndex value))⟩

/-- Two numbers of four bytes, and a pointer to the second. -/
def secondOfTwo : Pointer := .inBlock (.natural "int32" .w32 true) ⟨0, 0x10000000000, 8, false⟩ 4

/-- One step back from the second number lies the first. -/
theorem secondOfTwo_moved :
    secondOfTwo.place = .inBlock ⟨0, 0x10000000000, 8, false⟩ 4
      ∧ secondOfTwo.OnTrack 4 (-1)
      ∧ (secondOfTwo.offset (-1)).deref = secondOfTwo.index (-1)
      ∧ (secondOfTwo.index (-1) .empty).1 = .ok (.int 0) := by
  have onTrack : secondOfTwo.OnTrack 4 (-1) := ⟨by decide, by decide⟩
  have moved : secondOfTwo.MovedAccess ⟨0, 0x10000000000, 8, false⟩ 4 (-1) := moved_access rfl (-1)
  exact ⟨rfl, onTrack, (moved.onTrack onTrack).1, rfl⟩

/-- A step over 2^62 numbers of four bytes wraps to where it started; the index is refused. -/
theorem secondOfTwo_wraps :
    ((secondOfTwo.offset 0x4000000000000000).deref .empty).1 = .ok (.int 0)
      ∧ (secondOfTwo.index 0x4000000000000000 .empty).1
        = .error (.outOfBounds "index" Word.minSigned 4 8)
      ∧ ¬HeapM.Concur (secondOfTwo.offset 0x4000000000000000).deref
        (secondOfTwo.index 0x4000000000000000) .empty := by
  have read : ((secondOfTwo.offset 0x4000000000000000).deref .empty).1 = .ok (.int 0) := rfl
  have refused : (secondOfTwo.index 0x4000000000000000 .empty).1
      = .error (.outOfBounds "index" Word.minSigned 4 8) := rfl
  refine ⟨read, refused, fun concur => ?_⟩
  obtain ⟨_, failed⟩ := (HeapM.concur_of_error refused).mp concur
  cases read.symm.trans failed

end Pointer

end CInterop
