import CInterop.Proofs.Pointer.Capability
import CInterop.Proofs.Pointer.Stepping

/-!
# Pointer arithmetic

The signed words act on the pointers to a type: moving by `a` elements and then by `b` is moving by
`a + b`, where all sums wrap around, and moving back undoes a move. A move changes nothing but the
offset or the address, even where it brings an address to 0 (`Pointer.offset_laws`). An index into
foreign memory is such a move too, since no bounds are known there that could refuse it.
-/

namespace CInterop

namespace Place

/-- The place some bytes further on, in the same block if it is in one. -/
def shift : Place → UInt64 → Place
  | null, _ => null
  | inBlock block offset, distance => inBlock block (offset + distance)
  | foreign address, distance => foreign (address + distance)

@[simp] theorem shift_zero (place : Place) : place.shift 0 = place := by
  cases place <;> simp [shift]

@[simp] theorem shift_shift (place : Place) (first second : UInt64) :
    (place.shift first).shift second = place.shift (first + second) := by
  cases place <;> simp [shift, UInt64.add_assoc]

end Place

namespace Pointer

variable {p : Pointer}

/-- The bytes that a number of elements takes, as far as a word keeps them. -/
def stride (p : Pointer) (count : Int64) : UInt64 := count.toUInt64 * .ofNat p.target.size

theorem offset_eq_shift (p : Pointer) (count : Int64) :
    p.offset count = { p with place := p.place.shift (p.stride count) } := by
  unfold offset Place.shift stride
  cases p.place <;> rfl

/-! ## Distances -/

/-- The signed number of elements counts, and the whole size of each, up to a multiple of the number
of words. -/
theorem stride_modEq (p : Pointer) (count : Int64) :
    ((p.stride count).toNat : Int) ≡ count.toInt * p.target.size [ZMOD 2 ^ 64] :=
  (Word.toNat_mul_modEq _ _).trans
    ((Word.toNat_toUInt64_modEq count).mul (Word.toNat_ofNat_modEq p.target.size))

@[simp] theorem stride_zero (p : Pointer) : p.stride 0 = 0 := UInt64.zero_mul

theorem stride_add (p : Pointer) (a b : Int64) : p.stride (a + b) = p.stride a + p.stride b := by
  rw [stride, Int64.toUInt64_add, UInt64.add_mul]
  rfl

/-- Moves change no sizes. -/
theorem stride_offset (p : Pointer) (a b : Int64) : (p.offset a).stride b = p.stride b := rfl

/-! ## The action -/

theorem offset_offset (p : Pointer) (a b : Int64) : (p.offset a).offset b = p.offset (a + b) := by
  rw [offset_eq_shift (p.offset a), stride_offset, offset_eq_shift p a, offset_eq_shift p,
    stride_add, ← Place.shift_shift]

theorem offset_zero (p : Pointer) : p.offset 0 = p := by
  rw [offset_eq_shift, stride_zero, Place.shift_zero]

theorem offset_neg_offset (p : Pointer) (a : Int64) : (p.offset a).offset (-a) = p := by
  rw [offset_offset, Int64.add_right_neg, offset_zero]

/-! ## Elements of foreign memory -/

/-- What a pointer finds at an address of foreign memory. -/
def foreignElement (p : Pointer) (operation : String) (address : UInt64) : HeapM (View × Nat) := do
  let size ← liftM (p.elementSize operation)
  let block ← p.foreignBlock operation address size
  pure (block.view, 0)

/-- An element of foreign memory is what lies at the address of the moved pointer. -/
theorem element_of_isForeign (foreign : p.isForeign = true) (operation : String) (index : Int64) :
    ∃ address, (p.offset index).address = .ok address
      ∧ p.element operation index = p.foreignElement operation address := by
  obtain ⟨address, place⟩ := isForeign_iff.mp foreign
  refine ⟨address + p.stride index, ?_, ?_⟩
  · rw [offset_eq_shift, Pointer.address, place]
    rfl
  · unfold element foreignElement elementSize stride
    simp only [place]
    split <;> rfl

theorem isForeign_offset (foreign : p.isForeign = true) (count : Int64) :
    (p.offset count).isForeign = true := by
  obtain ⟨address, place⟩ := isForeign_iff.mp foreign
  refine isForeign_iff.mpr ⟨address + p.stride count, ?_⟩
  rw [offset_eq_shift, place]
  rfl

/-- An index into foreign memory is a move. -/
theorem element_offset_of_isForeign (foreign : p.isForeign = true) (operation : String)
    (a b : Int64) : (p.offset a).element operation b = p.element operation (a + b) := by
  obtain ⟨first, own, found⟩ := element_of_isForeign (isForeign_offset foreign a) operation b
  obtain ⟨second, others, sum⟩ := element_of_isForeign foreign operation (a + b)
  rw [offset_offset, others] at own
  rw [found, sum, Except.ok.inj own]
  rfl

/-- How pointers are moved and seen as pointers to other types. -/
structure OffsetLaws (p : Pointer) : Prop where
  /-- A move by some elements changes the offset or the address by their bytes, modulo the number
  of words, and nothing else. The null pointer stays null. -/
  moved : ∀ a, ∃ distance : UInt64,
    (distance.toNat : Int) ≡ a.toInt * p.target.size [ZMOD 2 ^ 64]
      ∧ p.offset a = { p with place := p.place.shift distance }
  /-- Two moves are one move by the sum, which wraps around. -/
  add : ∀ a b, (p.offset a).offset b = p.offset (a + b)
  /-- A move is undone by the opposite one. The least word is its own opposite. -/
  neg : ∀ a, (p.offset a).offset (-a) = p
  /-- Only the type of the target is changed by a cast. -/
  cast : ∀ target, (p.cast target).target = target ∧ (p.cast target).place = p.place
    ∧ (p.cast target).granted = p.granted
  /-- An index into foreign memory reaches what lies at the address of the moved pointer. -/
  located : p.isForeign = true → ∀ operation index, ∃ address,
    (p.offset index).address = .ok address
      ∧ p.element operation index = p.foreignElement operation address
  /-- So a move and an index behind it reach the same element as an index by the sum, to read it as
  well as to store in it. -/
  index : p.isForeign = true → ∀ a b,
    (∀ operation, (p.offset a).element operation b = p.element operation (a + b))
      ∧ (p.offset a).index b = p.index (a + b)
      ∧ ∀ value, (p.offset a).setIndex b value = p.setIndex (a + b) value

theorem offset_laws (p : Pointer) : p.OffsetLaws where
  moved a := ⟨p.stride a, p.stride_modEq a, p.offset_eq_shift a⟩
  add := p.offset_offset
  neg := p.offset_neg_offset
  cast _ := ⟨rfl, rfl, rfl⟩
  located := element_of_isForeign
  index := by
    intro foreign a b
    have same := element_offset_of_isForeign foreign (a := a) (b := b)
    refine ⟨same, ?_, fun value => ?_⟩
    · unfold Pointer.index
      rw [same]
      rfl
    · unfold setIndex
      rw [same]
      rfl

/-- Elements of more bytes than a signed word counts: a step back leads 2^63 - 1 bytes ahead, and
seven more steps back lead to address 0, which is not null. -/
example :
    let p : Pointer := ⟨.array .bool 0x8000000000000001, .foreign 8, true⟩
    (p.offset (-1)).place = .foreign 0x8000000000000007
      ∧ ((p.offset (-1)).offset (-7)).place = .foreign 0 := by
  decide

end Pointer

end CInterop
