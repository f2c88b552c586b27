import CInterop.Proofs.Instance.Bounds
import CInterop.Proofs.View.Locality
import CInterop.Proofs.View.Rereading

/-!
# Members do not interfere

Storing a value in a member of an instance changes bits of this member only, whether it succeeds or
fails in the middle (`View.touches_writeMember`). Where members lie apart, the others keep their
bits and read as before (`Instance.set_spares`). A wide character of fewer than eight bytes that no
other integer has is stored with the bytes behind it, so that it does not keep apart
(`Instance.stray_interferes`).
-/

namespace CInterop

open HeapM

namespace View

variable {view : View} {base size low high : Nat}

/-- A part of a type whose members lie apart, in the bits from `low` to `high`. -/
structure Lies (view : View) (low high : Nat) (type : CType) (offset : Nat) : Prop where
  apart : type.Apart
  own : type.spills = false
  first : low ≤ 8 * view.place offset
  last : 8 * (view.place offset + type.size) ≤ high

/-- A bit-field in the bits from `low` to `high`. -/
structure LiesBits (view : View) (low high : Nat) (offset : Nat) (slot : BitSlot) : Prop where
  first : low ≤ 8 * view.place offset + slot.offset
  last : 8 * view.place offset + slot.offset + slot.width ≤ high

/-- A member lies where its bits do. -/
theorem memberFits_of_lies {member : Member} (apart : member.type.Apart)
    (own : member.bits = none → member.type.spills = false)
    (first : low ≤ 8 * view.place base + member.firstBit)
    (last : 8 * view.place base + member.endBit ≤ high) :
    MemberFits (view.Lies low high) (fun _ => view.LiesBits low high) base member := by
  unfold MemberFits
  have shifted := view.place_add base member.offset
  cases bits : member.bits with
  | none =>
    rw [Placed.endBit_of_plain bits] at last
    rw [Placed.firstBit_of_plain bits] at first last
    exact ⟨apart, own bits, by omega, by omega⟩
  | some slot =>
    rw [Placed.endBit_of_bits bits] at last
    rw [Placed.firstBit_of_bits bits] at first last
    exact ⟨by omega, by omega⟩

/-- Storing a member touches the bits of this member only. -/
theorem touches_writeMember {member : Member} (apart : member.type.Apart)
    (own : member.bits = none → member.type.spills = false) (value : Value) :
    Touches (fun i => 8 * view.place base + member.firstBit ≤ i
        ∧ i < 8 * view.place base + member.endBit) (· = view.block.id)
      (view.writeMember member base value) := by
  -- The range stays that of the member while the write goes down into its parts: a part lies
  -- inside what it is a part of.
  let low := 8 * view.place base + member.firstBit
  let high := 8 * view.place base + member.endBit
  have assembly : Assembly view view
      (fun operation _ => Touches (fun i => low ≤ i ∧ i < high) (· = view.block.id) operation)
      (view.Lies low high) (fun _ => view.LiesBits low high) := by
    have covers {type : CType} {offset : Nat} (lies : view.Lies low high type offset) :
        view.Covers (fun i => low ≤ i ∧ i < high) offset type.size := fun i above below _ =>
      ⟨Nat.le_trans lies.first above, Nat.lt_of_lt_of_le below lies.last⟩
    refine touching rfl covers ?unit ?spares ?item ?member
    case unit =>
      intro size offset lies
      exact sparesUnit_of_covers rfl (CType.isShort_of_spills lies.own) (covers lies)
    case spares =>
      intro type offset slot lies _ near memory word i free
      have small : Bits.unitBytes type.size ≤ 8 := Spot.unitBytes_le_word type.size
      rw [Spot.bit_replaceField memory _ _ word small near, if_neg]
      rintro ⟨above, below, _⟩
      exact free ⟨Nat.le_trans lies.first above, Nat.lt_of_lt_of_le below lies.last⟩
    case item =>
      intro element count offset i lies below
      obtain ⟨apart, own, first, last⟩ := lies
      have inside := element_le element.size below
      have shifted := view.place_add offset (i * element.size)
      simp only [CType.size] at last
      exact ⟨apart.element, own, by omega, by omega⟩
    case member =>
      intro layout offset member lies mem
      obtain ⟨apart, own, first, last⟩ := lies
      simp only [CType.size] at last
      have stored := apart.stored mem
      have ends := stored.slot.endBit_le
      have inside := stored.inside
      exact memberFits_of_lies (apart.member mem) (fun _ => CType.spills_of_mem own member mem)
        (by omega) (by omega)
  exact assembly.writeMember value
    (memberFits_of_lies apart own (Nat.le_refl _) (Nat.le_refl _))

end View

namespace Instance

variable {x : Instance} {layout : Layout}

/-- The position of the lowest bit of an instance in memory. -/
def lowestBit (x : Instance) : Nat := 8 * (x.block.base + x.offset)

theorem get_of_member {member : Member} (found : x.member member.name = .ok member) (heap : Heap) :
    x.get heap member.name = (do (← x.view).readMember heap member 0) := by
  rw [get, found]
  rfl

theorem set_of_member {member : Member} (found : x.member member.name = .ok member)
    (value : Value) :
    x.set member.name value = (do (← liftM x.view).writeMember member 0 value) := by
  rw [set, found]
  rfl

theorem lowestBit_eq {view : View} (viewed : x.view = .ok view) :
    x.lowestBit = 8 * view.place 0 := by
  obtain ⟨rfl, -⟩ := view_eq_ok viewed
  rfl

/-- Storing a value in a member changes no bit that lies apart from the member. -/
theorem bit_set {a : Member} (found : x.member a.name = .ok a)
    (apart : a.type.Apart) (own : a.bits = none → a.type.spills = false) {heap : Heap}
    (known : x.block.base + x.block.length ≤ heap.frontier) (value : Value) {i : Nat}
    (inside : i < 8 * x.type.size) (beside : i < a.firstBit ∨ a.endBit ≤ i) :
    (x.set a.name value heap).2.memory.bit (x.lowestBit + i)
      = heap.memory.bit (x.lowestBit + i) := by
  rw [set_of_member found, bind_run, lift_run]
  cases viewed : x.view with
  | error failure => rfl
  | ok view =>
    rw [lowestBit_eq viewed]
    obtain ⟨same, fits⟩ := view_eq_ok viewed
    have touches : Touches _ _ (view.writeMember a 0 value) :=
      View.touches_writeMember apart own value
    refine (touches heap).bit _ (by omega) (.inl ?_)
    unfold Inside at fits
    simp only [same, View.place]
    omega

/-- Storing a value in one member of a struct, whether it succeeds or fails, changes no bit of
another member, which reads as before if it holds no pointer. What is stored must be a bit-field, or
have no integer that takes bytes behind it. -/
theorem set_spares (built : x.type.Built) (unionFree : x.type.hasUnion = false)
    (composite : x.type = .composite layout) {a b : Member} (mem_a : a ∈ layout.members)
    (mem_b : b ∈ layout.members) (distinct : a ≠ b)
    (own : a.bits = none → a.type.spills = false) {heap : Heap}
    (known : x.block.base + x.block.length ≤ heap.frontier) (value : Value) :
    let after := (x.set a.name value heap).2
    (∀ i, b.firstBit ≤ i → i < b.endBit →
        after.memory.bit (x.lowestBit + i) = heap.memory.bit (x.lowestBit + i))
      ∧ (b.type.holdsPointer = false → x.get after b.name = x.get heap b.name) := by
  intro after
  have size : x.type.size = layout.size := by rw [composite, CType.size]
  have apart := built.apart unionFree
  have names := (composite ▸ built.shaped).distinct
  rw [composite] at apart
  have found {member : Member} (mem : member ∈ layout.members) :
      x.member member.name = .ok member :=
    member_of_member? composite (Layout.member?_name names mem)
  have stored {member : Member} (mem : member ∈ layout.members) :
      Layout.Stored x.type.size member := size ▸ apart.stored mem
  have ends := (stored mem_b).slot.endBit_le
  have inside := (stored mem_b).inside
  have same (i : Nat) (above : b.firstBit ≤ i) (below : i < b.endBit) :
      after.memory.bit (x.lowestBit + i) = heap.memory.bit (x.lowestBit + i) := by
    have beside : Layout.BitsApart a b := apart.disjoint.forall mem_a mem_b distinct
    refine bit_set (found mem_a) (apart.member mem_a) own known value (by omega) ?_
    unfold Layout.BitsApart at beside
    omega
  refine ⟨same, fun bare => ?_⟩
  rw [get_of_member (found mem_b), get_of_member (found mem_b)]
  cases viewed : x.view with
  -- An instance that does not lie in its block is read at no time.
  | error failure => rfl
  | ok view =>
    rw [lowestBit_eq viewed] at same
    have free := (built.member composite b mem_b).pointerFree bare
    exact View.readMember_congr (stored mem_b) same
      fun _ agrees => View.read_congr (apart.member mem_b) free agrees

/-- The heap of `mixedInstance` once its second bit-field is 77. -/
def mixedHeap : Heap :=
  (mixedInstance.set "high" (.uint 77) (create (.composite Layout.mixedLayout) .empty).2).2

/-- Of two bit-fields in one unit, storing the one leaves the other as it is. -/
theorem mixed_spares :
    let after := (mixedInstance.set "low" (.uint 5) mixedHeap).2
    (∀ i, 35 ≤ i → i < 42 → after.memory.bit (mixedInstance.lowestBit + i)
        = mixedHeap.memory.bit (mixedInstance.lowestBit + i))
      ∧ mixedInstance.get after "high" = mixedInstance.get mixedHeap "high"
      ∧ mixedInstance.get mixedHeap "high" = .ok (.uint 77) := by
  let low : Member := ⟨"low", .natural "uint32" .w32 false, 4, some ⟨0, 3⟩⟩
  let high : Member := ⟨"high", .natural "uint32" .w32 false, 4, some ⟨3, 7⟩⟩
  have built : mixedInstance.type.Built := .composite Layout.mixed_built Layout.compute_mixed
  have low_mem : low ∈ Layout.mixedLayout.members := by simp [Layout.mixedLayout, low]
  have high_mem : high ∈ Layout.mixedLayout.members := by simp [Layout.mixedLayout, high]
  have known : mixedInstance.block.base + mixedInstance.block.length ≤ mixedHeap.frontier := by
    decide
  obtain ⟨bits, value⟩ :=
    set_spares built rfl rfl low_mem high_mem (by simp [low, high]) nofun known (.uint 5)
  exact ⟨bits, value rfl, rfl⟩

/-- A fresh instance of a wide character of three bytes with a byte behind it, and the heap once the
byte is 7. -/
def spilledInstance : Instance :=
  ⟨.composite Layout.spilledLayout, ⟨0, 0x10000000000, 6, false⟩, 0⟩

def spilledHeap : Heap :=
  (spilledInstance.set "a" (.uint 7) (create (.composite Layout.spilledLayout) .empty).2).2

/-- Storing the wide character loses the byte, although the two share no bits. -/
theorem stray_interferes :
    spilledInstance.type.Built ∧ spilledInstance.type.hasUnion = false
      ∧ create (.composite Layout.spilledLayout) .empty
          = (.ok spilledInstance, (create (.composite Layout.spilledLayout) .empty).2)
      ∧ Layout.spilledLayout.members.Pairwise Layout.BitsApart
      ∧ spilledInstance.get spilledHeap "a" = .ok (.uint 7)
      ∧ spilledInstance.get (spilledInstance.set "z" (.uint 1) spilledHeap).2 "a"
          = .ok (.uint 0) := by
  have disjoint : Layout.spilledLayout.members.Pairwise Layout.BitsApart :=
    List.pairwise_pair.mpr (.inl (by decide))
  exact ⟨Layout.spilled_built, rfl, rfl, disjoint, rfl, rfl⟩

end Instance

end CInterop
