import CInterop.CString
import CInterop.Proofs.Heap.Run
import CInterop.Proofs.Pointer.Capability

/-!
# Null

A pointer to nothing is written in two ways: as the null pointer, and as address 0. Pointers that
are made of an address or read from memory are normalised, so that address 0 is null. Arithmetic is
not: where it brings an address to 0, the result is not null, and access through it is not refused
as access through null is.

`Made` are the pointers that a host can get, each with a note on whether it `landed` on address 0.
`null_iff_address_of_made` says that null and address 0 are one notion exactly for those that did
not.
-/

namespace CInterop.Pointer

/-! ## How access through null fails -/

/-- Every access fails as access through null does, and leaves the heap as it is. Only things that
have a size are accessed; text needs none. -/
structure FailsAsNull (p : Pointer) : Prop where
  index : 0 < p.target.size → ∀ heap,
    p.index 0 heap = (.error (.nullDereference "index" p.target.name), heap)
  deref : 0 < p.target.size → ∀ heap,
    p.deref heap = (.error (.nullDereference "index" p.target.name), heap)
  set : 0 < p.target.size → ∀ value heap,
    p.set value heap = (.error (.nullDereference "index_set" p.target.name), heap)
  contents : 0 < p.target.size → ∀ heap,
    p.contents heap = (.error (.nullDereference "contents" p.target.name), heap)
  readText : ∀ limit heap,
    p.readText heap limit = .error (.nullDereference "read_cstring" "char")

theorem isNull_iff {p : Pointer} : p.isNull = true ↔ p.place = .null := by
  unfold isNull
  cases p.place <;> simp

theorem address_of_isNull {p : Pointer} (null : p.isNull = true) : p.address = .ok 0 := by
  rw [address, isNull_iff.mp null]
  rfl

theorem element_of_isNull {p : Pointer} (null : p.isNull = true) (sized : 0 < p.target.size)
    (operation : String) (index : Int64) (heap : Heap) :
    p.element operation index heap
      = (.error (.nullDereference operation p.target.name), heap) := by
  unfold element elementSize
  rw [if_neg (Nat.ne_of_gt sized)]
  simp only [isNull_iff.mp null]
  rfl

theorem failsAsNull_of_isNull {p : Pointer} (null : p.isNull = true) : p.FailsAsNull := by
  have index_fails : 0 < p.target.size → ∀ heap,
      p.index 0 heap = (.error (.nullDereference "index" p.target.name), heap) := by
    intro sized heap
    unfold Pointer.index
    rw [HeapM.bind_run, element_of_isNull null sized]
  refine ⟨index_fails, index_fails, ?_, ?_, ?_⟩
  · intro sized value heap
    unfold Pointer.set setIndex
    rw [HeapM.bind_run, element_of_isNull null sized]
  · intro sized heap
    unfold contents elementSize
    rw [if_neg (Nat.ne_of_gt sized)]
    simp only [isNull_iff.mp null]
    rfl
  · intro limit heap
    unfold readText
    simp only [isNull_iff.mp null]
    rfl

/-- Text at address 0 is looked for, or access to foreign memory is refused; it is not reported as
null. -/
theorem readText_foreign_ne {p : Pointer} {address : UInt64} (place : p.place = .foreign address)
    (limit : Option Nat) (heap : Heap) (operation target : String) :
    p.readText heap limit ≠ .error (.nullDereference operation target) := by
  unfold readText
  simp only [place]
  cases p.granted <;> intro failed <;> cases failed

/-! ## Pointers that are made of addresses -/

theorem isNull_ofAddress {target : CType} {address : UInt64} {granted : Bool} :
    isNull ⟨target, .ofAddress address, granted⟩ = true ↔ address = 0 := by
  rw [isNull_iff, Place.ofAddress]
  split <;> simp_all

theorem isNull_foreign_iff (target : CType) (address : UInt64) :
    (foreign target address).isNull = true ↔ (foreign target address).address = .ok 0 := by
  rw [foreign, isNull_ofAddress, Pointer.address, Place.address_ofAddress]
  exact ⟨congrArg _, Except.ok.inj⟩

/-- What an address in memory stands for is null or in a block when it is 0. -/
theorem isNull_iff_of_pointerValue (heap : Heap) (block : Block) (target : Target)
    (address : UInt64) : ∀ p ∈ (heap.pointerValue block target address).pointers,
      p.block? = none → (p.isNull = true ↔ p.address = .ok 0) := by
  have foreign_null : ∀ p ∈ (Value.pointer (.foreign target.pointee address)).pointers,
      p.block? = none → (p.isNull = true ↔ p.address = .ok 0) := by
    intro p found _
    rw [Value.pointers] at found
    obtain rfl := List.mem_singleton.mp found
    exact isNull_foreign_iff _ _
  have in_block : ∀ found offset,
      ∀ p ∈ (Value.pointer (.inBlock target.pointee found offset)).pointers,
        p.block? = none → (p.isNull = true ↔ p.address = .ok 0) := by
    intro found offset p mem loose
    rw [Value.pointers] at mem
    obtain rfl := List.mem_singleton.mp mem
    cases loose
  unfold Heap.pointerValue
  dsimp only
  cases target <;> dsimp only <;> repeat' split
  all_goals first
    | exact foreign_null
    | exact in_block _ _
    | exact List.forall_mem_nil _

/-! ## Pointers that a host can get -/

/-- Whether a pointer has this address. One whose address overflows has none. -/
def hasAddress (p : Pointer) (address : UInt64) : Bool := decide (p.address = .ok address)

@[simp] theorem hasAddress_iff {p : Pointer} {address : UInt64} :
    p.hasAddress address = true ↔ p.address = .ok address := decide_eq_true_iff

/-- The ways to get a pointer. The note says whether the pointer came to lie at address 0 without
being null: in a block at that address, or by a step that ends there. -/
inductive Made : Pointer → Bool → Prop
  | null (target : CType) : Made (.null target) false
  | inBlock (target : CType) (block : Block) (offset : UInt64) :
      Made (.inBlock target block offset) (Pointer.inBlock target block offset |>.hasAddress 0)
  | foreign (target : CType) (address : UInt64) : Made (.foreign target address) false
  | grant {p : Pointer} {landed : Bool} (made : Made p landed) : Made p.grant landed
  | cast {p : Pointer} {landed : Bool} (made : Made p landed) (target : CType) :
      Made (p.cast target) landed
  | offset {p : Pointer} {landed : Bool} (made : Made p landed) (count : Int64) :
      Made (p.offset count) (!p.isNull && (p.offset count).hasAddress 0)
  | read {view : View} {heap : Heap} {type : CType} {offset : Nat} {value : Value} {p : Pointer}
      (ran : view.read heap type offset = .ok value) (found : p ∈ value.pointers) :
      Made p (p.block?.isSome && p.hasAddress 0)

/-- Pointers that are the same have the same address. -/
theorem address_of_same {p q : Pointer} (same : p.same q = .ok true) : p.address = q.address := by
  unfold Pointer.same at same
  split at same
  · obtain ⟨a, own, same⟩ := CInterop.bind_eq_ok.mp same
    obtain ⟨b, others, same⟩ := CInterop.bind_eq_ok.mp same
    rw [own, others, beq_iff_eq.mp (Except.ok.inj same)]
  · cases same

theorem isNull_offset (p : Pointer) (count : Int64) : (p.offset count).isNull = p.isNull := by
  unfold offset isNull
  cases p.place <;> rfl

theorem isNull_of_block {p : Pointer} (backed : p.block? ≠ none) : p.isNull = false := by
  unfold block? at backed
  unfold isNull
  split at backed
  · rename_i block offset place
    rw [place]
  · exact absurd rfl backed

/-- The note tells exactly which pointers lie at address 0 and are not null. -/
theorem Made.landed_iff {p : Pointer} {landed : Bool} (made : Made p landed) :
    landed = true ↔ p.isNull = false ∧ p.address = .ok 0 := by
  induction made with
  | null target => simp [isNull, Pointer.null]
  | inBlock target block offset =>
    have present : (Pointer.inBlock target block offset).isNull = false := rfl
    rw [hasAddress_iff, present]
    exact (and_iff_right rfl).symm
  | foreign target address =>
    have own := isNull_foreign_iff target address
    simp only [Bool.false_eq_true, false_iff, not_and]
    intro present at_zero
    rw [own.mpr at_zero] at present
    cases present
  | grant _ ih => exact ih
  | cast _ _ ih => exact ih
  | @offset p _ _ count _ =>
    rw [isNull_offset, Bool.and_eq_true, Bool.not_eq_true', hasAddress_iff]
  | @read view heap type offset value p ran found =>
    have own := View.pointers_read
      (fun target address => isNull_iff_of_pointerValue heap view.block target address)
      type offset value ran p found
    rw [Bool.and_eq_true, hasAddress_iff]
    by_cases loose : p.block? = none
    · have normal := own loose
      rw [loose]
      simp only [Option.isSome_none, Bool.false_eq_true, false_and, false_iff, not_and]
      intro present at_zero
      rw [normal.mpr at_zero] at present
      cases present
    · have present := isNull_of_block loose
      have backed : p.block?.isSome = true := Option.isSome_iff_ne_none.mpr loose
      rw [backed, present]
      simp

theorem Made.isNull_iff_address {p : Pointer} {landed : Bool} (made : Made p landed) :
    (p.isNull = true ↔ p.address = .ok 0) ↔ landed = false := by
  have note := made.landed_iff
  cases landed with
  | true =>
    obtain ⟨present, at_zero⟩ := note.mp rfl
    simp [present, at_zero]
  | false =>
    refine iff_of_true ⟨address_of_isNull, fun at_zero => ?_⟩ rfl
    by_contra absent
    exact Bool.noConfusion (note.mpr ⟨Bool.eq_false_iff.mpr absent, at_zero⟩)

/-- Null and address 0 are one notion for a pointer exactly if no step landed it on address 0. Such
pointers agree on null when they are the same. At address 0 outside of blocks every access fails as
access through null does, again exactly if no step landed the pointer there. -/
theorem null_iff_address_of_made {p : Pointer} {landed : Bool} (made : Made p landed) :
    ((p.isNull = true ↔ p.address = .ok 0) ↔ landed = false)
      ∧ (landed = false → ∀ q, Made q false → p.same q = .ok true → p.isNull = q.isNull)
      ∧ (p.block? = none → p.address = .ok 0 → (p.FailsAsNull ↔ landed = false)) := by
  have one_notion := made.isNull_iff_address
  refine ⟨one_notion, ?_, fun loose at_zero => ⟨fun fails => ?_, fun clear => ?_⟩⟩
  · intro clear q other same
    have own := one_notion.mpr clear
    have others := other.isNull_iff_address.mpr rfl
    rw [Bool.eq_iff_iff, own, others, address_of_same same]
  · by_contra landed_there
    rw [Bool.not_eq_false] at landed_there
    obtain ⟨present, _⟩ := made.landed_iff.mp landed_there
    cases place : p.place with
    | null => simp [isNull, place] at present
    | inBlock block offset => simp [block?, place] at loose
    | foreign address => exact readText_foreign_ne place none .empty _ _ (fails.readText _ _)
  · exact failsAsNull_of_isNull ((one_notion.mpr clear).mpr at_zero)

/-- A null pointer that was granted access, moved and cast. -/
def driftedNull : Pointer :=
  ((Pointer.foreign (.natural "int32" .w32 true) 0).grant.offset 3).cast (.natural "int8" .w8 true)

theorem driftedNull_made : Made driftedNull false :=
  .cast (.offset (.grant (.foreign _ 0)) 3) _

/-- It is as good as a fresh null pointer. -/
theorem driftedNull_agrees : Made driftedNull false
    ∧ (driftedNull.isNull = true ↔ driftedNull.address = .ok 0)
    ∧ driftedNull.isNull = (Pointer.null (.natural "int8" .w8 true)).isNull
    ∧ driftedNull.FailsAsNull := by
  obtain ⟨one_notion, agrees, fails⟩ := null_iff_address_of_made driftedNull_made
  exact ⟨driftedNull_made, one_notion.mpr rfl, agrees rfl _ (.null _) rfl, (fails rfl rfl).mpr rfl⟩

/-- The element before the second one at address 0. -/
def landedPointer : Pointer := (Pointer.foreign (.natural "int32" .w32 true) 4).offset (-1)

/-- It equals the null pointer and is not null; access through it fails as access to foreign memory
does. -/
theorem landedPointer_disagrees : Made landedPointer true ∧ landedPointer.address = .ok 0
    ∧ landedPointer.same (.null (.natural "int32" .w32 true)) = .ok true
    ∧ landedPointer.isNull = false ∧ (Pointer.null (.natural "int32" .w32 true)).isNull = true
    ∧ landedPointer.deref .empty = (.error (.foreignAccessDenied "index" 0), .empty) :=
  ⟨.offset (.foreign _ 4) (-1), rfl, rfl, rfl, rfl, rfl⟩

end CInterop.Pointer
