import CInterop.Proofs.Instance.Bounds
import CInterop.Proofs.View.Confined
import CInterop.Proofs.View.Pieces

/-!
# The frame of a store

What is stored at an offset of a view, also when it fails in the middle, changes bytes of the window
only, and free memory for texts. Where members end inside their composites it changes none but the
bytes of the value (`View.storesAt_frame`). Each store of a part is checked against the view and not
against the whole value, so that the window holds for every type and the value needs the layout.
-/

namespace CInterop

open HeapM Heap.ChangedOnly

/-- An operation changes bytes at some addresses only, and free memory. -/
def HeapM.StaysWithin {α : Type} (addresses : Nat → Prop) (operation : HeapM α) : Prop :=
  ∀ (heap : Heap) (address : Nat), ¬ addresses address →
    address < heap.frontier ∨ (operation heap).2.frontier ≤ address →
      (operation heap).2.memory.byte address = heap.memory.byte address

theorem HeapM.Touches.staysWithin {α : Type} {addresses blocks : Nat → Prop} {operation : HeapM α}
    (touches : Touches (fun i => addresses (i / 8)) blocks operation) :
    StaysWithin addresses operation := by
  intro heap address free taken
  refine (touches heap).byte (fun i below touched => free ?_) taken
  rwa [show (8 * address + i) / 8 = address by omega] at touched

namespace View

variable {view : View} {type : CType} {offset length : Nat} {value : Value}

/-- The bytes of the window among so many from a position on, which may lie anywhere. -/
def Reaches (view : View) (position : Int) (length : Nat) (address : Nat) : Prop :=
  view.place 0 ≤ address ∧ address < view.place view.length
    ∧ view.place 0 + position ≤ address ∧ address < view.place 0 + position + length

/-! ## Stores that do not fit -/

theorem target_of_lt (outside : view.length < offset + length) :
    view.target offset length
      = throw (.outOfBounds "write" (Word.signed offset) length view.length) := by
  unfold target
  rw [locate_of_lt outside]
  rfl

theorem quiet_located_of_lt {α : Type} {next : Nat → HeapM α}
    (outside : view.length < offset + length) : Quiet (view.target offset length >>= next) := by
  rw [target_of_lt outside]
  exact fun _ => rfl

theorem quiet_writeScalar_of_lt (outside : view.length < offset + type.size) :
    Quiet (view.writeScalar type offset value) := by
  unfold writeScalar
  split
  case h_1 | h_2 | h_3 =>
    refine quiet_get.bind fun heap => ?_
    exact (quiet_lift _).bind fun bits => quiet_located_of_lt outside
  case h_4 | h_5 => exact (quiet_lift _).bind fun word => quiet_located_of_lt outside
  case h_6 => exact quiet_located_of_lt outside
  case h_7 => exact quiet_throw _

theorem quiet_copyInstance_of_lt {source : Instance} (same : (source.type == type) = true)
    (outside : view.length < offset + type.size) : Quiet (view.copyInstance offset source) := by
  intro heap
  unfold copyInstance
  rw [bind_of_ok get_run, bind_run, lift_run]
  cases read : source.bytes heap with
  | error failure => rfl
  | ok bytes =>
    rw [← CType.size_eq_of_same same, ← length_bytes read] at outside
    dsimp only
    rw [writeBytes, target_of_lt outside]
    rfl

theorem quiet_copyPointer_of_lt {source : Instance} (outside : view.length < offset + type.size) :
    Quiet (view.copyPointer type offset source) := by
  unfold copyPointer
  refine quiet_get.bind fun heap => (quiet_lift _).bind fun bytes => ?_
  unfold writeWord
  rw [target_of_lt outside]
  exact fun _ => rfl

theorem quiet_writeWhole_of_lt (outside : view.length < offset + type.size) :
    Quiet (view.writeWhole type offset value) := by
  unfold writeWhole
  -- What happens to values that are no instance, and to instances of a wrong type.
  extract_lets plain
  have quiet_plain : Quiet (plain ()) := by
    unfold plain
    split
    case h_1 | h_2 => exact quiet_located_of_lt outside
    case h_3 => exact quiet_writeScalar_of_lt outside
  split
  case h_1 source =>
    split
    case isTrue same => exact quiet_copyInstance_of_lt same outside
    case isFalse =>
      split
      case isTrue => exact quiet_copyPointer_of_lt outside
      case isFalse =>
        split
        case isTrue =>
          refine quiet_get.bind fun heap => ?_
          exact (quiet_lift _).bind fun number => quiet_writeScalar_of_lt outside
        case isFalse => exact quiet_plain
  case h_2 => exact quiet_plain

/-- Nothing of a value is stored that does not fit as a whole. -/
theorem quiet_write_of_lt (outside : view.length < offset + type.size) :
    Quiet (view.write type offset value) := by
  cases value with
  | list items =>
    unfold write
    split
    case h_1 | h_2 => exact quiet_located_of_lt outside
    case h_3 => exact quiet_writeScalar_of_lt outside
  | record entries =>
    unfold write
    split
    case h_1 => exact quiet_located_of_lt outside
    case h_2 => exact quiet_writeWhole_of_lt outside
  | _ => exact quiet_writeWhole_of_lt outside

/-! ## Stores in a view -/

theorem covers_window (view : View) (offset length : Nat) :
    view.Covers (fun i => view.Reaches 0 view.length (i / 8)) offset length := by
  intro i above _ inside
  unfold place at above inside
  unfold Reaches place
  omega

theorem covers_reach (view : View) (offset length : Nat) :
    view.Covers (fun i => view.Reaches offset length (i / 8)) offset length := by
  intro i above below inside
  unfold place at above below inside
  unfold Reaches place
  omega

/-- A type that a registry makes, the integers of which are stored in their own bytes. -/
structure Tight (type : CType) : Prop where
  built : type.Built
  own : type.spills = false

theorem Tight.element {element : CType} {count : Nat} (tight : Tight (.array element count)) :
    Tight element :=
  ⟨tight.built.element.1, tight.own⟩

theorem Tight.member {layout : Layout} {member : Member} (tight : Tight (.composite layout))
    (mem : member ∈ layout.members) : Tight member.type :=
  ⟨tight.built.member rfl member mem, CType.spills_of_mem tight.own member mem⟩

theorem Tight.integral {layout : Layout} {member : Member} {slot : BitSlot}
    (tight : Tight (.composite layout)) (mem : member ∈ layout.members)
    (bits : member.bits = some slot) :
    member.type.isIntegral = true ∧ member.type.isShort = false :=
  ⟨(tight.built.shaped.proper member mem).integral (by simp [bits]),
    CType.isShort_of_spills (tight.member mem).own⟩

/-- A write stays in its window. -/
theorem touches_window (tight : Tight type) :
    Touches (fun i => view.Reaches 0 view.length (i / 8)) (· = view.block.id)
      (view.write type offset value) := by
  have assembly : Assembly view view
      (fun operation _ => Touches (fun i => view.Reaches 0 view.length (i / 8))
        (· = view.block.id) operation)
      (fun type _ => Tight type)
      (fun type _ _ => type.isIntegral = true ∧ type.isShort = false) := by
    refine touching rfl (fun _ => view.covers_window _ _) ?unit ?spares ?item ?member
    case unit =>
      intro size offset tight
      have covers := view.covers_window offset (CType.stray size).size
      exact sparesUnit_of_covers rfl (CType.isShort_of_spills tight.own) covers
    case spares =>
      intro type offset slot kind inside _ memory word i free
      have spares := sparesUnit_of_covers kind.1 kind.2 (view.covers_window offset type.size)
      exact spares inside memory _ i free
    case item => exact fun tight _ => tight.element
    case member =>
      intro layout offset member tight mem
      unfold MemberFits
      cases bits : member.bits with
      | none => exact tight.member mem
      | some slot => exact tight.integral mem bits
  exact assembly.write type offset value tight

/-- A part of a value, between two offsets of a view. -/
structure Nested (low high : Nat) (type : CType) (offset : Nat) : Prop where
  tight : Tight type
  first : low ≤ offset
  last : offset + type.size ≤ high

/-- A bit-field of a value, the storage unit of which lies between two offsets of a view. -/
structure NestedBits (low high : Nat) (type : CType) (offset : Nat) : Prop where
  kind : type.isIntegral = true ∧ type.isShort = false
  first : low ≤ offset
  last : offset + type.size ≤ high

theorem Nested.item {low high : Nat} {element : CType} {count i : Nat}
    (nested : Nested low high (.array element count) offset) (below : i < count) :
    Nested low high element (offset + i * element.size) := by
  obtain ⟨tight, first, last⟩ := nested
  have ends := element_le element.size below
  simp only [CType.size] at last
  exact ⟨tight.element, by omega, by omega⟩

theorem Nested.member {low high : Nat} {layout : Layout} {member : Member}
    (nested : Nested low high (.composite layout) offset)
    (mem : member ∈ layout.members) :
    MemberFits (Nested low high) (fun type offset _ => NestedBits low high type offset) offset
      member := by
  obtain ⟨tight, first, last⟩ := nested
  simp only [CType.size] at last
  have ends := (tight.built.contained.member member mem).1
  unfold Placed.endByte at ends
  unfold MemberFits
  cases bits : member.bits with
  | none => exact ⟨tight.member mem, by omega, by omega⟩
  | some slot => exact ⟨tight.integral mem bits, by omega, by omega⟩

/-- A write of a value stays in the bytes of the value, in which its parts lie. -/
theorem touches_value (tight : Tight type) :
    Touches (fun i => view.Reaches offset type.size (i / 8)) (· = view.block.id)
      (view.write type offset value) := by
  by_cases inside : offset + type.size ≤ view.length
  · -- The bytes stay those of the whole value while the write goes down into its parts.
    let bits := fun i => view.Reaches offset type.size (i / 8)
    have covers {part : CType} {place : Nat} (first : offset ≤ place)
        (last : place + part.size ≤ offset + type.size) : view.Covers bits place part.size := by
      obtain ⟨distance, rfl⟩ := Nat.exists_eq_add_of_le first
      exact (view.covers_reach offset type.size).part (by omega)
    have assembly : Assembly view view
        (fun operation _ => Touches bits (· = view.block.id) operation)
        (Nested offset (offset + type.size))
        (fun part place _ => NestedBits offset (offset + type.size) part place) := by
      refine touching rfl (fun nested => covers nested.first nested.last) ?unit ?spares
        (fun nested below => nested.item below) fun nested mem => nested.member mem
      case unit =>
        intro size place nested
        exact sparesUnit_of_covers rfl (CType.isShort_of_spills nested.tight.own)
          (covers nested.first nested.last)
      case spares =>
        intro part place slot nested inside _ memory word i free
        have spares := sparesUnit_of_covers nested.kind.1 nested.kind.2
          (covers nested.first nested.last)
        exact spares inside memory _ i free
    exact assembly.write type offset value ⟨tight, Nat.le_refl _, Nat.le_refl _⟩
  · exact touches_of_quiet (quiet_write_of_lt (Nat.not_le.mp inside))

end View

/-! ## Stores through pointers -/

namespace Heap

theorem touches_leak {bits blocks : Nat → Prop} {block : Block} (own : blocks block.id) :
    Touches bits blocks (modify (leak block) : HeapM Unit) := by
  intro heap
  refine ⟨Nat.le_refl _, Nat.le_refl _, fun _ _ _ => rfl, ?_⟩
  intro id _ free
  have other : id ≠ block.id := fun same => free (same ▸ own)
  exact if_neg other

end Heap

namespace Pointer

/-- How far behind the first byte of its block an element lies, as a number without bounds. -/
def elementPosition (p : Pointer) (start : UInt64) (index : Int64) : Int :=
  Word.signed start.toNat + index.toInt * Word.signed p.target.size

variable {p : Pointer} {block : Block} {start : UInt64}

/-- An element of a block is refused, or it lies at its position. -/
theorem element_inBlock (place : p.place = .inBlock block start) (operation : String)
    (index : Int64) :
    (∃ failure, p.element operation index = throw failure)
      ∨ ∃ position : Nat, (position : Int) = p.elementPosition start index
          ∧ p.element operation index = pure (block.view, position) := by
  unfold element elementSize
  by_cases empty : p.target.size = 0
  · rw [if_pos empty]
    exact .inl ⟨_, rfl⟩
  rw [if_neg empty]
  simp only [place]
  cases delta : Word.checked (index.toInt * Word.signed p.target.size) with
  | none =>
    refine .inl ⟨.outOfBounds operation Word.minSigned p.target.size block.length, ?_⟩
    simp [delta]
  | some distance =>
    obtain ⟨_, rfl⟩ := Word.checked_eq_some_iff.mp delta
    cases sum : Word.checked
        (Word.signed start.toNat + index.toInt * Word.signed p.target.size) with
    | none =>
      refine .inl ⟨.outOfBounds operation Word.minSigned p.target.size block.length, ?_⟩
      simp [delta, sum]
    | some position =>
      obtain ⟨_, same⟩ := Word.checked_eq_some_iff.mp sum
      cases position with
      | ofNat position => exact .inr ⟨position, same.symm, by simp [delta, sum]⟩
      | negSucc before =>
        refine .inl ⟨.outOfBounds operation (.negSucc before) p.target.size block.length, ?_⟩
        simp [delta, sum]

/-- A store through a pointer into a block does what the writes to the view of the block do. -/
theorem touches_setIndex {bits : Nat → Prop} {index : Int64} {value : Value}
    (place : p.place = .inBlock block start)
    (writes : ∀ position : Nat, (position : Int) = p.elementPosition start index →
      Touches bits (· = block.id) (block.view.write p.target position value)) :
    Touches bits (· = block.id) (p.setIndex index value) := by
  unfold setIndex
  rcases element_inBlock place "index_set" index with ⟨failure, refused⟩ | ⟨position, here, found⟩
  · rw [refused]
    exact touches_of_quiet fun _ => rfl
  · rw [found, pure_bind]
    refine (writes position here).bind fun _ => ?_
    split
    · exact Heap.touches_leak rfl
    · exact touches_of_quiet (quiet_pure _)

end Pointer

/-! ## The frame -/

namespace View

/-- Operations that store a number of bytes at a position of a view. -/
inductive StoresAt (view : View) : HeapM Unit → Int → Nat → Prop
  | write {type : CType} (tight : Tight type) (offset : Nat) (value : Value) :
    StoresAt view (view.write type offset value) offset type.size
  | writeBytes (offset : Nat) (bytes : Bytes) :
    StoresAt view (view.writeBytes offset bytes) offset bytes.length
  | zero (offset length : Nat) : StoresAt view (view.zero offset length) offset length
  | setIndex {p : Pointer} {block : Block} {start : UInt64} (tight : Tight p.target)
    (place : p.place = .inBlock block start) (whole : view = block.view) (index : Int64)
    (value : Value) :
    StoresAt view (p.setIndex index value) (p.elementPosition start index) p.target.size

/-- A store changes no byte outside of its view, and none but those that it is a store of, whether
it succeeds or fails at any depth. -/
theorem storesAt_frame {view : View} {operation : HeapM Unit} {position : Int} {length : Nat}
    (stores : view.StoresAt operation position length) :
    StaysWithin (view.Reaches 0 view.length) operation
      ∧ StaysWithin (view.Reaches position length) operation := by
  cases stores with
  | write tight offset value =>
    exact ⟨(touches_window tight).staysWithin, (touches_value tight).staysWithin⟩
  | writeBytes offset bytes =>
    have window : Touches _ Nothing (view.writeBytes offset bytes) :=
      touches_writeBytes (view.covers_window _ _)
    have own : Touches _ Nothing (view.writeBytes offset bytes) :=
      touches_writeBytes (view.covers_reach _ _)
    exact ⟨window.staysWithin, own.staysWithin⟩
  | zero offset length =>
    have window : Touches _ Nothing (view.zero offset length) :=
      touches_zero (view.covers_window _ _)
    have own : Touches _ Nothing (view.zero offset length) :=
      touches_zero (view.covers_reach _ _)
    exact ⟨window.staysWithin, own.staysWithin⟩
  | setIndex tight place whole index value =>
    subst whole
    refine ⟨(Pointer.touches_setIndex place fun _ _ => touches_window tight).staysWithin,
      (Pointer.touches_setIndex place fun position here => ?_).staysWithin⟩
    rw [← here]
    exact touches_value tight

/-- A block for three structs. -/
def mixedBlock : Block := ⟨0, 0x10000000000, 48, false⟩

/-- Storing a member of the second struct changes no byte of the others. -/
theorem mixed_frame :
    let write := mixedBlock.view.write (.composite Layout.mixedLayout) 16
      (.record [("low", .uint 5)])
    mixedBlock.view.StoresAt write 16 16
      ∧ StaysWithin (mixedBlock.view.Reaches 16 16) write := by
  have stores : mixedBlock.view.StoresAt _ 16 16 :=
    .write ⟨.composite Layout.mixed_built Layout.compute_mixed, rfl⟩ 16
      (.record [("low", .uint 5)])
  exact ⟨stores, (storesAt_frame stores).2⟩

/-- A wide character of three bytes is stored with the bytes behind it, of which one held 7. -/
theorem stray_spills :
    let block : Block := ⟨0, 0x10000000000, 16, false⟩
    let heap : Heap := { Heap.empty with memory := Memory.blank.store (block.base + 3) [7] }
    let after := (block.view.write (.stray 3) 0 (.uint 1) heap).2
    (CType.stray 3).Built ∧ (CType.stray 3).size = 3
      ∧ heap.memory.byte (block.base + 3) = 7 ∧ after.memory.byte (block.base + 3) = 0 :=
  ⟨CType.built_wide 3 (by decide), rfl, rfl, rfl⟩

end View

end CInterop
