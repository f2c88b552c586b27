import CInterop.Proofs.Layout.Apart
import CInterop.Proofs.View.Confined

/-!
# What a read depends on

The value that is read for a type without pointers is told by the bits that the type takes
(`View.read_congr`), and that of a bit-field by its own bits of the storage unit. What a pointer
stands for also depends on what is kept alive.
-/

namespace CInterop

/-! ## Types without pointers -/

/-- No value of the type holds an address, at any depth of its members. -/
inductive CType.PointerFree : CType → Prop
  | void : PointerFree .void
  | bool : PointerFree .bool
  | int {name : String} {width : Width} {signed : Bool} {align : Nat} :
      PointerFree (.int name width signed align)
  | stray {bytes : Nat} : PointerFree (.stray bytes)
  | float {precision : Precision} {align : Nat} : PointerFree (.float precision align)
  | array {element : CType} {count : Nat} (free : PointerFree element) :
      PointerFree (.array element count)
  | composite {layout : Layout} (free : ∀ member ∈ layout.members, PointerFree member.type) :
      PointerFree (.composite layout)

theorem CType.holdsPointer_of_mem {fields : List Field} (bare : fieldsHoldPointer fields = false) :
    ∀ field ∈ fields, field.type.holdsPointer = false := by
  induction fields with
  | nil => simp
  | cons first rest ih =>
    simp only [fieldsHoldPointer, Bool.or_eq_false_iff] at bare
    exact List.forall_mem_cons.mpr ⟨bare.1, ih bare.2⟩

theorem CType.Built.pointerFree {type : CType} (built : type.Built)
    (bare : type.holdsPointer = false) : type.PointerFree := by
  induction built with
  | primitive described =>
    rcases primitive_cases described with rfl | rfl | ⟨_, _, _, _, _, rfl⟩ | ⟨_, _, _, rfl⟩
      | ⟨_, _, rfl⟩ | ⟨_, _, rfl⟩
    · exact .void
    · exact .bool
    · exact .int
    · exact .float
    · cases bare
    · exact .stray
  | @pointer registry target _ _ =>
    obtain ⟨pointee, same⟩ := pointerTo_eq registry target
    rw [same] at bare
    cases bare
  | array _ sized ih =>
    obtain ⟨_, _, rfl⟩ := Registry.array_eq_ok sized
    exact .array (ih bare)
  | @composite name kind decls packing layout _ computed ih =>
    refine .composite fun member mem => ?_
    rw [Layout.members_of_compute computed] at mem
    obtain ⟨field, field_mem, found⟩ := List.mem_flatMap.mp mem
    obtain ⟨_, decl, decl_mem, same⟩ := Layout.proper_of_compute computed field field_mem
    -- A promoted member is free of pointers because its unnamed field is.
    have field_free : field.type.PointerFree := by
      rw [same]
      exact ih decl decl_mem (same ▸ holdsPointer_of_mem bare field field_mem)
    rcases Layout.exposed_cases found with ⟨type, _, _⟩ | ⟨inner, part, composite, _, part_mem, rfl⟩
    · exact type ▸ field_free
    · rw [composite] at field_free
      cases field_free with
      | composite free => exact free part part_mem

namespace View

variable {view : View} {heap after : Heap} {type : CType} {offset count : Nat}

/-- Two heaps agree on some bits, counted from an offset of a view. -/
def AgreesOn (view : View) (offset low high : Nat) (heap after : Heap) : Prop :=
  ∀ i, low ≤ i → i < high →
    after.memory.bit (8 * view.place offset + i) = heap.memory.bit (8 * view.place offset + i)

theorem AgreesOn.part {low high distance size : Nat}
    (agrees : view.AgreesOn offset low high heap after) (above : low ≤ 8 * distance)
    (below : 8 * (distance + size) ≤ high) :
    view.AgreesOn (offset + distance) 0 (8 * size) heap after := by
  intro i _ inside
  rw [place_add, Nat.mul_add, Nat.add_assoc]
  exact agrees _ (by omega) (by omega)

theorem readWord_congr (small : count ≤ 8)
    (agrees : view.AgreesOn offset 0 (8 * count) heap after) :
    view.readWord after offset count = view.readWord heap offset count := by
  unfold readWord
  by_cases inside : offset + count ≤ view.length
  · rw [locate_of_le inside]
    exact congrArg Except.ok
      (Memory.loadWord_congr small fun i below => agrees i (Nat.zero_le _) below)
  · rw [locate_of_lt (Nat.not_le.mp inside)]
    rfl

theorem readBits_congr {slot : BitSlot} (fits : slot.offset + slot.width ≤ 8 * type.size)
    (agrees : view.AgreesOn offset slot.offset (slot.offset + slot.width) heap after) :
    view.readBits after type offset slot = view.readBits heap type offset slot := by
  by_cases inside : offset + type.size ≤ view.length
  · by_cases small : slot.offset < 64
    · have field : Bits.extract (after.memory.loadWord (view.place offset)
            (Bits.unitBytes type.size)) slot.offset slot.width
          = Bits.extract (heap.memory.loadWord (view.place offset) (Bits.unitBytes type.size))
            slot.offset slot.width := Spot.extract_unit_congr fits small agrees
      rw [Spot.readBits_of_le inside small, Spot.readBits_of_le inside small]
      exact congrArg
        (fun field => (.ok (Spot.fieldValue type field slot.width) : Except Failure Value)) field
    · unfold readBits Word.shift
      rw [locate_of_le inside, if_neg small]
      rfl
  · unfold readBits
    rw [locate_of_lt (Nat.not_le.mp inside)]
    rfl

/-- A member that is no bit-field is read as its type is, and a bit-field by its own bits. -/
theorem readMember_congr {member : Member} {base size : Nat} (stored : Layout.Stored size member)
    (agrees : view.AgreesOn base member.firstBit member.endBit heap after)
    (plain : ∀ offset, view.AgreesOn offset 0 (8 * member.type.size) heap after →
      view.read after member.type offset = view.read heap member.type offset) :
    view.readMember after member base = view.readMember heap member base := by
  have inside := stored.inside
  unfold Placed.endByte at inside
  unfold readMember
  cases bits : member.bits with
  | none =>
    have first := Placed.firstBit_of_plain bits
    have last := Placed.endBit_of_plain bits
    exact plain _ (agrees.part (by omega) (by omega))
  | some slot =>
    obtain ⟨-, fits⟩ := stored.slot slot bits
    refine readBits_congr fits fun i above below => ?_
    have first := Placed.firstBit_of_bits bits
    have last := Placed.endBit_of_bits bits
    rw [place_add, Nat.mul_add, Nat.add_assoc]
    exact agrees (8 * member.offset + i) (by omega) (by omega)

/-- A read depends on the bits of its type only. -/
theorem read_congr {type : CType} (apart : type.Apart) (free : type.PointerFree) {offset : Nat}
    (agrees : view.AgreesOn offset 0 (8 * type.size) heap after) :
    view.read after type offset = view.read heap type offset := by
  induction free generalizing offset with
  | void => rfl
  | bool =>
    have word : view.readWord after offset 1 = view.readWord heap offset 1 :=
      readWord_congr (by decide) agrees
    unfold read
    rw [word]
  | @int _ width =>
    unfold read
    rw [readWord_congr width.bytes_le agrees]
  | @stray bytes =>
    by_cases inside : offset + bytes ≤ view.length
    · unfold read
      rw [readUnit_of_le inside, readUnit_of_le inside]
      refine congrArg Except.ok (Spot.ofBits_unit_congr fun i below => ?_)
      exact agrees i (Nat.zero_le i) below
    · rw [read_of_lt rfl (Nat.not_le.mp inside), read_of_lt rfl (Nat.not_le.mp inside)]
  | @float precision =>
    cases precision with
    | single =>
      have word : view.readWord after offset 4 = view.readWord heap offset 4 :=
        readWord_congr (by decide) agrees
      unfold read
      rw [word]
    | double =>
      have word : view.readWord after offset 8 = view.readWord heap offset 8 :=
        readWord_congr (by decide) agrees
      unfold read
      rw [word]
  | @array element count _ ih =>
    have items : (List.range count).mapM
          (fun i => view.read after element (offset + i * element.size))
        = (List.range count).mapM
          (fun i => view.read heap element (offset + i * element.size)) := by
      refine mapM_congr fun i mem => ?_
      have inside := element_le element.size (List.mem_range.mp mem)
      simp only [CType.size] at agrees
      exact ih apart.element (agrees.part (by omega) (by omega))
    unfold read
    rw [items]
  | @composite layout _ ih =>
    simp only [CType.size] at agrees
    -- By induction on a part of the members, as all of them lie in the composite as a whole.
    have members (part : List Member) (some : ∀ member ∈ part, member ∈ layout.members) :
        readMembers after view part offset = readMembers heap view part offset := by
      induction part with
      | nil => rfl
      | cons member rest rest_ih =>
        obtain ⟨mem, others⟩ := List.forall_mem_cons.mp some
        have stored := apart.stored mem
        have slot_ends := stored.slot.endBit_le
        have ends := stored.inside
        have first : view.readMember after member offset = view.readMember heap member offset := by
          refine readMember_congr stored
            (fun i _ below => agrees i (Nat.zero_le _) (by omega)) fun place agrees => ?_
          exact ih member mem (apart.member mem) agrees
        rw [readMembers_cons, readMembers_cons, first, rest_ih others]
    unfold read
    rw [members layout.members fun _ mem => mem]

end View

end CInterop
