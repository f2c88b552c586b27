import CInterop.Proofs.Instance.Copying

/-!
# Which reads succeed

Reading a value checks the bounds again for every element and member, so that it succeeds as soon
as the value lies in the view depends on where the parts lie. For the types of a registry a read can
fail for its bounds only (`View.read_ends`), and since members end inside their composites it looks
at the bytes of the value only, which is to say that those bytes alone are enough of a view. This
leaves out bit-fields that begin behind the word which is loaded, as those in a wide character of
sixteen bytes may (`View.distant_unread`).
-/

namespace CInterop

namespace View

variable {heap after : Heap} {view : View} {type : CType} {offset count : Nat}

/-- So many bytes at an offset of a view, as a view of their own. -/
def cut (view : View) (offset length : Nat) : View := ⟨view.block, view.start + offset, length⟩

/-! ## How reads fail -/

theorem locate_ends (view : View) (operation : String) (offset length : Nat) :
    Ends (view.locate operation offset length) (fun _ => True) Failure.LeavesBounds := by
  by_cases inside : offset + length ≤ view.length
  · rw [locate_of_le inside]
    exact trivial
  · rw [locate_of_lt (Nat.not_le.mp inside)]
    exact ⟨_, _, _, _, rfl⟩

theorem readWord_ends (heap : Heap) (view : View) (offset count : Nat) :
    Ends (view.readWord heap offset count) (fun _ => True) Failure.LeavesBounds :=
  (locate_ends view "read" offset count).bind fun _ _ => trivial

theorem readUnit_ends (heap : Heap) (view : View) (offset size : Nat) :
    Ends (view.readUnit heap offset size) (fun _ => True) Failure.LeavesBounds :=
  (locate_ends view "read" offset size).bind fun _ _ => trivial

/-- A bit-field that begins in the word that is read is moved to its start. -/
theorem readBits_ends {slot : BitSlot} (near : slot.offset < 64) :
    Ends (view.readBits heap type offset slot) (fun _ => True) Failure.LeavesBounds := by
  refine (locate_ends view "read" _ _).bind fun _ _ => ?_
  rw [Word.shift_of_lt near]
  exact trivial

theorem readMember_ends {member : Member} {base : Nat}
    (near : ∀ slot, member.bits = some slot → slot.offset < 64)
    (read : ∀ offset,
      Ends (view.read heap member.type offset) (fun _ => True) Failure.LeavesBounds) :
    Ends (view.readMember heap member base) (fun _ => True) Failure.LeavesBounds := by
  unfold readMember
  cases bits : member.bits with
  | some slot => exact readBits_ends (near slot bits)
  | none => exact read _

theorem readMembers_ends {members : List Member} {base : Nat}
    (each : ∀ member ∈ members,
      Ends (view.readMember heap member base) (fun _ => True) Failure.LeavesBounds) :
    Ends (readMembers heap view members base) (fun _ => True) Failure.LeavesBounds := by
  induction members with
  | nil => exact trivial
  | cons member rest ih =>
    obtain ⟨first, others⟩ := List.forall_mem_cons.mp each
    rw [readMembers_cons]
    exact first.bind fun _ _ => (ih others).bind fun _ _ => trivial

/-- A value of a type that a registry makes is read, or lies outside of the view in some part. -/
theorem read_ends (built : type.Built) (near : type.strands = false)
    (present : type.isVoid = false) :
    Ends (view.read heap type offset) (fun _ => True) Failure.LeavesBounds := by
  have shaped := built.shaped
  induction shaped generalizing offset with
  | @undivided type undivided =>
    cases type with
    | void => cases present
    | bool | int | pointer => exact (readWord_ends heap view _ _).bind fun _ _ => trivial
    | stray size => exact (readUnit_ends heap view _ size).bind fun _ _ => trivial
    | float precision =>
      cases precision <;> exact (readWord_ends heap view _ _).bind fun _ _ => trivial
    | array => cases undivided.1
    | composite => cases undivided.2
  | array _ ih =>
    obtain ⟨element_built, element_present⟩ := built.element
    refine (locate_ends view "read" _ _).bind fun _ _ => ?_
    exact (Ends.mapM fun i _ => ih element_built near element_present).bind fun _ _ => trivial
  | composite distinct proper shaped ih =>
    refine (locate_ends view "read" _ _).bind fun _ _ => ?_
    refine (readMembers_ends fun member mem => ?_).bind fun _ _ => trivial
    obtain ⟨own, inside⟩ := CType.strands_of_mem near member mem
    exact readMember_ends own fun place =>
      ih member mem (built.member rfl member mem) inside (proper member mem).present

theorem exists_read (built : type.Built) (near : type.strands = false)
    (present : type.isVoid = false) (inside : offset + type.size ≤ view.length) :
    ∃ value, view.read heap type offset = .ok value :=
  (read_staysInside built.contained inside).exists_ok (read_ends built near present)

/-! ## What reads look at -/

/-- Some bytes of a view are found in every heap that agrees on them, whether they are looked for in
the view or in these bytes alone. -/
theorem mirrors_cut (inside : offset + type.size ≤ view.length)
    (agrees : view.AgreesOn offset 0 (8 * type.size) heap after) :
    Spot.Mirrors ⟨view, offset⟩ after (view.cut offset type.size) heap := by
  refine ⟨⟨inside⟩, fun i below => ?_⟩
  have here : (view.cut offset type.size).place 0 = view.place offset := by
    simp only [place, cut]
    omega
  rw [here]
  exact agrees i (Nat.zero_le i) below

/-- What is read of the bytes of a value alone is read of the view that they lie in, also in a heap
that differs elsewhere. -/
theorem read_of_cut (built : type.Built) (inside : offset + type.size ≤ view.length)
    (agrees : view.AgreesOn offset 0 (8 * type.size) heap after)
    (denotes : ∀ target address, after.pointerValue view.block target address
      = heap.pointerValue view.block target address) {value : Value}
    (read : (view.cut offset type.size).read heap type 0 = .ok value) :
    view.read after type offset = .ok value := by
  obtain ⟨result, found, same⟩ :=
    (mirrors_cut inside agrees).carries built.shaped value read
  obtain rfl := same.mpr fun _ target _ _ => denotes target _
  exact found

/-- A value that lies in a view is read there as it is of its own bytes alone. -/
theorem exists_read_cut (built : type.Built) (near : type.strands = false)
    (present : type.isVoid = false) (inside : offset + type.size ≤ view.length) :
    ∃ value, view.read heap type offset = .ok value
      ∧ (view.cut offset type.size).read heap type 0 = .ok value := by
  have whole : 0 + type.size ≤ (view.cut offset type.size).length :=
    Nat.le_of_eq (Nat.zero_add _)
  obtain ⟨value, read⟩ : ∃ value, (view.cut offset type.size).read heap type 0 = .ok value :=
    exists_read built near present whole
  exact ⟨value, read_of_cut built inside (fun _ _ _ => rfl) (fun _ _ => rfl) read, read⟩

end View

namespace CType

/-- An integer that is read with a value, behind so many bytes of it: the value itself, an integer
in an element, or one in a member, which may be the storage unit of a bit-field. -/
inductive IntegerAt : CType → Nat → CType → Prop
  | here {type : CType} (integral : type.isIntegral = true) : IntegerAt type 0 type
  | item {element integer : CType} {count i offset : Nat} (below : i < count)
      (rest : IntegerAt element offset integer) :
      IntegerAt (.array element count) (i * element.size + offset) integer
  | member {layout : Layout} {member : Member} {integer : CType} {offset : Nat}
      (mem : member ∈ layout.members) (rest : IntegerAt member.type offset integer) :
      IntegerAt (.composite layout) (member.offset + offset) integer

/-- The storage units of integers lie in the value if none of them is short. -/
theorem IntegerAt.inside {type integer : CType} {offset : Nat}
    (place : type.IntegerAt offset integer) (contained : type.Contained)
    (own : type.spills = false) :
    offset + Bits.unitBytes integer.size ≤ type.size := by
  induction place with
  | here integral =>
    rw [Nat.zero_add]
    exact Spot.unitBytes_le integral (isShort_of_spills own)
  | @item element _ count i _ below _ ih =>
    have ends := View.element_le element.size below
    have inner := ih contained.element own
    simp only [size]
    omega
  | @member layout member _ _ mem _ ih =>
    obtain ⟨ends, inside⟩ := contained.member member mem
    have inner := ih inside (spills_of_mem own member mem)
    unfold Placed.endByte at ends
    simp only [size]
    omega

/-- Values of a type are read from their own bytes. -/
structure ReadsInside (type : CType) : Prop where
  /-- Where the value does not lie in the view, it is refused. -/
  refused : ∀ (heap : Heap) (view : View) (offset : Nat), view.length < offset + type.size →
    view.read heap type offset
      = .error (.outOfBounds "read" (Word.signed offset) type.size view.length)
  /-- Where it does, it is read, and the view needs no other bytes. -/
  alone : ∀ (heap : Heap) (view : View) (offset : Nat),
    offset + type.size ≤ view.length →
      ∃ value, view.read heap type offset = .ok value
        ∧ (view.cut offset type.size).read heap type 0 = .ok value
  /-- No other bits are told, apart from what addresses stand for. -/
  told : ∀ (heap after : Heap) (view : View) (offset : Nat),
    view.AgreesOn offset 0 (8 * type.size) heap after →
      (∀ target address, after.pointerValue view.block target address
        = heap.pointerValue view.block target address) →
      view.read after type offset = view.read heap type offset
  /-- The storage unit of an integer is loaded from the bytes of the value. -/
  units : ∀ {offset integer}, type.IntegerAt offset integer →
    offset + Bits.unitBytes integer.size ≤ type.size

end CType

namespace View

/-- Of a type that a registry makes, a value is read exactly if it lies in the view, and from no
other bytes than its own. It must have no integer that is loaded with bytes behind it, and no
bit-field that begins behind the word which is loaded. -/
theorem readsInside {type : CType} (built : type.Built) (own : type.spills = false)
    (near : type.strands = false) (present : type.isVoid = false) : type.ReadsInside where
  refused _ _ _ outside := read_of_lt present outside
  alone _ _ _ inside := exists_read_cut built near present inside
  units place := place.inside built.contained own
  told heap after view offset agrees denotes := by
    by_cases inside : offset + type.size ≤ view.length
    · obtain ⟨value, read, alone⟩ : ∃ value, view.read heap type offset = .ok value
          ∧ (view.cut offset type.size).read heap type 0 = .ok value :=
        exists_read_cut built near present inside
      rw [read, read_of_cut built inside agrees denotes alone]
    · rw [read_of_lt present (Nat.not_le.mp inside), read_of_lt present (Nat.not_le.mp inside)]

/-- A struct with bit-fields is read from its own bytes. -/
theorem mixed_readsInside :
    (CType.composite Layout.mixedLayout).Built
      ∧ (CType.composite Layout.mixedLayout).spills = false
      ∧ (CType.composite Layout.mixedLayout).strands = false
      ∧ (CType.composite Layout.mixedLayout).isVoid = false
      ∧ (CType.composite Layout.mixedLayout).ReadsInside := by
  have built : (CType.composite Layout.mixedLayout).Built :=
    .composite Layout.mixed_built Layout.compute_mixed
  exact ⟨built, rfl, rfl, rfl, readsInside built rfl rfl rfl⟩

end View

namespace Layout

/-- Two bit-fields in a wide character of sixteen bytes, and a byte behind it. -/
def distantDecls : List FieldDecl :=
  [⟨some "low", .stray 16, some 64⟩, ⟨some "high", .stray 16, some 8⟩,
    ⟨some "a", .natural "uint8" .w8 false, none⟩]

/-- Where they are placed. The second bit-field begins behind the first word of the unit. -/
def distantLayout : Layout :=
  { name := "Distant", kind := .struct, packing := .natural
    fields := [⟨some "low", .stray 16, 0, some ⟨0, 64⟩⟩, ⟨some "high", .stray 16, 0, some ⟨64, 8⟩⟩,
      ⟨some "a", .natural "uint8" .w8 false, 16, none⟩]
    members := [⟨"low", .stray 16, 0, some ⟨0, 64⟩⟩, ⟨"high", .stray 16, 0, some ⟨64, 8⟩⟩,
      ⟨"a", .natural "uint8" .w8 false, 16, none⟩]
    size := 32, align := 16 }

theorem distant_built : (CType.composite distantLayout).Built := by
  have byte := CType.Built.primitive (rfl : Primitive.uint8.type? .host = some _)
  have odd : (CType.stray 16).Built := CType.built_wide 16 (by decide)
  have built : ∀ decl ∈ distantDecls, decl.type.Built := by
    simpa only [distantDecls, List.forall_mem_cons] using ⟨odd, odd, byte, by simp⟩
  exact .composite built (rfl : compute "Distant" .struct distantDecls .natural = .ok _)

end Layout

namespace View

/-- The whole lies in the view, and the shift that would move the second bit-field to the end of its
unit overflows. And a wide character of three bytes is loaded with the five bytes behind it. -/
theorem distant_unread :
    let block : Block := ⟨0, 0x10000000000, 32, false⟩
    ((CType.composite Layout.distantLayout).Built
        ∧ (CType.composite Layout.distantLayout).size ≤ block.view.length
        ∧ block.view.read .empty (.composite Layout.distantLayout) 0
            = .error (.overflow "shift right"))
      ∧ (CType.stray 3).Built ∧ (CType.stray 3).IntegerAt 0 (.stray 3)
        ∧ Bits.unitBytes (CType.stray 3).size = (CType.stray 3).size + 5 :=
  ⟨⟨Layout.distant_built, Nat.le_refl _, rfl⟩, CType.built_wide 3 (by decide), .here rfl, rfl⟩

end View

end CInterop
