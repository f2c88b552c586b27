import CInterop.Proofs.Layout.Placing
import CInterop.Registry

/-!
# Types that are built by a registry

A registry makes types from the primitives of its platform by pointers, arrays and composites.
Types of several registries may be mixed. Every such type has a positive alignment and a size that
fits a word.
-/

namespace CInterop

namespace CType

theorem layout?_eq_some {type : CType} {layout : Layout} (composite : type.layout? = some layout) :
    type = .composite layout := by
  cases type <;> cases composite
  rfl

theorem element?_eq_some {type element : CType} {count : Nat}
    (array : type.element? = some (element, count)) : type = .array element count := by
  cases type <;> cases array
  rfl

/-- The types that registries make. -/
inductive Built : CType → Prop
  | primitive {platform : Platform} {primitive : Primitive} {type : CType}
      (described : primitive.type? platform = some type) : Built type
  | pointer {registry : Registry} {target : CType} (built : Built target) :
      Built (registry.pointerTo target)
  | array {element type : CType} {count : Nat} (built : Built element)
      (sized : Registry.array element count = .ok type) : Built type
  | composite {name : String} {kind : CompositeKind} {decls : List FieldDecl} {packing : Packing}
      {layout : Layout} (built : ∀ decl ∈ decls, Built decl.type)
      (computed : Layout.compute name kind decls packing = .ok layout) :
      Built (.composite layout)

end CType

namespace Registry

theorem array_eq_ok {element type : CType} {count : Nat}
    (sized : array element count = .ok type) :
    element.isVoid = false ∧ element.size * count < Word.modulus ∧ type = .array element count := by
  unfold array at sized
  split at sized
  · cases sized
  rename_i present
  split at sized
  · rename_i small
    cases sized
    exact ⟨by simpa using present, small, rfl⟩
  · cases sized

end Registry

namespace Width

theorem bytes_le (width : Width) : width.bytes ≤ 8 := by cases width <;> decide

theorem bits_pos (width : Width) : 0 < width.bits := by cases width <;> decide

theorem bits_le (width : Width) : width.bits ≤ 64 := by cases width <;> decide

theorem bytes_of_ofBytes? {bytes : Nat} {width : Width} (found : ofBytes? bytes = some width) :
    width.bytes = bytes := by
  have own := List.find?_some found
  exact beq_iff_eq.mp own

/-- Only one width fills a word. -/
theorem eq_w64 {width : Width} (wide : ¬ width.bytes < 8) : width = .w64 := by
  cases width with
  | w64 => rfl
  | _ => exact absurd (by decide) wide

end Width

namespace CType

theorem pointerTo_eq (registry : Registry) (target : CType) :
    ∃ pointee, registry.pointerTo target = .pointer pointee registry.platform.pointer := by
  unfold Registry.pointerTo
  split
  · exact ⟨_, rfl⟩
  · exact ⟨_, rfl⟩

/-- Wide characters have the size of other integers or are stray. -/
theorem wide_cases (bytes : Nat) :
    (∃ width : Width, width.bytes = bytes ∧ wide bytes = .natural "wchar_t" width (bytes = 4))
      ∨ wide bytes = .stray bytes := by
  unfold wide
  split
  · rename_i width found
    exact .inl ⟨width, Width.bytes_of_ofBytes? found, rfl⟩
  · exact .inr rfl

theorem size_wide (bytes : Nat) : (wide bytes).size = bytes := by
  rcases wide_cases bytes with ⟨width, same, wide⟩ | stray
  · rw [wide]
    exact same
  · rw [stray]
    rfl

/-- The primitives are scalars, and their sizes are those of integers. The bits of a wide character
can be counted. -/
theorem primitive_cases {platform : Platform} {primitive : Primitive} {type : CType}
    (described : primitive.type? platform = some type) :
    type = .void ∨ type = .bool
      ∨ (∃ name width signed align, 0 < align ∧ type = .int name width signed align)
      ∨ (∃ precision align, 0 < align ∧ type = .float precision align)
      ∨ (∃ target width, type = .pointer target width)
      ∨ ∃ bytes, 8 * bytes < Word.modulus ∧ type = .stray bytes := by
  have long_align : 0 < if platform.long = .w64 then max 1 platform.int64Align
      else platform.long.bytes := by
    split
    · omega
    · exact platform.long.bytes_pos
  cases primitive <;> simp only [Primitive.type?, natural, Option.some.injEq, reduceCtorEq]
    at described <;> subst described
  case void => exact .inl rfl
  case bool => exact .inr (.inl rfl)
  case float => exact .inr (.inr (.inr (.inl ⟨_, _, by decide, rfl⟩)))
  case double => exact .inr (.inr (.inr (.inl ⟨_, _, by omega, rfl⟩)))
  case pointer | cstring | wstring => exact .inr (.inr (.inr (.inr (.inl ⟨_, _, rfl⟩))))
  case wchar =>
    rcases wide_cases platform.wchar with ⟨width, -, wide⟩ | stray
    · exact .inr (.inr (.inl ⟨_, _, _, _, width.bytes_pos, wide⟩))
    · exact .inr (.inr (.inr (.inr (.inr ⟨_, platform.counted, stray⟩))))
  case long | ulong => exact .inr (.inr (.inl ⟨_, _, _, _, long_align, rfl⟩))
  case int64 | uint64 => exact .inr (.inr (.inl ⟨_, _, _, _, by omega, rfl⟩))
  all_goals exact .inr (.inr (.inl ⟨_, _, _, _, Width.bytes_pos _, rfl⟩))

end CType

namespace Layout

theorem PlacingAll.align_le {kind : CompositeKind} {packing : Packing} {cursor last : Cursor}
    {decls : List FieldDecl} {fields : List Field}
    (steps : PlacingAll kind packing cursor decls last fields) : cursor.align ≤ last.align := by
  induction steps with
  | nil => exact Nat.le_refl _
  | cons first _ ih =>
    refine Nat.le_trans ?_ ih
    cases first <;> exact Nat.le_max_left _ _

end Layout

namespace CType.Built

theorem align_pos {type : CType} (built : Built type) : 0 < type.align := by
  induction built with
  | primitive described =>
    rcases primitive_cases described with rfl | rfl | ⟨_, _, _, _, positive, rfl⟩
      | ⟨_, _, positive, rfl⟩ | ⟨_, width, rfl⟩ | ⟨bytes, _, rfl⟩
    · decide
    · decide
    · exact positive
    · exact positive
    · exact width.bytes_pos
    · exact Nat.le_max_left 1 bytes
  | @pointer registry target _ _ =>
    obtain ⟨pointee, same⟩ := pointerTo_eq registry target
    rw [same]
    exact Width.bytes_pos _
  | array _ sized positive =>
    obtain ⟨_, _, rfl⟩ := Registry.array_eq_ok sized
    exact positive
  | composite _ computed _ =>
    obtain ⟨_, cursor, fields, placed, _, _, rfl⟩ := Layout.compute_eq_ok computed
    exact (Layout.placingAll_of_placeAll Word.modulus_pos placed).align_le

theorem size_lt {type : CType} (built : Built type) : type.size < Word.modulus := by
  induction built with
  | primitive described =>
    rcases primitive_cases described with rfl | rfl | ⟨_, width, _, _, _, rfl⟩
      | ⟨precision, _, _, rfl⟩ | ⟨_, width, rfl⟩ | ⟨bytes, counted, rfl⟩
    · decide
    · decide
    · exact Nat.lt_of_le_of_lt width.bytes_le (by decide)
    · cases precision <;> simp [CType.size, Precision.bytes, Word.modulus]
    · exact Nat.lt_of_le_of_lt width.bytes_le (by decide)
    · exact Nat.lt_of_le_of_lt (Nat.le_mul_of_pos_left bytes (by decide)) counted
  | @pointer registry target _ _ =>
    obtain ⟨pointee, same⟩ := pointerTo_eq registry target
    rw [same]
    exact Nat.lt_of_le_of_lt (Width.bytes_le _) (by decide)
  | array _ sized _ =>
    obtain ⟨_, small, rfl⟩ := Registry.array_eq_ok sized
    exact small
  | composite _ computed _ =>
    obtain ⟨_, cursor, fields, _, _, rounded, rfl⟩ := Layout.compute_eq_ok computed
    exact rounded

end CType.Built

/-! ## Stray sizes

Integers are loaded and stored as one, two, four or eight bytes. A wide character of another size is
loaded and stored as eight, which are more bytes than it has, or not all of them.
-/

namespace CType

section Parts

variable (scalar : CType → Bool) (field : Member → Bool)

mutual

/-- Whether something is so of a type without parts, or of some part of a value: an element or a
member that is found by name, which may be a bit-field. -/
def hasPart : CType → Bool
  | array element _ => element.hasPart
  | composite layout => membersHavePart layout.members
  | type => scalar type
termination_by structural type => type

/-- Whether it is so of some member. -/
def membersHavePart : List Member → Bool
  | [] => false
  | member :: rest => field member || member.type.hasPart || membersHavePart rest
termination_by structural members => members

end

variable {scalar field} in
theorem hasPart_composite_iff {layout : Layout} :
    (composite layout).hasPart scalar field = false
      ↔ ∀ member ∈ layout.members,
          field member = false ∧ member.type.hasPart scalar field = false := by
  show membersHavePart scalar field layout.members = false ↔ _
  generalize layout.members = members
  induction members with
  | nil => simp [membersHavePart]
  | cons first rest ih =>
    rw [List.forall_mem_cons, ← ih]
    simp only [membersHavePart, Bool.or_eq_false_iff]

end Parts

/-- Wide characters of fewer than eight bytes that are loaded and stored as eight. -/
def isShort : CType → Bool
  | stray bytes => bytes < 8
  | _ => false

/-- Whether a value has an integer that is loaded and stored with bytes behind it. -/
def spills (type : CType) : Bool := type.hasPart isShort fun _ => false

/-- Whether a value has a bit-field that begins behind the word that its storage unit is loaded
as. -/
def strands (type : CType) : Bool :=
  type.hasPart (fun _ => false) fun member => member.bits.any (64 ≤ ·.offset)

theorem spills_of_mem {layout : Layout} (own : (composite layout).spills = false) :
    ∀ member ∈ layout.members, member.type.spills = false := fun member mem =>
  (hasPart_composite_iff.mp own member mem).2

theorem strands_of_mem {layout : Layout} (near : (composite layout).strands = false) :
    ∀ member ∈ layout.members,
      (∀ slot, member.bits = some slot → slot.offset < 64) ∧ member.type.strands = false := by
  intro member mem
  obtain ⟨own, inside⟩ := hasPart_composite_iff.mp near member mem
  refine ⟨fun slot bits => ?_, inside⟩
  simpa [bits] using own

theorem isShort_of_spills {type : CType} (own : type.spills = false) : type.isShort = false := by
  cases type with
  | stray => exact own
  | _ => rfl

/-- There are platforms with wide characters of any size whose bits can be counted. -/
theorem built_wide (bytes : Nat) (counted : 8 * bytes < Word.modulus) : (wide bytes).Built :=
  .primitive (rfl : Primitive.wchar.type? { Platform.host with wchar := bytes, counted } = some _)

end CType

end CInterop
