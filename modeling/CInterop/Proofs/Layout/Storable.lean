import CInterop.Proofs.Layout.Members

/-!
# Types whose values can be stored again

A plain type is built from truth values, integers and doubles by arrays and structs, and by unions
whose scalars are all integers. `CType.Storable` is what storing a value member by member needs of
it: members lie inside, and two of them share no bits unless both consist of integers. Every plain
type that a registry makes is storable (`Built.storable`).
-/

namespace CInterop

namespace CType

mutual

/-- Whether all scalars of a type are integers. -/
def onlyIntegers : CType → Bool
  | int .. | stray _ => true
  | array element _ => element.onlyIntegers
  | composite layout => fieldsOnlyIntegers layout.fields
  | _ => false
termination_by structural type => type

/-- Whether all scalars of some fields are integers. -/
def fieldsOnlyIntegers : List Field → Bool
  | [] => true
  | field :: rest => field.type.onlyIntegers && fieldsOnlyIntegers rest
termination_by structural fields => fields

end

mutual

/-- Whether a type is built from truth values, integers and doubles, where a union has integers
only. -/
def isPlain : CType → Bool
  | bool | int .. | stray _ | float .double _ => true
  | array element _ => element.isPlain
  | composite layout =>
    match layout.kind with
    | .struct => fieldsPlain layout.fields
    | .union => fieldsOnlyIntegers layout.fields
  | _ => false
termination_by structural type => type

/-- Whether the types of some fields are plain. -/
def fieldsPlain : List Field → Bool
  | [] => true
  | field :: rest => field.type.isPlain && fieldsPlain rest
termination_by structural fields => fields

end

theorem onlyIntegers_of_isStray {type : CType} (stray : type.isStray = true) :
    type.onlyIntegers = true := by
  cases type with
  | stray => rfl
  | _ => cases stray

theorem isVoid_of_isPlain {type : CType} (plain : type.isPlain = true) : type.isVoid = false := by
  cases type with
  | void => cases plain
  | _ => rfl

theorem onlyIntegers_of_mem {fields : List Field} (integers : fieldsOnlyIntegers fields = true) :
    ∀ field ∈ fields, field.type.onlyIntegers = true := by
  induction fields with
  | nil => simp
  | cons first rest ih =>
    simp only [fieldsOnlyIntegers, Bool.and_eq_true] at integers
    intro field mem
    rcases List.mem_cons.mp mem with rfl | later
    · exact integers.1
    · exact ih integers.2 field later

theorem isPlain_of_mem {fields : List Field} (plain : fieldsPlain fields = true) :
    ∀ field ∈ fields, field.type.isPlain = true := by
  induction fields with
  | nil => simp
  | cons first rest ih =>
    simp only [fieldsPlain, Bool.and_eq_true] at plain
    intro field mem
    rcases List.mem_cons.mp mem with rfl | later
    · exact plain.1
    · exact ih plain.2 field later

end CType

namespace Layout

/-- Storing one of two members does not lose the other: they share no bits, or both consist of
integers. -/
def Compatible (member other : Member) : Prop :=
  member.endBit ≤ other.firstBit ∨ other.endBit ≤ member.firstBit
    ∨ member.type.onlyIntegers = true ∧ other.type.onlyIntegers = true

theorem Compatible.symm {member other : Member} (compatible : Compatible member other) :
    Compatible other member := by
  rcases compatible with before | behind | integers
  · exact .inr (.inl before)
  · exact .inl behind
  · exact .inr (.inr integers.symm)

/-- A member lies inside a composite of some size, and is a bit-field only of an integer type. -/
structure Stored (size : Nat) (member : Member) : Prop where
  inside : member.endByte ≤ size
  slot : member.SlotFits
  integral : member.bits.isSome → member.type.isIntegral = true

theorem Stored.grow {size larger : Nat} {member : Member} (stored : Stored size member)
    (more : size ≤ larger) : Stored larger member :=
  { stored with inside := Nat.le_trans stored.inside more }

end Layout

/-- The types whose values can be stored part by part. -/
inductive CType.Storable : CType → Prop
  | bool : Storable .bool
  | int {name : String} {width : Width} {signed : Bool} {align : Nat} :
      Storable (.int name width signed align)
  | stray {bytes : Nat} (long : 8 ≤ bytes) : Storable (.stray bytes)
  | double {align : Nat} : Storable (.float .double align)
  | array {element : CType} {count : Nat} (storable : Storable element) :
      Storable (.array element count)
  | composite {layout : Layout} (distinct : (layout.members.map (·.name)).Nodup)
      (stored : ∀ member ∈ layout.members, Layout.Stored layout.size member)
      (integers : CType.fieldsOnlyIntegers layout.fields = true →
        ∀ member ∈ layout.members, member.type.onlyIntegers = true)
      (compatible : layout.members.Pairwise Layout.Compatible)
      (storable : ∀ member ∈ layout.members, Storable member.type) : Storable (.composite layout)

namespace Layout

/-- What the members of one field promise: they take bits of the field, and storing one does not
lose another. -/
structure Inherits (field : Field) (members : List Member) : Prop where
  first : ∀ member ∈ members, field.firstBit ≤ member.firstBit
  last : ∀ member ∈ members, member.endBit ≤ field.endBit
  stored : ∀ member ∈ members, Stored field.endByte member
  integers : field.type.onlyIntegers = true → ∀ member ∈ members, member.type.onlyIntegers = true
  compatible : members.Pairwise Compatible
  storable : ∀ member ∈ members, member.type.Storable

/-- A member at a place that many bytes further on. -/
def moved (distance : Nat) (member : Member) : Member :=
  { member with offset := distance + member.offset }

theorem firstBit_moved (distance : Nat) (member : Member) :
    (moved distance member).firstBit = 8 * distance + member.firstBit := by
  obtain ⟨_, _, _, bits⟩ := member
  cases bits <;> simp only [moved, Placed.firstBit] <;> omega

theorem endBit_moved (distance : Nat) (member : Member) :
    (moved distance member).endBit = 8 * distance + member.endBit := by
  obtain ⟨_, _, _, bits⟩ := member
  cases bits <;> simp only [moved, Placed.endBit] <;> omega

theorem Compatible.moved {member other : Member} (compatible : Compatible member other)
    (distance : Nat) : Compatible (moved distance member) (Layout.moved distance other) := by
  unfold Compatible
  rw [firstBit_moved, firstBit_moved, endBit_moved, endBit_moved]
  rcases compatible with before | behind | integers
  · exact .inl (by omega)
  · exact .inr (.inl (by omega))
  · exact .inr (.inr integers)

/-- A member takes bits of a field, and is stored in its bytes. -/
structure Lodged (field : Field) (member : Member) : Prop where
  first : field.firstBit ≤ member.firstBit
  last : member.endBit ≤ field.endBit
  stored : Stored field.endByte member

section

variable {field : Field} {inner : Layout} {member : Member}

theorem lodged_moved (composite : field.type = .composite inner) (plain : field.bits = none)
    (stored : Stored inner.size member) : Lodged field (moved field.offset member) := by
  have first := Placed.firstBit_of_plain plain
  have last := Placed.endBit_of_plain plain
  have slot_ends := stored.slot.endBit_le
  have ends := stored.inside
  rw [composite, CType.size] at last
  refine ⟨?_, ?_, ?_, stored.slot, stored.integral⟩
  · rw [firstBit_moved, first]
    exact Nat.le_add_right _ _
  · rw [endBit_moved, last, first]
    omega
  · simp only [Placed.endByte, moved, composite, CType.size] at ends ⊢
    omega

end

/-- The members of an unnamed composite keep their distances when they are moved to its place. -/
theorem inherits_moved {field : Field} {inner : Layout} (composite : field.type = .composite inner)
    (plain : field.bits = none) (storable : field.type.Storable) :
    Inherits field (inner.members.map (moved field.offset)) := by
  rw [composite] at storable
  cases storable with
  | composite _ stored integers compatible members_storable =>
    have lodged := fun member mem => lodged_moved composite plain (stored member mem)
    exact
      { first := List.forall_mem_map.mpr fun member mem => (lodged member mem).first
        last := List.forall_mem_map.mpr fun member mem => (lodged member mem).last
        stored := List.forall_mem_map.mpr fun member mem => (lodged member mem).stored
        integers := fun all => List.forall_mem_map.mpr (integers (by rwa [composite] at all))
        compatible := List.pairwise_map.mpr
          (compatible.imp fun compatible => compatible.moved field.offset)
        storable := List.forall_mem_map.mpr members_storable }

/-- The type of a field with members has no integers that are stored with bytes behind it, if those
of the members have none. -/
theorem spills_of_exposed {field : Field} (seen : exposed field ≠ [])
    (own : ∀ member ∈ exposed field, member.type.spills = false) : field.type.spills = false := by
  revert seen own
  unfold exposed
  split <;> intro seen own
  case h_1 => exact own _ (List.mem_singleton_self _)
  case h_2 inner _ composite _ =>
    rw [CType.layout?_eq_some composite]
    refine CType.hasPart_composite_iff.mpr fun part mem => ⟨rfl, ?_⟩
    exact own (moved field.offset part) (List.mem_map_of_mem mem)
  case h_3 => exact absurd rfl seen

theorem inherits_exposed {field : Field} (proper : Proper field)
    (storable : exposed field ≠ [] → field.type.Storable) :
    Inherits field (exposed field) := by
  by_cases hidden : exposed field = []
  · rw [hidden]
    constructor <;> simp
  replace storable := storable hidden
  unfold exposed
  split
  · refine
      { first := List.forall_mem_singleton.mpr (Nat.le_refl _)
        last := List.forall_mem_singleton.mpr (Nat.le_refl _)
        stored := List.forall_mem_singleton.mpr ⟨Nat.le_refl _, proper.fits, proper.integral⟩
        integers := fun all => List.forall_mem_singleton.mpr all
        compatible := List.pairwise_singleton _ _
        storable := List.forall_mem_singleton.mpr storable }
  · rename_i inner _ composite plain
    exact inherits_moved (CType.layout?_eq_some composite) plain storable
  · constructor <;> simp

/-- Storing a member of one field of a composite does not lose a member of another field. -/
theorem pairwise_compatible {kind : CompositeKind} {fields : List Field}
    (inherits : ∀ field ∈ fields, Inherits field (exposed field))
    (ordered : kind = .struct → fields.Pairwise Before)
    (integers : kind = .union → CType.fieldsOnlyIntegers fields = true) :
    (fields.flatMap exposed).Pairwise Compatible := by
  refine List.pairwise_flatMap.mpr ⟨fun field mem => (inherits field mem).compatible, ?_⟩
  cases kind with
  | struct =>
    refine (ordered rfl).imp_of_mem ?_
    intro field later field_mem later_mem before member member_mem other other_mem
    have last := (inherits field field_mem).last member member_mem
    have first := (inherits later later_mem).first other other_mem
    have apart := before.bits
    exact .inl (by omega)
  | union =>
    have all := CType.onlyIntegers_of_mem (integers rfl)
    refine (List.pairwise_of_forall fun _ _ => trivial).imp_of_mem (R := fun _ _ => True) ?_
    intro field later field_mem later_mem _ member member_mem other other_mem
    exact .inr (.inr
      ⟨(inherits field field_mem).integers (all field field_mem) member member_mem,
        (inherits later later_mem).integers (all later later_mem) other other_mem⟩)

/-- A composite whose fields have what they need is stored part by part. -/
theorem storable_of_inherits {layout : Layout}
    (exposes : layout.members = layout.fields.flatMap exposed)
    (distinct : (layout.members.map (·.name)).Nodup)
    (inherits : ∀ field ∈ layout.fields, Inherits field (exposed field))
    (inside : ∀ field ∈ layout.fields, field.endByte ≤ layout.size)
    (ordered : layout.kind = .struct → layout.fields.Pairwise Before)
    (integers : layout.kind = .union → CType.fieldsOnlyIntegers layout.fields = true) :
    (CType.composite layout).Storable := by
  have exposing {member : Member} (mem : member ∈ layout.members) :
      ∃ field ∈ layout.fields, member ∈ exposed field := List.mem_flatMap.mp (exposes ▸ mem)
  refine .composite distinct ?stored ?integers ?compatible ?storable
  case stored =>
    intro member mem
    obtain ⟨field, field_mem, found⟩ := exposing mem
    exact ((inherits field field_mem).stored member found).grow (inside field field_mem)
  case integers =>
    intro all member mem
    obtain ⟨field, field_mem, found⟩ := exposing mem
    have only := CType.onlyIntegers_of_mem all field field_mem
    exact (inherits field field_mem).integers only member found
  case compatible =>
    rw [exposes]
    exact pairwise_compatible inherits ordered integers
  case storable =>
    intro member mem
    obtain ⟨field, field_mem, found⟩ := exposing mem
    exact (inherits field field_mem).storable member found

end Layout

namespace CType

/-- The fields of a plain composite are plain, and those of a union hold only integers. -/
theorem plain_of_mem {layout : Layout}
    (plain : (composite layout).isPlain = true ∨ (composite layout).onlyIntegers = true)
    {field : Field} (mem : field ∈ layout.fields) :
    field.type.isPlain = true ∨ field.type.onlyIntegers = true := by
  obtain ⟨name, kind, packing, fields, members, size, align⟩ := layout
  rcases plain with plain | integers
  · cases kind with
    | struct => exact .inl (isPlain_of_mem plain field mem)
    | union => exact .inr (onlyIntegers_of_mem plain field mem)
  · exact .inr (onlyIntegers_of_mem integers field mem)

/-- Every type whose scalars are integers, or truth values and doubles outside of unions, is stored
part by part, if its integers are stored in their own bytes. -/
theorem Built.storable_of {type : CType} (built : Built type)
    (plain : type.isPlain = true ∨ type.onlyIntegers = true) (own : type.spills = false) :
    Storable type := by
  induction built with
  | primitive described =>
    rcases primitive_cases described with rfl | rfl | ⟨_, _, _, _, _, rfl⟩ | ⟨precision, _, _, rfl⟩
      | ⟨_, _, rfl⟩ | ⟨_, _, rfl⟩
    · simp [isPlain, onlyIntegers] at plain
    · exact .bool
    · exact .int
    · cases precision with
      | single => simp [isPlain, onlyIntegers] at plain
      | double => exact .double
    · simp [isPlain, onlyIntegers] at plain
    · exact .stray (by simpa [isShort] using isShort_of_spills own)
  | @pointer registry target _ =>
    obtain ⟨pointee, same⟩ := pointerTo_eq registry target
    rw [same] at plain
    simp [isPlain, onlyIntegers] at plain
  | array _ sized ih =>
    obtain ⟨_, _, rfl⟩ := Registry.array_eq_ok sized
    exact .array (ih plain own)
  | @composite name kind decls packing layout built computed ih =>
    have settled := Layout.settled_of_compute built computed
    have inherits : ∀ field ∈ layout.fields, Layout.Inherits field (Layout.exposed field) := by
      intro field mem
      obtain ⟨proper, decl, decl_mem, same⟩ := Layout.proper_of_compute computed field mem
      refine Layout.inherits_exposed proper fun seen => ?_
      have exposes := Layout.members_of_compute computed
      have field_own : field.type.spills = false := by
        refine Layout.spills_of_exposed seen fun member found => ?_
        exact spills_of_mem own member (exposes ▸ List.mem_flatMap.mpr ⟨field, mem, found⟩)
      rw [same] at field_own ⊢
      exact ih decl decl_mem (same ▸ plain_of_mem plain mem) field_own
    obtain ⟨_, _, _, _, _, _, rfl⟩ := Layout.compute_eq_ok computed
    refine Layout.storable_of_inherits rfl (Layout.nodup_of_compute computed) inherits
      settled.inside settled.ordered ?integers
    case integers =>
      rintro rfl
      rcases plain with plain | integers
      · exact plain
      · exact integers

theorem Built.storable {type : CType} (built : Built type) (plain : type.isPlain = true)
    (own : type.spills = false) : type.Storable :=
  built.storable_of (.inl plain) own

end CType

end CInterop
