import CInterop.Proofs.Layout.Storable

/-!
# Members that lie apart

Where no union occurs in a type, no two members of a composite share a bit, at any depth, and each
lies inside its composite (`Built.apart`). The members of an unnamed field lie in the bits of that
field, and fields lie one behind the other.
-/

namespace CInterop

namespace CType

mutual

/-- Whether a union occurs in a type: the type itself, that of its elements, or that of a field. -/
def hasUnion : CType → Bool
  | array element _ => element.hasUnion
  | composite layout => layout.kind = .union || fieldsHaveUnion layout.fields
  | _ => false
termination_by structural type => type

/-- Whether a union occurs in the type of some field. -/
def fieldsHaveUnion : List Field → Bool
  | [] => false
  | field :: rest => field.type.hasUnion || fieldsHaveUnion rest
termination_by structural fields => fields

end

theorem hasUnion_of_mem {fields : List Field} (none : fieldsHaveUnion fields = false) :
    ∀ field ∈ fields, field.type.hasUnion = false := by
  induction fields with
  | nil => simp
  | cons first rest ih =>
    simp only [fieldsHaveUnion, Bool.or_eq_false_iff] at none
    exact List.forall_mem_cons.mpr ⟨none.1, ih none.2⟩

end CType

namespace Layout

/-- Two members share no bit. -/
def BitsApart (member other : Member) : Prop :=
  member.endBit ≤ other.firstBit ∨ other.endBit ≤ member.firstBit

instance : Std.Symm BitsApart := ⟨fun _ _ => Or.symm⟩

theorem BitsApart.moved {member other : Member} (apart : BitsApart member other) (distance : Nat) :
    BitsApart (moved distance member) (Layout.moved distance other) := by
  unfold BitsApart at apart ⊢
  rw [firstBit_moved, firstBit_moved, endBit_moved, endBit_moved]
  omega

end Layout

/-- The members of the composites in a type lie inside and share no bits. -/
inductive CType.Apart : CType → Prop
  | undivided {type : CType} (undivided : type.Undivided) : Apart type
  | array {element : CType} {count : Nat} (apart : Apart element) : Apart (.array element count)
  | composite {layout : Layout}
      (stored : ∀ member ∈ layout.members, Layout.Stored layout.size member)
      (disjoint : layout.members.Pairwise Layout.BitsApart)
      (apart : ∀ member ∈ layout.members, Apart member.type) : Apart (.composite layout)

namespace CType.Apart

variable {layout : Layout} {part : Member}

theorem stored (apart : (CType.composite layout).Apart) (mem : part ∈ layout.members) :
    Layout.Stored layout.size part := by
  cases apart with
  | undivided whole => cases whole.2
  | composite all_stored _ _ => exact all_stored part mem

theorem disjoint (apart : (CType.composite layout).Apart) :
    layout.members.Pairwise Layout.BitsApart := by
  cases apart with
  | undivided whole => cases whole.2
  | composite _ beside _ => exact beside

theorem member (apart : (CType.composite layout).Apart) (mem : part ∈ layout.members) :
    part.type.Apart := by
  cases apart with
  | undivided whole => cases whole.2
  | composite _ _ members_apart => exact members_apart part mem

theorem element {inner : CType} {count : Nat} (apart : (CType.array inner count).Apart) :
    inner.Apart := by
  cases apart with
  | undivided whole => cases whole.1
  | array element_apart => exact element_apart

end CType.Apart

namespace Layout

/-- The members that a field contributes take its bits, and share none of them. -/
structure Houses (field : Field) (members : List Member) : Prop where
  lodged : ∀ member ∈ members, Lodged field member
  disjoint : members.Pairwise BitsApart
  apart : ∀ member ∈ members, member.type.Apart

variable {field : Field}

theorem houses_exposed (proper : Proper field) (apart : field.type.Apart) :
    Houses field (exposed field) := by
  unfold exposed
  split
  case h_1 =>
    refine
      { lodged := List.forall_mem_singleton.mpr ?lodged
        disjoint := List.pairwise_singleton _ _
        apart := List.forall_mem_singleton.mpr apart }
    exact ⟨Nat.le_refl _, Nat.le_refl _, Nat.le_refl _, proper.fits, proper.integral⟩
  case h_2 inner _ found plain =>
    have composite := CType.layout?_eq_some found
    rw [composite] at apart
    exact
      { lodged := List.forall_mem_map.mpr fun member mem =>
          lodged_moved composite plain (apart.stored mem)
        disjoint := List.pairwise_map.mpr
          (apart.disjoint.imp fun beside => beside.moved field.offset)
        apart := List.forall_mem_map.mpr fun member mem =>
          show member.type.Apart from apart.member mem }
  case h_3 => constructor <;> simp

/-- A struct whose fields lie one behind the other has members that share no bits. -/
theorem apart_of_houses {layout : Layout}
    (exposes : layout.members = layout.fields.flatMap exposed)
    (houses : ∀ field ∈ layout.fields, Houses field (exposed field))
    (inside : ∀ field ∈ layout.fields, field.endByte ≤ layout.size)
    (ordered : layout.fields.Pairwise Before) : (CType.composite layout).Apart := by
  have exposing {member : Member} (mem : member ∈ layout.members) :
      ∃ field ∈ layout.fields, member ∈ exposed field := List.mem_flatMap.mp (exposes ▸ mem)
  refine .composite ?stored ?disjoint ?apart
  case stored =>
    intro member mem
    obtain ⟨field, field_mem, found⟩ := exposing mem
    exact ((houses field field_mem).lodged member found).stored.grow (inside field field_mem)
  case disjoint =>
    rw [exposes]
    -- Members of one field share no bits, and members of two fields lie in the bits of these.
    refine List.pairwise_flatMap.mpr ⟨fun field mem => (houses field mem).disjoint, ?_⟩
    refine ordered.imp_of_mem ?_
    intro field later field_mem later_mem before member member_mem other other_mem
    have last := ((houses field field_mem).lodged member member_mem).last
    have first := ((houses later later_mem).lodged other other_mem).first
    have behind := before.bits
    exact .inl (by omega)
  case apart =>
    intro member mem
    obtain ⟨field, field_mem, found⟩ := exposing mem
    exact (houses field field_mem).apart member found

end Layout

namespace CType

/-- Where no union occurs, members lie apart. -/
theorem Built.apart {type : CType} (built : Built type) (unionFree : type.hasUnion = false) :
    Apart type := by
  induction built with
  | primitive described => exact .undivided (undivided_of_primitive described)
  | pointer => exact .undivided (undivided_pointerTo _ _)
  | array _ sized ih =>
    obtain ⟨_, _, rfl⟩ := Registry.array_eq_ok sized
    exact .array (ih unionFree)
  | @composite name kind decls packing layout built computed ih =>
    have settled := Layout.settled_of_compute built computed
    obtain ⟨not_union, fields_free⟩ :
        layout.kind ≠ .union ∧ fieldsHaveUnion layout.fields = false := by
      simpa [hasUnion] using unionFree
    have houses : ∀ field ∈ layout.fields, Layout.Houses field (Layout.exposed field) := by
      intro field mem
      obtain ⟨proper, decl, decl_mem, same⟩ := Layout.proper_of_compute computed field mem
      have field_apart : field.type.Apart := by
        rw [same]
        exact ih decl decl_mem (same ▸ hasUnion_of_mem fields_free field mem)
      exact Layout.houses_exposed proper field_apart
    have isStruct : kind = .struct := by
      obtain ⟨_, _, _, _, _, _, rfl⟩ := Layout.compute_eq_ok computed
      cases kind with
      | struct => rfl
      | union => exact absurd rfl not_union
    exact Layout.apart_of_houses (Layout.members_of_compute computed) houses settled.inside
      (settled.ordered isStruct)

end CType

end CInterop
