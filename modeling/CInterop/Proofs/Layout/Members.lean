import CInterop.Proofs.Layout.WellPlaced

/-!
# Members of composites

A member is a named field, or a member of an unnamed composite field at its place in the enclosing
composite. `exposed_cases` tells the two apart, so that what holds of fields is carried over to
members through any number of unnamed composites.

`CType.Shaped` says what every type of a registry promises of its members, and `CType.Contained`
that members end inside their composite.
-/

namespace CInterop

namespace Layout

/-! ## Names -/

/-- Members are entered when their places are words and their names are new. -/
theorem enterAll_eq_ok_iff {composite : String} {seen : List String} {members : List Member} :
    enterAll composite seen members = .ok () ↔
      (∀ member ∈ members, member.offset < Word.modulus)
        ∧ (members.map (·.name)).Nodup ∧ ∀ member ∈ members, member.name ∉ seen := by
  induction members generalizing seen with
  | nil => exact iff_of_true rfl ⟨by simp, by simp, by simp⟩
  | cons member rest ih =>
    unfold enterAll
    by_cases beyond : Word.modulus ≤ member.offset
    · rw [if_pos beyond]
      refine iff_of_false (fun entered => nomatch entered) ?_
      exact fun ⟨small, _⟩ => Nat.not_lt.mpr beyond (small member List.mem_cons_self)
    rw [if_neg beyond]
    by_cases old : member.name ∈ seen
    · rw [if_pos (List.contains_iff_mem.mpr old)]
      refine iff_of_false (fun entered => nomatch entered) ?_
      exact fun ⟨_, _, fresh⟩ => fresh member List.mem_cons_self old
    rw [if_neg (by simpa using old), ih]
    rw [List.forall_mem_cons, List.forall_mem_cons, List.map_cons, List.nodup_cons]
    simp only [List.mem_cons, not_or, List.mem_map, not_exists, not_and]
    constructor
    · rintro ⟨small, distinct, fresh⟩
      exact ⟨⟨Nat.not_le.mp beyond, small⟩,
        ⟨fun other mem same => (fresh other mem).1 same, distinct⟩,
        old, fun other mem => (fresh other mem).2⟩
    · rintro ⟨⟨_, small⟩, ⟨new, distinct⟩, _, fresh⟩
      exact ⟨small, distinct, fun other mem => ⟨new other mem, fresh other mem⟩⟩

/-- Members whose places are words are entered, unless a name occurs twice. -/
theorem enterAll_of_lt (composite : String) (seen : List String) {members : List Member}
    (small : ∀ member ∈ members, member.offset < Word.modulus) :
    enterAll composite seen members = .ok ()
      ∨ ∃ twice, enterAll composite seen members = .error (.invalidField composite twice .duplicate)
          ∧ (2 ≤ (members.map (·.name)).count twice
            ∨ twice ∈ seen ∧ twice ∈ members.map (·.name)) := by
  induction members generalizing seen with
  | nil => exact .inl rfl
  | cons member rest ih =>
    obtain ⟨own, later⟩ := List.forall_mem_cons.mp small
    rw [List.map_cons]
    unfold enterAll
    rw [if_neg (Nat.not_le.mpr own)]
    by_cases old : member.name ∈ seen
    · rw [if_pos (List.contains_iff_mem.mpr old)]
      exact .inr ⟨member.name, rfl, .inr ⟨old, List.mem_cons_self⟩⟩
    rw [if_neg (by simpa using old)]
    refine (ih _ later).imp_right ?_
    rintro ⟨twice, refused, many | ⟨before, again⟩⟩
    · exact ⟨twice, refused, .inl (Nat.le_trans many List.count_le_count_cons)⟩
    rcases List.mem_cons.mp before with rfl | before
    · have more := List.count_pos_iff.mpr again
      refine ⟨member.name, refused, .inl ?_⟩
      rw [List.count_cons_self]
      omega
    · exact ⟨twice, refused, .inr ⟨before, List.mem_cons_of_mem _ again⟩⟩

/-- Whether members whose places are words are entered depends on their names only. -/
theorem enterAll_congr {composite : String} {seen : List String} {members others : List Member}
    (names : members.map (·.name) = others.map (·.name))
    (small : ∀ member ∈ members, member.offset < Word.modulus)
    (small' : ∀ member ∈ others, member.offset < Word.modulus) :
    enterAll composite seen members = enterAll composite seen others := by
  induction members generalizing seen others with
  | nil =>
    obtain rfl := List.map_eq_nil_iff.mp names.symm
    rfl
  | cons member rest ih =>
    obtain ⟨other, rest', rfl, alike, tails⟩ := List.map_eq_cons_iff.mp names.symm
    obtain ⟨own, later⟩ := List.forall_mem_cons.mp small
    obtain ⟨own', later'⟩ := List.forall_mem_cons.mp small'
    unfold enterAll
    rw [if_neg (Nat.not_le.mpr own), if_neg (Nat.not_le.mpr own'), alike,
      ih tails.symm later later']

theorem mem_of_member? {layout : Layout} {name : String} {member : Member}
    (found : layout.member? name = some member) : member ∈ layout.members ∧ member.name = name :=
  ⟨List.mem_of_find?_eq_some found, by simpa using List.find?_some found⟩

/-- Where names are distinct, every member is found under its name. -/
theorem member?_name {layout : Layout} (distinct : (layout.members.map (·.name)).Nodup)
    {member : Member} (mem : member ∈ layout.members) :
    layout.member? member.name = some member := by
  unfold member?
  revert distinct mem
  generalize layout.members = members
  intro distinct mem
  induction members with
  | nil => cases mem
  | cons first rest ih =>
    rw [List.map_cons, List.nodup_cons] at distinct
    rcases List.mem_cons.mp mem with rfl | later
    · simp
    · have other : first.name ≠ member.name := fun same =>
        distinct.1 (same ▸ List.mem_map_of_mem later)
      rw [List.find?_cons_of_neg (by simpa using other)]
      exact ih distinct.2 later

/-! ## Fields and members -/

/-- A member is a field, or a member of an unnamed composite moved to the place of that. -/
theorem exposed_cases {field : Field} {member : Member} (found : member ∈ exposed field) :
    (member.type = field.type ∧ member.offset = field.offset ∧ member.bits = field.bits)
      ∨ ∃ inner part, field.type = .composite inner ∧ field.bits = none
          ∧ part ∈ inner.members
          ∧ member = { part with offset := field.offset + part.offset } := by
  unfold exposed at found
  split at found
  · obtain rfl := List.mem_singleton.mp found
    exact .inl ⟨rfl, rfl, rfl⟩
  · rename_i inner unnamed composite plain
    obtain ⟨part, mem, rfl⟩ := List.mem_map.mp found
    exact .inr ⟨inner, part, CType.layout?_eq_some composite, plain, mem, rfl⟩
  · cases found

/-- What placing promises of a field. -/
structure Proper {ν : Type} (part : Placed ν CType) : Prop where
  present : part.type.isVoid = false
  integral : part.bits.isSome → part.type.isIntegral = true
  fits : part.SlotFits

theorem Placing.proper {align : Nat} {cursor next : Cursor} {decl : FieldDecl}
    {kind : CompositeKind} {field : Field} (sound : decl.Sound)
    (step : Placing align cursor decl kind next (some field)) : Proper field := by
  have fits := step.slotFits
  cases step with
  | ordinary | overlay => exact ⟨sound.present, (fun bits => nomatch bits), fits⟩
  | join bits | start bits | overlayBits bits =>
    exact ⟨sound.present, fun _ => sound.integral _ bits, fits⟩

theorem PlacingAll.proper {kind : CompositeKind} {packing : Packing} {cursor last : Cursor}
    {decls : List FieldDecl} {fields : List Field} (sound : ∀ decl ∈ decls, decl.Sound)
    (steps : PlacingAll kind packing cursor decls last fields) :
    ∀ field ∈ fields, Proper field ∧ ∃ decl ∈ decls, field.type = decl.type := by
  induction steps with
  | nil => simp
  | @cons _ _ _ decl _ _ _ first _ ih =>
    obtain ⟨own, later_sound⟩ := List.forall_mem_cons.mp sound
    intro field member
    rcases List.mem_append.mp member with placed | later
    · rw [Option.mem_toList] at placed
      subst placed
      exact ⟨first.proper own, decl, List.mem_cons_self, first.type_eq⟩
    · obtain ⟨proper, decl, mem, same⟩ := ih later_sound field later
      exact ⟨proper, decl, List.mem_cons_of_mem _ mem, same⟩

section

variable {name : String} {kind : CompositeKind} {decls : List FieldDecl} {packing : Packing}
  {layout : Layout}

theorem proper_of_compute (computed : compute name kind decls packing = .ok layout) :
    ∀ field ∈ layout.fields, Proper field ∧ ∃ decl ∈ decls, field.type = decl.type := by
  obtain ⟨_, cursor, fields, placed, _, _, rfl⟩ := compute_eq_ok computed
  exact (placingAll_of_placeAll Word.modulus_pos placed).proper
    (eq_of_placeAll Word.modulus_pos placed).1

theorem members_of_compute (computed : compute name kind decls packing = .ok layout) :
    layout.members = layout.fields.flatMap exposed := by
  obtain ⟨_, _, _, _, _, _, rfl⟩ := compute_eq_ok computed
  rfl

theorem nodup_of_compute (computed : compute name kind decls packing = .ok layout) :
    (layout.members.map (·.name)).Nodup := by
  obtain ⟨_, _, _, _, entered, _, rfl⟩ := compute_eq_ok computed
  exact (enterAll_eq_ok_iff.mp entered).2.1

/-- The type of a member is one that was declared, or that of a member of such a type. -/
theorem member_cases (computed : compute name kind decls packing = .ok layout) {member : Member}
    (mem : member ∈ layout.members) :
    (∃ decl ∈ decls, member.type = decl.type)
      ∨ ∃ decl inner part, decl ∈ decls ∧ decl.type = .composite inner
          ∧ part ∈ inner.members ∧ member.type = part.type := by
  rw [members_of_compute computed] at mem
  obtain ⟨field, field_mem, found⟩ := List.mem_flatMap.mp mem
  obtain ⟨_, decl, decl_mem, same⟩ := proper_of_compute computed field field_mem
  rcases exposed_cases found with ⟨type, _, _⟩ | ⟨inner, part, composite, _, part_mem, rfl⟩
  · exact .inl ⟨decl, decl_mem, type.trans same⟩
  · exact .inr ⟨decl, inner, part, decl_mem, same.symm.trans composite, part_mem, rfl⟩

/-- What the fields of a composite promise. -/
structure Settled (kind : CompositeKind) (layout : Layout) : Prop where
  inside : ∀ field ∈ layout.fields, field.endByte ≤ layout.size
  ordered : kind = .struct → layout.fields.Pairwise Before

theorem settled_of_compute (built : ∀ decl ∈ decls, decl.type.Built)
    (computed : compute name kind decls packing = .ok layout) : Settled kind layout := by
  obtain ⟨accepted, cursor, fields, placed, _, _, rfl⟩ := compute_eq_ok computed
  have steps := placingAll_of_placeAll Word.modulus_pos placed
  have inside := inside_of_placeAll accepted built placed
  refine ⟨inside, ?_⟩
  rintro rfl
  exact steps.ordered (effective_pos_of_built accepted built) Cursor.sound_start

end

end Layout

namespace CType

/-- A type whose values have no parts of their own. -/
def Undivided (type : CType) : Prop := type.element? = none ∧ type.layout? = none

/-- Members have distinct names, at every depth, and are placed properly. -/
inductive Shaped : CType → Prop
  | undivided {type : CType} (undivided : type.Undivided) : Shaped type
  | array {element : CType} {count : Nat} (shaped : Shaped element) : Shaped (.array element count)
  | composite {layout : Layout} (distinct : (layout.members.map (·.name)).Nodup)
      (proper : ∀ member ∈ layout.members, Layout.Proper member)
      (shaped : ∀ member ∈ layout.members, Shaped member.type) : Shaped (.composite layout)

theorem Shaped.distinct {layout : Layout} (shaped : Shaped (.composite layout)) :
    (layout.members.map (·.name)).Nodup := by
  cases shaped with
  | undivided undivided => cases undivided.2
  | composite distinct => exact distinct

theorem Shaped.proper {layout : Layout} (shaped : Shaped (.composite layout)) :
    ∀ member ∈ layout.members, Layout.Proper member := by
  cases shaped with
  | undivided undivided => cases undivided.2
  | composite _ proper => exact proper

/-- Members end inside their composite, at every depth. -/
inductive Contained : CType → Prop
  | undivided {type : CType} (undivided : type.Undivided) : Contained type
  | array {element : CType} {count : Nat} (contained : Contained element) :
      Contained (.array element count)
  | composite {layout : Layout} (inside : ∀ member ∈ layout.members, member.endByte ≤ layout.size)
      (contained : ∀ member ∈ layout.members, Contained member.type) :
      Contained (.composite layout)

theorem Contained.element {element : CType} {count : Nat}
    (contained : Contained (.array element count)) : Contained element := by
  cases contained with
  | undivided undivided => cases undivided.1
  | array contained => exact contained

theorem Contained.member {layout : Layout} (contained : Contained (.composite layout)) :
    ∀ member ∈ layout.members, member.endByte ≤ layout.size ∧ Contained member.type := by
  cases contained with
  | undivided undivided => cases undivided.2
  | composite inside contained => exact fun member mem => ⟨inside member mem, contained member mem⟩

theorem undivided_of_primitive {platform : Platform} {primitive : Primitive} {type : CType}
    (described : primitive.type? platform = some type) : type.Undivided := by
  rcases primitive_cases described with rfl | rfl | ⟨_, _, _, _, _, rfl⟩ | ⟨_, _, _, rfl⟩
    | ⟨_, _, rfl⟩ | ⟨_, _, rfl⟩ <;> exact ⟨rfl, rfl⟩

theorem undivided_pointerTo (registry : Registry) (target : CType) :
    (registry.pointerTo target).Undivided := by
  obtain ⟨pointee, same⟩ := pointerTo_eq registry target
  rw [same]
  exact ⟨rfl, rfl⟩

theorem isScalar_of_isIntegral {type : CType} (integral : type.isIntegral = true) :
    type.isScalar = true := by
  rw [isScalar, integral, Bool.true_or, Bool.true_or]

theorem Built.shaped {type : CType} (built : Built type) : Shaped type := by
  induction built with
  | primitive described => exact .undivided (undivided_of_primitive described)
  | pointer => exact .undivided (undivided_pointerTo _ _)
  | array _ sized shaped =>
    obtain ⟨_, _, rfl⟩ := Registry.array_eq_ok sized
    exact .array shaped
  | @composite _ _ _ _ layout _ computed shaped =>
    have members : ∀ member ∈ layout.members, Layout.Proper member ∧ Shaped member.type := by
      intro member mem
      rw [Layout.members_of_compute computed] at mem
      obtain ⟨field, field_mem, found⟩ := List.mem_flatMap.mp mem
      obtain ⟨field_proper, decl, decl_mem, same⟩ :=
        Layout.proper_of_compute computed field field_mem
      have field_shaped := same ▸ shaped decl decl_mem
      rcases Layout.exposed_cases found with ⟨type, _, bits⟩
        | ⟨inner, part, composite, _, part_mem, rfl⟩
      · refine ⟨⟨?_, ?_, ?_⟩, type ▸ field_shaped⟩
        · rw [type]
          exact field_proper.present
        · rw [type, bits]
          exact field_proper.integral
        · unfold Placed.SlotFits
          rw [type, bits]
          exact field_proper.fits
      · rw [composite] at field_shaped
        cases field_shaped with
        | undivided undivided => cases undivided.2
        | composite _ inner_proper inner_shaped =>
          have part_proper := inner_proper part part_mem
          exact ⟨⟨part_proper.present, part_proper.integral, part_proper.fits⟩,
            inner_shaped part part_mem⟩
    exact .composite (Layout.nodup_of_compute computed)
      (fun member mem => (members member mem).1) (fun member mem => (members member mem).2)

/-- A registry also made the types of the members. -/
theorem Built.member {type : CType} (built : Built type) {layout : Layout}
    (composite : type = .composite layout) : ∀ member ∈ layout.members, Built member.type := by
  induction built generalizing layout with
  | primitive described =>
    subst composite
    cases (undivided_of_primitive described).2
  | @pointer registry target =>
    have undivided := undivided_pointerTo registry target
    rw [composite] at undivided
    cases undivided.2
  | array _ sized =>
    obtain ⟨_, _, rfl⟩ := Registry.array_eq_ok sized
    cases composite
  | composite built computed ih =>
    cases composite
    intro member mem
    rcases Layout.member_cases computed mem with ⟨decl, decl_mem, same⟩
      | ⟨decl, inner, part, decl_mem, inner_eq, part_mem, same⟩
    · rw [same]
      exact built decl decl_mem
    · rw [same]
      exact ih decl decl_mem inner_eq part part_mem

/-- A registry also made the type of the elements, which take space. -/
theorem Built.element {element : CType} {count : Nat} (built : Built (.array element count)) :
    Built element ∧ element.isVoid = false := by
  generalize whole : CType.array element count = type at built
  cases built with
  | primitive described =>
    subst whole
    cases (undivided_of_primitive described).1
  | @pointer registry target =>
    have undivided := undivided_pointerTo registry target
    rw [← whole] at undivided
    cases undivided.1
  | array built sized =>
    obtain ⟨present, _, rfl⟩ := Registry.array_eq_ok sized
    cases whole
    exact ⟨built, present⟩
  | composite => cases whole

/-- Members end inside their composite: no sum of a layout leaves the words. -/
theorem Built.contained {type : CType} (built : Built type) : Contained type := by
  induction built with
  | primitive described => exact .undivided (undivided_of_primitive described)
  | pointer => exact .undivided (undivided_pointerTo _ _)
  | array _ sized contained =>
    obtain ⟨_, _, rfl⟩ := Registry.array_eq_ok sized
    exact .array contained
  | @composite _ _ _ _ layout built computed contained =>
    have settled := Layout.settled_of_compute built computed
    have members : ∀ member ∈ layout.members,
        member.endByte ≤ layout.size ∧ Contained member.type := by
      intro member mem
      rw [Layout.members_of_compute computed] at mem
      obtain ⟨field, field_mem, found⟩ := List.mem_flatMap.mp mem
      obtain ⟨_, decl, decl_mem, same⟩ := Layout.proper_of_compute computed field field_mem
      have field_contained := same ▸ contained decl decl_mem
      have field_inside := settled.inside field field_mem
      rcases Layout.exposed_cases found with ⟨type, offset, _⟩
        | ⟨inner, part, composite, _, part_mem, rfl⟩
      · refine ⟨?_, type ▸ field_contained⟩
        rw [Placed.endByte, type, offset]
        exact field_inside
      · rw [composite] at field_contained
        rw [Placed.endByte, composite] at field_inside
        cases field_contained with
        | undivided undivided => cases undivided.2
        | composite inner_inside inner_contained =>
          have part_inside := inner_inside part part_mem
          simp only [Placed.endByte, CType.size] at part_inside field_inside ⊢
          exact ⟨by omega, inner_contained part part_mem⟩
    exact .composite (fun member mem => (members member mem).1)
      (fun member mem => (members member mem).2)

end CType

end CInterop
