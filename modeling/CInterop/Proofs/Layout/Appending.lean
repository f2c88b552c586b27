import CInterop.Proofs.Layout.Packing

/-!
# Fields that are appended

A declaration that goes on leaves the fields that it had where they were: its further fields are
placed from the cursor that the earlier ones left, with the storage unit that is open there
(`placeAll_append`). Each step may only add to the space that is needed and to the alignment, so
that the longer declaration does not get smaller (`compute_append`). The largest of alignments that
are no powers of two need not be a multiple of the others (`uneven_not_extends`).
-/

namespace CInterop

namespace Layout

/-! ## Placing goes on -/

section Placement

variable {name : String} {kind : CompositeKind} {packing : Packing} {cursor next last : Cursor}
  {decl : FieldDecl} {decls : List FieldDecl} {field : Option Field} {fields : List Field}

/-- What is placed behind other fields is placed from the cursor that these left. -/
theorem placeAll_append (xs ys : List FieldDecl) :
    placeAll name kind packing cursor (xs ++ ys) = (do
      let (middle, first) ← placeAll name kind packing cursor xs
      let (last, second) ← placeAll name kind packing middle ys
      pure (last, first ++ second)) := by
  induction xs generalizing cursor with
  | nil => simp [placeAll]
  | cons decl rest ih => simp [placeAll, ih]

theorem placeAll_append_eq_ok {xs ys : List FieldDecl}
    (placed : placeAll name kind packing cursor (xs ++ ys) = .ok (last, fields)) :
    ∃ middle first second, placeAll name kind packing cursor xs = .ok (middle, first)
      ∧ placeAll name kind packing middle ys = .ok (last, second) ∧ fields = first ++ second := by
  rw [placeAll_append] at placed
  obtain ⟨⟨middle, first⟩, own, placed⟩ := bind_eq_ok.mp placed
  obtain ⟨⟨_, second⟩, rest, same⟩ := bind_eq_ok.mp placed
  cases same
  exact ⟨middle, first, second, own, rest, rfl⟩

end Placement

/-! ## Whole layouts -/

/-- A layout begins with all that another one has, at the same places, and is aligned as it and no
smaller. -/
structure Extends (larger layout : Layout) : Prop where
  fields : layout.fields <+: larger.fields
  members : layout.members <+: larger.members
  size : layout.size ≤ larger.size
  align : layout.align ∣ larger.align

variable {name : String} {kind : CompositeKind} {packing : Packing} {xs ys : List FieldDecl}
  {larger : Layout}

/-- Appending fields to a declaration moves none of those that it had, and none of its members. It
does not make the composite smaller or less aligned. -/
theorem compute_append
    (powers : ∀ decl ∈ xs ++ ys, decl.type.align.isPowerOfTwo)
    (computed : compute name kind (xs ++ ys) packing = .ok larger) :
    ∃ layout, compute name kind xs packing = .ok layout ∧ larger.Extends layout := by
  obtain ⟨accepted, last, fields, placed, entered, rounded, rfl⟩ := compute_eq_ok computed
  obtain ⟨middle, first, second, own, rest, rfl⟩ := placeAll_append_eq_ok placed
  obtain ⟨ahead, behind⟩ := List.forall_mem_append.mp powers
  have steps := placingAll_of_placeAll Word.modulus_pos own
  have others := placingAll_of_placeAll (fits_of_placeAll Word.modulus_pos own) rest
  have power := steps.isPowerOfTwo accepted ahead ⟨0, rfl⟩
  have aligned := (others.align_dvd accepted behind power).1
  have size := roundUp_mono others.size_le aligned
    (Nat.pos_of_isPowerOfTwo (others.isPowerOfTwo accepted behind power))
  obtain ⟨small, distinct, -⟩ := enterAll_eq_ok_iff.mp entered
  rw [List.flatMap_append] at small distinct
  rw [List.map_append] at distinct
  have own_entered : enterAll name [] (first.flatMap exposed) = .ok () :=
    enterAll_eq_ok_iff.mpr ⟨(List.forall_mem_append.mp small).1, (List.nodup_append.mp distinct).1,
      by simp⟩
  refine ⟨_, compute_of_placed accepted own own_entered (Nat.lt_of_le_of_lt size rounded),
    ⟨?fields, ?members, size, aligned⟩⟩
  case fields => exact List.prefix_append _ _
  case members =>
    rw [List.flatMap_append]
    exact List.prefix_append _ _

/-- The fields behind the first bit-field: the next one joins the storage unit that it left open. -/
theorem mixed_append :
    (∀ decl ∈ mixedDecls.take 2 ++ mixedDecls.drop 2, decl.type.align.isPowerOfTwo)
      ∧ compute "Mixed" .struct (mixedDecls.take 2 ++ mixedDecls.drop 2) .natural
          = .ok mixedLayout
      ∧ ∃ layout, compute "Mixed" .struct (mixedDecls.take 2) .natural = .ok layout
        ∧ mixedLayout.Extends layout ∧ layout.size = 8 := by
  have whole : mixedDecls.take 2 ++ mixedDecls.drop 2 = mixedDecls := List.take_append_drop 2 _
  have powers := whole.symm ▸ mixed_powers
  obtain ⟨layout, own, extended⟩ := compute_append powers compute_mixed
  refine ⟨powers, compute_mixed, layout, own, extended, ?_⟩
  cases own
  rfl

/-- Two bytes, and a wide character of three. -/
def unevenDecls : List FieldDecl :=
  [⟨some "a", .natural "uint16" .w16 false, none⟩, ⟨some "z", .stray 3, none⟩]

/-- The alignment of the whole is the largest one of the fields, and no multiple of the others. -/
theorem uneven_not_extends :
    (∀ decl ∈ unevenDecls, decl.type.Built)
      ∧ ∃ larger layout, compute "Uneven" .struct unevenDecls .natural = .ok larger
        ∧ compute "Uneven" .struct (unevenDecls.take 1) .natural = .ok layout
        ∧ larger.align = 3 ∧ layout.align = 2 ∧ ¬ larger.Extends layout := by
  have short := CType.Built.primitive (rfl : Primitive.uint16.type? .host = some _)
  have odd : (CType.stray 3).Built := CType.built_wide 3 (by decide)
  refine ⟨?built, _, _, rfl, rfl, rfl, rfl, fun extended => ?_⟩
  case built => simpa only [unevenDecls, List.forall_mem_cons] using ⟨short, odd, by simp⟩
  exact absurd extended.align (by decide)

end Layout

end CInterop
