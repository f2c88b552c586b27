import CInterop.Proofs.Layout.Members

/-!
# Layouts over unbounded integers

Layouts are computed with words, and no field is refused for its size. So a declaration that is
refused for no other reason has the layout that its fields would have over unbounded integers, as
long as the offsets and ends of the fields and the total size are words (`InWords`), and else there
is an overflow (`compute_exact`).
-/

namespace CInterop

namespace Layout

/-- The total size of what was placed exactly. -/
def exactSize (placed : Cursor × List Field) : Nat := roundUp placed.1.size placed.1.align

/-- All offsets and ends of fields are words, and so is the total size. -/
structure InWords (placed : Cursor × List Field) : Prop where
  offsets : ∀ field ∈ placed.2, field.offset < Word.modulus
  ends : ∀ field ∈ placed.2, field.endByte < Word.modulus
  size : exactSize placed < Word.modulus

/-! ## The space that is needed -/

section Space

variable {name : String} {kind : CompositeKind} {packing : Packing} {cursor last : Cursor}
  {decls : List FieldDecl} {fields : List Field}

variable (kind) in
/-- A field adds to the space that is needed, which reaches as far as the cursor. -/
theorem space_placeExact (align : Nat) (decl : FieldDecl) (inside : cursor.offset ≤ cursor.size) :
    let next := (placeExact kind align cursor decl).1
    cursor.size ≤ next.size ∧ next.offset ≤ next.size := by
  unfold placeExact
  dsimp only
  split
  · exact ⟨Nat.le_max_left _ _, Nat.le_max_right _ _⟩
  split
  · cases kind with
    | struct => exact ⟨Nat.le_max_left _ _, Nat.le_max_right _ _⟩
    | union => exact ⟨Nat.le_refl _, inside⟩
  · cases kind with
    | union => exact ⟨Nat.le_max_left _ _, Nat.le_trans inside (Nat.le_max_left _ _)⟩
    | struct =>
      dsimp only
      split
      · exact ⟨Nat.le_refl _, inside⟩
      · exact ⟨Nat.le_max_left _ _, Nat.le_max_right _ _⟩

theorem space_placeAllExact (inside : cursor.offset ≤ cursor.size) :
    cursor.size ≤ (placeAllExact kind packing cursor decls).1.size := by
  induction decls generalizing cursor with
  | nil => exact Nat.le_refl _
  | cons decl rest ih =>
    obtain ⟨grown, onward⟩ :=
      space_placeExact kind (packing.effective decl.type.align) decl inside
    exact Nat.le_trans grown (ih onward)

theorem align_placeExact {align : Nat} {decl : FieldDecl} :
    (placeExact kind align cursor decl).1.align = max cursor.align align := by
  unfold placeExact
  dsimp only
  split
  · rfl
  · split
    · cases kind <;> rfl
    · cases kind with
      | union => rfl
      | struct =>
        dsimp only
        split <;> rfl

variable (cursor) in
theorem align_placeAllExact : cursor.align ≤ (placeAllExact kind packing cursor decls).1.align := by
  induction decls generalizing cursor with
  | nil => exact Nat.le_refl _
  | cons decl rest ih =>
    have own : cursor.align
        ≤ (placeExact kind (packing.effective decl.type.align) cursor decl).1.align :=
      align_placeExact ▸ Nat.le_max_left _ _
    exact Nat.le_trans own (ih _)

variable (name kind packing decls) in
/-- A declaration is placed exactly, or a field of it is refused, or a field does not end at a
word. -/
theorem placeAll_cases (word : cursor.offset < Word.modulus)
    (inside : cursor.offset ≤ cursor.size) :
    let exactly := placeAllExact kind packing cursor decls
    placeAll name kind packing cursor decls = .ok exactly
      ∨ (∃ decl ∈ decls, ∃ fault, decl.fault? = some fault ∧
          placeAll name kind packing cursor decls = .error (.invalidField name decl.label fault))
      ∨ Word.modulus ≤ exactly.1.size ∧ Overflows (placeAll name kind packing cursor decls) := by
  induction decls generalizing cursor with
  | nil => exact .inl rfl
  | cons decl rest ih =>
    obtain ⟨-, onward⟩ := space_placeExact kind (packing.effective decl.type.align) decl inside
    rcases place_cases name kind packing decl word with
      ⟨fault, found, refused⟩ | ⟨sound, ⟨fits, same⟩ | ⟨beyond, overflows⟩⟩
    · refine .inr (.inl ⟨decl, List.mem_cons_self, fault, found, ?_⟩)
      rw [placeAll, refused]
      rfl
    · rw [placeAll_of_place same]
      rcases ih fits onward with placed | ⟨other, mem, fault, found, refused⟩ | ⟨large, overflows⟩
      · rw [placed]
        exact .inl rfl
      · rw [refused]
        exact .inr (.inl ⟨other, List.mem_cons_of_mem _ mem, fault, found, rfl⟩)
      · exact .inr (.inr ⟨large, overflows.bind _⟩)
    · refine .inr (.inr ⟨?_, overflows.bind _⟩)
      exact Nat.le_trans beyond (Nat.le_trans onward (space_placeAllExact onward))

theorem placing_size_le {align : Nat} {next : Cursor} {decl : FieldDecl} {field : Option Field}
    (step : Placing align cursor decl kind next field) :
    next.size ≤ max cursor.size (max next.offset decl.type.size) := by
  cases step <;> simp only <;> omega

/-- The space that a declaration needs is a word, if the sizes of its types are. -/
theorem size_lt_of_placeAll (small : ∀ decl ∈ decls, decl.type.size < Word.modulus)
    (word : cursor.offset < Word.modulus) (space : cursor.size < Word.modulus)
    (placed : placeAll name kind packing cursor decls = .ok (last, fields)) :
    last.size < Word.modulus := by
  induction decls generalizing cursor fields with
  | nil =>
    cases placed
    exact space
  | cons decl rest ih =>
    obtain ⟨own, later⟩ := List.forall_mem_cons.mp small
    obtain ⟨next, field, tail, first, others, _⟩ := placeAll_cons placed
    obtain ⟨-, fits, -⟩ := eq_of_place word first
    refine ih later fits ?_ others
    have grown := placing_size_le (placing_of_place word first)
    omega

end Space

/-! ## Members -/

section Built

variable {name : String} {kind : CompositeKind} {packing : Packing} {decls : List FieldDecl}
  {last : Cursor} {fields : List Field}

/-- Where fields end at words, their members are placed at words. -/
theorem offset_lt_of_exposed (ends : ∀ field ∈ fields, field.endByte < Word.modulus)
    (built : ∀ field ∈ fields, field.type.Built) :
    ∀ member ∈ fields.flatMap exposed, member.offset < Word.modulus := by
  intro member mem
  obtain ⟨field, field_mem, found⟩ := List.mem_flatMap.mp mem
  have ends := ends field field_mem
  have contained := (built field field_mem).contained
  unfold Placed.endByte at ends
  rcases exposed_cases found with ⟨_, offset, _⟩ | ⟨inner, part, composite, _, part_mem, rfl⟩
  · omega
  · rw [composite] at contained ends
    have inside := (contained.member part part_mem).1
    simp only [Placed.endByte, CType.size] at inside ends ⊢
    omega

/-- The members of fields that were placed are placed at words. -/
theorem offset_lt_of_placeAll (accepted : packing.Accepted)
    (built : ∀ decl ∈ decls, decl.type.Built)
    (placed : placeAll name kind packing {} decls = .ok (last, fields)) :
    ∀ member ∈ fields.flatMap exposed, member.offset < Word.modulus := by
  have steps := placingAll_of_placeAll Word.modulus_pos placed
  have space := size_lt_of_placeAll (fun decl mem => (built decl mem).size_lt) Word.modulus_pos
    Word.modulus_pos placed
  refine offset_lt_of_exposed (fun field mem => ?_) fun field mem => ?_
  · exact Nat.lt_of_le_of_lt (steps.endByte_le (effective_pos_of_built accepted built)
      (fun _ => Cursor.sound_start) field mem) space
  · obtain ⟨_, decl, found, same⟩ :=
      steps.proper (eq_of_placeAll Word.modulus_pos placed).1 field mem
    exact same ▸ built decl found

end Built

/-! ## Whole layouts -/

section Whole

variable {name : String} {kind : CompositeKind} {packing : Packing} {decls : List FieldDecl}
  {layout : Layout}

/-- What was placed is a layout, if names are distinct and the size is a word. -/
theorem assemble_of_lt {cursor : Cursor} {fields : List Field}
    (entered : enterAll name [] (fields.flatMap exposed) = .ok ())
    (fits : roundUp cursor.size cursor.align < Word.modulus) :
    assemble name kind packing cursor fields = .ok
      { name, kind, packing, fields, members := fields.flatMap exposed
        size := roundUp cursor.size cursor.align, align := cursor.align } := by
  unfold assemble
  dsimp only
  rw [entered, alignUp_of_lt fits]
  rfl

/-- Fields that were placed make up a layout, if names are distinct and the size is a word. -/
theorem compute_of_placed {cursor : Cursor} {fields : List Field} (accepted : packing.Accepted)
    (placed : placeAll name kind packing {} decls = .ok (cursor, fields))
    (entered : enterAll name [] (fields.flatMap exposed) = .ok ())
    (fits : roundUp cursor.size cursor.align < Word.modulus) :
    compute name kind decls packing = .ok
      { name, kind, packing, fields, members := fields.flatMap exposed
        size := roundUp cursor.size cursor.align, align := cursor.align } := by
  rw [compute_of_accepted accepted, placed]
  exact assemble_of_lt entered fits

variable (kind packing) in
theorem assemble_of_le {cursor : Cursor} {fields : List Field}
    (entered : enterAll name [] (fields.flatMap exposed) = .ok ())
    (beyond : Word.modulus ≤ roundUp cursor.size cursor.align) :
    Overflows (assemble name kind packing cursor fields) := by
  unfold assemble
  dsimp only
  rw [entered]
  exact (alignUp_of_le beyond).bind _

theorem not_overflows_assemble {cursor : Cursor} {fields : List Field}
    (small : ∀ member ∈ fields.flatMap exposed, member.offset < Word.modulus)
    (fits : roundUp cursor.size cursor.align < Word.modulus) :
    ¬ Overflows (assemble name kind packing cursor fields) := by
  rcases enterAll_of_lt name [] small with entered | ⟨twice, refused, _⟩
  · rw [assemble_of_lt entered fits]
    exact not_overflows_ok _
  · unfold assemble
    dsimp only
    rw [refused]
    exact fun ⟨_, same⟩ => nomatch same

/-- Where the total size is a word, all fields end at words. -/
theorem inWords_of_size (accepted : packing.Accepted) (built : ∀ decl ∈ decls, decl.type.Built)
    (sound : ∀ decl ∈ decls, decl.Sound)
    (small : exactSize (placeAllExact kind packing {} decls) < Word.modulus) :
    InWords (placeAllExact kind packing {} decls) := by
  have steps := placingAll_exact kind packing sound {}
  have ends (field : Field) (mem : field ∈ (placeAllExact kind packing {} decls).2) :
      field.endByte < Word.modulus := by
    refine Nat.lt_of_le_of_lt ?_ small
    calc
      field.endByte ≤ (placeAllExact kind packing {} decls).1.size :=
        steps.endByte_le (effective_pos_of_built accepted built) (fun _ => Cursor.sound_start)
          field mem
      _ ≤ exactSize (placeAllExact kind packing {} decls) := le_roundUp _ steps.align_le
  exact ⟨fun field mem => Nat.lt_of_le_of_lt (Nat.le_add_right _ _) (ends field mem), ends, small⟩

variable (name) in
/-- A declaration that is refused nowhere, with distinct names and a size that is a word, has the
layout of its fields over unbounded integers. -/
theorem compute_of_small (accepted : packing.Accepted) (built : ∀ decl ∈ decls, decl.type.Built)
    (sound : ∀ decl ∈ decls, decl.Sound) :
    let exactly := placeAllExact kind packing {} decls
    ((exactly.2.flatMap exposed).map (·.name)).Nodup → exactSize exactly < Word.modulus →
      compute name kind decls packing = .ok
        { name, kind, packing, fields := exactly.2, members := exactly.2.flatMap exposed
          size := exactSize exactly, align := exactly.1.align } := by
  intro exactly distinct small
  rcases placeAll_cases name kind packing decls Word.modulus_pos Cursor.sound_start.offset with
    placed | ⟨decl, mem, fault, found, _⟩ | ⟨large, _⟩
  · have entered : enterAll name [] (exactly.2.flatMap exposed) = .ok () :=
      enterAll_eq_ok_iff.mpr ⟨offset_lt_of_placeAll accepted built placed, distinct, by simp⟩
    exact compute_of_placed accepted placed entered small
  · exact absurd (FieldDecl.fault?_eq_none_iff.mpr (sound decl mem)) (by simp [found])
  · have aligned : 0 < exactly.1.align := align_placeAllExact {}
    have rounded := le_roundUp exactly.1.size aligned
    exact absurd small (Nat.not_lt.mpr (Nat.le_trans large rounded))

/-- What is computed is the layout over unbounded integers, all of whose offsets, ends and sizes are
words. An overflow occurs only where they are not; and then it occurs, unless a field is refused or
a name is repeated. -/
theorem compute_exact (built : ∀ decl ∈ decls, decl.type.Built) :
    let exactly := placeAllExact kind packing {} decls
    (∀ layout, compute name kind decls packing = .ok layout →
        InWords exactly ∧ layout.fields = exactly.2 ∧ layout.size = exactSize exactly
          ∧ layout.align = exactly.1.align)
      ∧ (Overflows (compute name kind decls packing) → ¬ InWords exactly)
      ∧ (packing.Accepted → (∀ decl ∈ decls, decl.Sound) →
          ((exactly.2.flatMap exposed).map (·.name)).Nodup → ¬ InWords exactly →
            Overflows (compute name kind decls packing)) := by
  intro exactly
  refine ⟨fun layout computed => ?exact, fun overflows words => ?overflow,
    fun accepted sound distinct beyond => ?beyond⟩
  case exact =>
    obtain ⟨accepted, last, fields, placed, _, rounded, rfl⟩ := compute_eq_ok computed
    obtain ⟨sound, same⟩ := eq_of_placeAll Word.modulus_pos placed
    have size : roundUp last.size last.align = exactSize exactly := by
      rw [exactSize, show exactly = (last, fields) from same.symm]
    rw [size] at rounded
    exact ⟨inWords_of_size accepted built sound rounded, congrArg Prod.snd same, size,
      congrArg (·.1.align) same⟩
  case overflow =>
    have accepted : packing.Accepted := by
      by_contra refused
      obtain ⟨_, _, failed⟩ := compute_of_refused refused name kind decls
      obtain ⟨_, overflows⟩ := overflows
      cases failed.symm.trans overflows
    rw [compute_of_accepted accepted] at overflows
    -- A refused field is no overflow, so it comes from placing a field or from the size.
    rcases placeAll_cases name kind packing decls Word.modulus_pos Cursor.sound_start.offset with
      placed | ⟨_, _, _, _, refused⟩ | ⟨large, _⟩
    · rw [placed] at overflows
      have small := offset_lt_of_placeAll accepted built placed
      exact not_overflows_assemble small words.size overflows
    · rw [refused] at overflows
      obtain ⟨_, same⟩ := overflows
      cases same
    · have aligned : 0 < exactly.1.align := align_placeAllExact {}
      have rounded := le_roundUp exactly.1.size aligned
      exact absurd words.size (Nat.not_lt.mpr (Nat.le_trans large rounded))
  case beyond =>
    rw [compute_of_accepted accepted]
    rcases placeAll_cases name kind packing decls Word.modulus_pos Cursor.sound_start.offset with
      placed | ⟨decl, mem, fault, found, _⟩ | ⟨_, overflows⟩
    · rw [placed]
      -- Every field lies in words, which leaves the size.
      have entered : enterAll name [] (exactly.2.flatMap exposed) = .ok () :=
        enterAll_eq_ok_iff.mpr ⟨offset_lt_of_placeAll accepted built placed, distinct, by simp⟩
      exact assemble_of_le kind packing entered
        (Nat.not_lt.mp fun small => beyond (inWords_of_size accepted built sound small))
    · exact absurd (FieldDecl.fault?_eq_none_iff.mpr (sound decl mem)) (by simp [found])
    · exact overflows.bind _

theorem mixed_exact :
    (∀ decl ∈ mixedDecls, decl.type.Built)
      ∧ compute "Mixed" .struct mixedDecls .natural = .ok mixedLayout
      ∧ InWords (placeAllExact .struct .natural {} mixedDecls) :=
  ⟨mixed_built, compute_mixed, ((compute_exact mixed_built).1 mixedLayout compute_mixed).1⟩

/-- As many bytes as a word can count. -/
def widestDecl : FieldDecl :=
  ⟨some "b", .array (.natural "uint8" .w8 false) 0xffffffffffffffff, none⟩

/-- Two bytes behind as many as a word can count. -/
def overfullDecls : List FieldDecl :=
  [widestDecl, ⟨some "x", .natural "uint8" .w8 false, none⟩,
    ⟨some "y", .natural "uint8" .w8 false, none⟩]

/-- The second of these bytes would lie where the words end. There is no layout, and no field is
blamed. -/
theorem overfull_overflows :
    (∀ decl ∈ overfullDecls, decl.type.Built)
      ∧ (∀ decl ∈ overfullDecls, decl.Sound)
      ∧ (placeAllExact .struct .natural {} overfullDecls).2.map (·.offset)
          = [0, 0xffffffffffffffff, Word.modulus]
      ∧ compute "Overfull" .struct overfullDecls .natural = .error (.overflow "add") := by
  have byte := CType.Built.primitive (rfl : Primitive.uint8.type? .host = some _)
  have bytes := CType.Built.array byte
    (rfl : Registry.array _ 0xffffffffffffffff = .ok (.array (.natural "uint8" .w8 false) _))
  refine ⟨?built, ?sound, rfl, rfl⟩
  case built =>
    simpa only [overfullDecls, widestDecl, List.forall_mem_cons] using ⟨bytes, byte, byte, by simp⟩
  case sound =>
    simp only [overfullDecls, widestDecl, List.forall_mem_cons, ← FieldDecl.fault?_eq_none_iff]
    exact ⟨rfl, rfl, rfl, by simp⟩

end Whole

end Layout

end CInterop
