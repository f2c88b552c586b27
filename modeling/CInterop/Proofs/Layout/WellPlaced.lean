import CInterop.Proofs.Built

/-!
# Layouts are well placed

The fields of a struct take bits one behind the other, no storage unit of bit-fields overlaps
anything else, and every field lies inside the composite at a multiple of its alignment.

The invariant of the placement loop is `Cursor.Sound`. What it promises to the fields that are
still to come is `Cursor.Allows`: they start where the cursor stands or take free bits of the open
storage unit. A field that was placed lies before everything that the cursor behind it allows.
-/

namespace CInterop

namespace Placed

variable {ν : Type}

/-- The first bit of a field, counted from the start of the composite. -/
def firstBit (part : Placed ν CType) : Nat :=
  match part.bits with
  | none => 8 * part.offset
  | some slot => 8 * part.offset + slot.offset

/-- The bit behind the last one of a field. -/
def endBit (part : Placed ν CType) : Nat :=
  match part.bits with
  | none => 8 * (part.offset + part.type.size)
  | some slot => 8 * part.offset + slot.offset + slot.width

/-- The byte behind the last one of a field or of its storage unit. -/
def endByte (part : Placed ν CType) : Nat := part.offset + part.type.size

/-- A bit-field takes some bits, and they lie in its storage unit. -/
def SlotFits (part : Placed ν CType) : Prop :=
  ∀ slot, part.bits = some slot →
    0 < slot.width ∧ slot.offset + slot.width ≤ 8 * part.type.size

/-- Two bit-fields share one storage unit. -/
def SharesUnit (part other : Placed ν CType) : Prop :=
  part.bits.isSome ∧ other.bits.isSome
    ∧ part.offset = other.offset ∧ part.type.size = other.type.size

variable {part : Placed ν CType}

theorem firstBit_of_plain (plain : part.bits = none) : part.firstBit = 8 * part.offset := by
  simp only [firstBit, plain]

theorem endBit_of_plain (plain : part.bits = none) :
    part.endBit = part.firstBit + 8 * part.type.size := by
  simp only [endBit, firstBit, plain, Nat.mul_add]

theorem firstBit_of_bits {slot : BitSlot} (bits : part.bits = some slot) :
    part.firstBit = 8 * part.offset + slot.offset := by
  simp only [firstBit, bits]

theorem endBit_of_bits {slot : BitSlot} (bits : part.bits = some slot) :
    part.endBit = part.firstBit + slot.width := by
  simp only [endBit, firstBit, bits]

theorem le_firstBit (part : Placed ν CType) : 8 * part.offset ≤ part.firstBit := by
  unfold firstBit
  split <;> omega

theorem SlotFits.endBit_le {part : Placed ν CType} (fits : part.SlotFits) :
    part.endBit ≤ 8 * part.endByte := by
  unfold endBit endByte
  split
  · exact Nat.le_refl _
  · rename_i slot bits
    have inside := (fits slot bits).2
    omega

end Placed

namespace Layout

/-- The declaration that a field was placed for. -/
def declared (field : Field) : FieldDecl :=
  { name := field.name, type := field.type, bits := field.bits.map (·.width) }

/-- One field lies before another: its bits are lower, and its bytes too unless they are one storage
unit. -/
structure Before (field later : Field) : Prop where
  bits : field.endBit ≤ later.firstBit
  bytes : field.endByte ≤ later.offset ∨ field.SharesUnit later

/-- The fields of a layout are those that were declared, apart from the bit-fields of width 0, and
each is where C puts it. -/
structure WellPlaced (kind : CompositeKind) (packing : Packing) (decls : List FieldDecl)
    (layout : Layout) : Prop where
  declared : layout.fields.map declared = decls.filter (·.bits != some 0)
  slots : ∀ field ∈ layout.fields, field.SlotFits
  inside : ∀ field ∈ layout.fields, field.endByte ≤ layout.size
  bitsInside : ∀ field ∈ layout.fields, field.endBit ≤ 8 * layout.size
  ordered : kind = .struct → layout.fields.Pairwise Before
  overlaid : kind = .union → ∀ field ∈ layout.fields,
    field.offset = 0 ∧ ∀ slot, field.bits = some slot → slot.offset = 0
  align : layout.align = (decls.map (packing.effective ·.type.align)).foldl max 1
  aligned : ∀ field ∈ layout.fields, field.bits = none →
    packing.effective field.type.align ∣ field.offset
  unitAligned : ∀ field ∈ layout.fields, field.bits.isSome →
    (∀ other ∈ layout.fields, other.bits.isSome → other.offset = field.offset →
      packing.effective other.type.align = packing.effective field.type.align) →
    packing.effective field.type.align ∣ field.offset
  rounded : layout.align ∣ layout.size

/-! ## One field -/

/-- The open storage unit lies before the cursor, which lies inside the space needed so far. -/
structure Cursor.Sound (cursor : Cursor) : Prop where
  unit : ∀ unit, cursor.unit = some unit → unit.offset + unit.size ≤ cursor.offset
  offset : cursor.offset ≤ cursor.size

/-- A field starts at the cursor or behind it, or takes bits of the open unit that are free. -/
def Cursor.Allows (cursor : Cursor) (field : Field) : Prop :=
  cursor.offset ≤ field.offset
    ∨ ∃ unit slot, cursor.unit = some unit ∧ field.bits = some slot
        ∧ field.offset = unit.offset ∧ field.type.size = unit.size ∧ unit.used ≤ slot.offset

theorem Cursor.sound_start : Cursor.Sound {} := ⟨by simp, by decide⟩

/-- A field that starts behind another one lies before it. -/
theorem before_of_le {field later : Field} (fits : field.SlotFits)
    (behind : field.endByte ≤ later.offset) : Before field later := by
  refine ⟨?_, .inl behind⟩
  calc
    field.endBit ≤ 8 * field.endByte := fits.endBit_le
    _ ≤ 8 * later.offset := by omega
    _ ≤ later.firstBit := later.le_firstBit

namespace Placing

variable {align : Nat} {cursor next : Cursor} {decl : FieldDecl} {kind : CompositeKind}
  {field : Option Field}

theorem slotFits {placed : Field} (step : Placing align cursor decl kind next (some placed)) :
    placed.SlotFits := by
  intro slot bits
  cases step with
  | ordinary | overlay => cases bits
  | join _ positive _ _ room =>
    cases bits
    exact ⟨positive, room⟩
  | start _ positive _ room | overlayBits _ positive room =>
    cases bits
    exact ⟨positive, by simpa using room⟩

theorem declared_eq (step : Placing align cursor decl kind next field) :
    field.toList.map declared = if decl.bits != some 0 then [decl] else [] := by
  obtain ⟨name, type, bits⟩ := decl
  cases step with
  | ordinary _ plain | overlay plain =>
    cases plain
    rfl
  | close _ empty | overlayNothing empty =>
    cases empty
    rfl
  | join bits positive | start bits positive | overlayBits bits positive =>
    cases bits
    simp [declared, Nat.pos_iff_ne_zero.mp positive]

theorem align_eq (step : Placing align cursor decl kind next field) :
    next.align = max cursor.align align := by
  cases step <;> rfl

theorem size_le (step : Placing align cursor decl kind next field) : cursor.size ≤ next.size := by
  cases step <;> simp only [Nat.le_max_left, Nat.le_refl]

theorem endByte_le {placed : Field} (sound : kind = .struct → cursor.Sound)
    (step : Placing align cursor decl kind next (some placed)) : placed.endByte ≤ next.size := by
  cases step with
  | ordinary | start => exact Nat.le_max_right _ _
  | overlay | overlayBits =>
    rw [Placed.endByte, Nat.zero_add]
    exact Nat.le_max_right _ _
  | @join _ unit _ _ isOpen alike _ =>
    have before := (sound rfl).unit unit isOpen
    have inside := (sound rfl).offset
    simp only [Placed.endByte]
    omega

/-- What the cursor behind a field allows, the cursor before it allows too. -/
theorem allows (positive : 0 < align) {later : Field}
    (step : Placing align cursor decl .struct next field) (allowed : next.Allows later) :
    cursor.Allows later := by
  have reached := le_roundUp cursor.offset positive
  cases step with
  | ordinary begins | close begins =>
    rcases allowed with behind | ⟨unit, slot, isOpen, _⟩
    · simp only at behind
      exact .inl (by omega)
    · cases isOpen
  | join _ _ isOpen alike =>
    rcases allowed with behind | ⟨unit, slot, found, bits, same, sized, used⟩
    · exact .inl behind
    · cases found
      simp only at used
      exact .inr ⟨_, slot, isOpen, bits, same, sized, by omega⟩
  | start _ _ begins =>
    rcases allowed with behind | ⟨unit, slot, found, _, same, _⟩
    · simp only at behind
      exact .inl (by omega)
    · cases found
      simp only at same
      exact .inl (by omega)

theorem allows_placed (positive : 0 < align) {placed : Field}
    (step : Placing align cursor decl .struct next (some placed)) : cursor.Allows placed := by
  have reached := le_roundUp cursor.offset positive
  cases step with
  | ordinary begins | start _ _ begins =>
    left
    simp only
    omega
  | join _ _ isOpen alike => exact .inr ⟨_, _, isOpen, rfl, rfl, alike.symm, Nat.le_refl _⟩

theorem sound (positive : 0 < align) (before : cursor.Sound)
    (step : Placing align cursor decl .struct next field) : next.Sound := by
  have reached := le_roundUp cursor.offset positive
  cases step with
  | ordinary | close => exact ⟨by simp, Nat.le_max_right _ _⟩
  | join _ _ isOpen =>
    refine ⟨?_, before.offset⟩
    intro unit found
    cases found
    have inside := before.unit _ isOpen
    exact inside
  | start =>
    refine ⟨?_, Nat.le_max_right _ _⟩
    intro unit found
    cases found
    exact Nat.le_refl _

/-- A field that was placed lies before everything that the cursor behind it allows. -/
theorem before {placed later : Field} (sound : cursor.Sound)
    (step : Placing align cursor decl .struct next (some placed)) (allowed : next.Allows later) :
    Before placed later := by
  have fits := step.slotFits
  cases step with
  | ordinary =>
    rcases allowed with behind | ⟨unit, slot, isOpen, _⟩
    · exact before_of_le fits behind
    · cases isOpen
  | join _ _ isOpen alike =>
    rcases allowed with behind | ⟨unit, slot, found, bits, same, sized, used⟩
    · exact before_of_le fits (Nat.le_trans (alike ▸ sound.unit _ isOpen) behind)
    · cases found
      simp only at same sized used
      refine ⟨?_, .inr ⟨rfl, by simp [bits], same.symm, by simp only [sized, alike]⟩⟩
      simp only [Placed.endBit, Placed.firstBit, bits]
      omega
  | start =>
    rcases allowed with behind | ⟨unit, slot, found, bits, same, sized, used⟩
    · exact before_of_le fits behind
    · cases found
      simp only at same sized used
      refine ⟨?_, .inr ⟨rfl, by simp [bits], same.symm, sized.symm⟩⟩
      simp only [Placed.endBit, Placed.firstBit, bits]
      omega

/-- An ordinary field, and a bit-field unless it joined the open unit, starts at a multiple of its
alignment. -/
theorem aligned {placed : Field} (step : Placing align cursor decl kind next (some placed)) :
    align ∣ placed.offset
      ∨ placed.bits.isSome ∧ ∃ unit, cursor.unit = some unit ∧ placed.offset = unit.offset := by
  cases step with
  | ordinary begins | start _ _ begins => exact .inl (begins ▸ dvd_roundUp _ _)
  | join _ _ isOpen => exact .inr ⟨rfl, _, isOpen, rfl⟩
  | overlay | overlayBits => exact .inl (Nat.dvd_zero _)

/-- A unit is open because it was open before or because the placed field started it. -/
theorem unit_origin {unit : StorageUnit} (step : Placing align cursor decl .struct next field)
    (isOpen : next.unit = some unit) :
    (∃ older, cursor.unit = some older ∧ older.offset = unit.offset)
      ∨ ∃ placed, field = some placed ∧ placed.bits.isSome ∧ placed.offset = unit.offset
          ∧ align ∣ placed.offset := by
  cases step with
  | ordinary | close => cases isOpen
  | join _ _ found =>
    cases isOpen
    exact .inl ⟨_, found, rfl⟩
  | start _ _ begins =>
    cases isOpen
    exact .inr ⟨_, rfl, rfl, rfl, begins ▸ dvd_roundUp _ _⟩

theorem overlaid {placed : Field} (step : Placing align cursor decl .union next (some placed)) :
    placed.offset = 0 ∧ ∀ slot, placed.bits = some slot → slot.offset = 0 := by
  cases step with
  | overlay => exact ⟨rfl, by simp⟩
  | overlayBits => exact ⟨rfl, by simp⟩

theorem type_eq {placed : Field} (step : Placing align cursor decl kind next (some placed)) :
    placed.type = decl.type := by
  cases step <;> rfl

end Placing

/-! ## All fields -/

namespace PlacingAll

variable {kind : CompositeKind} {packing : Packing} {cursor last : Cursor}
  {decls : List FieldDecl} {fields : List Field}

theorem declared_eq (steps : PlacingAll kind packing cursor decls last fields) :
    fields.map declared = decls.filter (·.bits != some 0) := by
  induction steps with
  | nil => rfl
  | @cons _ _ _ decl _ _ _ first _ ih =>
    rw [List.map_append, first.declared_eq, ih, List.filter_cons]
    split <;> rfl

theorem slotFits (steps : PlacingAll kind packing cursor decls last fields) :
    ∀ field ∈ fields, field.SlotFits := by
  induction steps with
  | nil => simp
  | cons first _ ih =>
    intro field member
    rcases List.mem_append.mp member with placed | later
    · rw [Option.mem_toList] at placed
      subst placed
      exact first.slotFits
    · exact ih field later

theorem align_eq (steps : PlacingAll kind packing cursor decls last fields) :
    last.align = (decls.map (packing.effective ·.type.align)).foldl max cursor.align := by
  induction steps with
  | nil => rfl
  | cons first _ ih => rw [ih, first.align_eq, List.map_cons, List.foldl_cons]

theorem size_le (steps : PlacingAll kind packing cursor decls last fields) :
    cursor.size ≤ last.size := by
  induction steps with
  | nil => exact Nat.le_refl _
  | cons first _ ih => exact Nat.le_trans first.size_le ih

theorem overlaid (steps : PlacingAll .union packing cursor decls last fields) :
    ∀ field ∈ fields, field.offset = 0 ∧ ∀ slot, field.bits = some slot → slot.offset = 0 := by
  induction steps with
  | nil => simp
  | cons first _ ih =>
    intro field member
    rcases List.mem_append.mp member with placed | later
    · rw [Option.mem_toList] at placed
      subst placed
      exact first.overlaid
    · exact ih field later

theorem endByte_le (positive : ∀ decl ∈ decls, 0 < packing.effective decl.type.align)
    (sound : kind = .struct → cursor.Sound)
    (steps : PlacingAll kind packing cursor decls last fields) :
    ∀ field ∈ fields, field.endByte ≤ last.size := by
  induction steps with
  | nil => simp
  | cons first others ih =>
    intro field member
    rcases List.mem_append.mp member with placed | later
    · rw [Option.mem_toList] at placed
      subst placed
      exact Nat.le_trans (first.endByte_le sound) others.size_le
    · refine ih (fun decl later => positive decl (List.mem_cons_of_mem _ later)) ?_ field later
      rintro rfl
      exact first.sound (positive _ List.mem_cons_self) (sound rfl)

/-- The fields of a struct are allowed by the cursor that they are placed from. -/
theorem allows (positive : ∀ decl ∈ decls, 0 < packing.effective decl.type.align)
    (steps : PlacingAll .struct packing cursor decls last fields) :
    ∀ field ∈ fields, cursor.Allows field := by
  induction steps with
  | nil => simp
  | cons first _ ih =>
    intro field member
    have first_positive := positive _ List.mem_cons_self
    rcases List.mem_append.mp member with placed | later
    · rw [Option.mem_toList] at placed
      subst placed
      exact first.allows_placed first_positive
    · have rest_positive := fun decl later => positive decl (List.mem_cons_of_mem _ later)
      exact first.allows first_positive (ih rest_positive field later)

theorem ordered (positive : ∀ decl ∈ decls, 0 < packing.effective decl.type.align)
    (sound : cursor.Sound) (steps : PlacingAll .struct packing cursor decls last fields) :
    fields.Pairwise Before := by
  induction steps with
  | nil => exact .nil
  | @cons _ _ _ _ _ field _ first others ih =>
    have rest_positive := fun decl later => positive decl (List.mem_cons_of_mem _ later)
    have rest_ordered := ih rest_positive (first.sound (positive _ List.mem_cons_self) sound)
    cases field with
    | none => exact rest_ordered
    | some placed =>
      refine List.pairwise_cons.mpr ⟨?_, rest_ordered⟩
      intro later member
      exact first.before sound (others.allows rest_positive later member)

/-- Every ordinary field starts at a multiple of its alignment, and every storage unit at a multiple
of the alignment of its first bit-field, which is one of these fields unless the unit was open
before. -/
theorem aligned (steps : PlacingAll kind packing cursor decls last fields) :
    ∀ field ∈ fields, packing.effective field.type.align ∣ field.offset
      ∨ field.bits.isSome
        ∧ ((∃ opener ∈ fields, opener.bits.isSome ∧ opener.offset = field.offset
              ∧ packing.effective opener.type.align ∣ opener.offset)
          ∨ ∃ unit, cursor.unit = some unit ∧ field.offset = unit.offset) := by
  induction steps with
  | nil => simp
  | @cons _ next _ decl _ _ tail first others ih =>
    intro field member
    rcases List.mem_append.mp member with placed | later
    · rw [Option.mem_toList] at placed
      subst placed
      rw [first.type_eq]
      exact first.aligned.imp_right fun joined => ⟨joined.1, .inr joined.2⟩
    · rcases ih field later with divides | ⟨bits, ⟨opener, found, facts⟩ | ⟨unit, isOpen, same⟩⟩
      · exact .inl divides
      · exact .inr ⟨bits, .inl ⟨opener, List.mem_append_right _ found, facts⟩⟩
      · cases kind with
        | union =>
          rw [(others.overlaid field later).1]
          exact .inl (Nat.dvd_zero _)
        | struct =>
          rcases first.unit_origin isOpen with ⟨older, wasOpen, alike⟩
            | ⟨opener, rfl, opener_bits, starts, divides⟩
          · exact .inr ⟨bits, .inr ⟨older, wasOpen, same.trans alike.symm⟩⟩
          · refine .inr ⟨bits, .inl ⟨opener, by simp, opener_bits, starts.trans same.symm, ?_⟩⟩
            rw [first.type_eq]
            exact divides

end PlacingAll

section

variable {name : String} {kind : CompositeKind} {decls : List FieldDecl} {packing : Packing}

theorem effective_pos_of_built (accepted : packing.Accepted)
    (built : ∀ decl ∈ decls, decl.type.Built) :
    ∀ decl ∈ decls, 0 < packing.effective decl.type.align :=
  fun decl member => Packing.effective_pos accepted (built decl member).align_pos

/-- Fields end inside their composite. -/
theorem inside_of_placeAll {cursor : Cursor} {fields : List Field} (accepted : packing.Accepted)
    (built : ∀ decl ∈ decls, decl.type.Built)
    (placed : placeAll name kind packing {} decls = .ok (cursor, fields)) :
    ∀ field ∈ fields, field.endByte ≤ roundUp cursor.size cursor.align := by
  have steps := placingAll_of_placeAll Word.modulus_pos placed
  intro field member
  calc
    field.endByte ≤ cursor.size :=
      steps.endByte_le (effective_pos_of_built accepted built) (fun _ => Cursor.sound_start)
        field member
    _ ≤ roundUp cursor.size cursor.align := le_roundUp _ steps.align_le

/-- A layout of fields whose types a registry made is well placed. -/
theorem compute_wellPlaced {layout : Layout} (built : ∀ decl ∈ decls, decl.type.Built)
    (computed : compute name kind decls packing = .ok layout) :
    WellPlaced kind packing decls layout := by
  obtain ⟨accepted, last, fields, placed, _, _, rfl⟩ := compute_eq_ok computed
  have steps := placingAll_of_placeAll Word.modulus_pos placed
  have inside := inside_of_placeAll accepted built placed
  refine
    { declared := steps.declared_eq
      slots := steps.slotFits
      inside := inside
      bitsInside := ?bitsInside
      ordered := ?ordered
      overlaid := ?overlaid
      align := steps.align_eq
      aligned := ?aligned
      unitAligned := ?unitAligned
      rounded := dvd_roundUp _ _ }
  case bitsInside =>
    intro field member
    exact Nat.le_trans (steps.slotFits field member).endBit_le
      (Nat.mul_le_mul_left 8 (inside field member))
  case ordered =>
    rintro rfl
    exact steps.ordered (effective_pos_of_built accepted built) Cursor.sound_start
  case overlaid =>
    rintro rfl
    exact steps.overlaid
  case aligned =>
    intro field member plain
    rcases steps.aligned field member with divides | ⟨bits, _⟩
    · exact divides
    · simp [plain] at bits
  case unitAligned =>
    intro field member _ shared
    rcases steps.aligned field member with divides
      | ⟨_, ⟨opener, found, opener_bits, same, divides⟩ | ⟨unit, isOpen, _⟩⟩
    · exact divides
    · rw [← shared opener found opener_bits same, ← same]
      exact divides
    · cases isOpen

end

/-- A byte, two bit-fields that share a unit, a closed unit and a double. -/
def mixedDecls : List FieldDecl :=
  [⟨some "tag", .natural "uint8" .w8 false, none⟩,
    ⟨some "low", .natural "uint32" .w32 false, some 3⟩,
    ⟨some "high", .natural "uint32" .w32 false, some 7⟩,
    ⟨none, .natural "uint32" .w32 false, some 0⟩,
    ⟨some "ratio", .float .double 8, none⟩]

/-- Where these fields are placed. -/
def mixedLayout : Layout :=
  { name := "Mixed", kind := .struct, packing := .natural
    fields := [⟨some "tag", .natural "uint8" .w8 false, 0, none⟩,
      ⟨some "low", .natural "uint32" .w32 false, 4, some ⟨0, 3⟩⟩,
      ⟨some "high", .natural "uint32" .w32 false, 4, some ⟨3, 7⟩⟩,
      ⟨some "ratio", .float .double 8, 8, none⟩]
    members := [⟨"tag", .natural "uint8" .w8 false, 0, none⟩,
      ⟨"low", .natural "uint32" .w32 false, 4, some ⟨0, 3⟩⟩,
      ⟨"high", .natural "uint32" .w32 false, 4, some ⟨3, 7⟩⟩,
      ⟨"ratio", .float .double 8, 8, none⟩]
    size := 16, align := 8 }

theorem compute_mixed : compute "Mixed" .struct mixedDecls .natural = .ok mixedLayout := by rfl

theorem mixed_built : ∀ decl ∈ mixedDecls, decl.type.Built := by
  have byte := CType.Built.primitive (rfl : Primitive.uint8.type? .host = some _)
  have word := CType.Built.primitive (rfl : Primitive.uint32.type? .host = some _)
  have ratio := CType.Built.primitive (rfl : Primitive.double.type? .host = some _)
  simp only [mixedDecls, List.forall_mem_cons]
  exact ⟨byte, word, word, word, ratio, by simp⟩

theorem mixed_wellPlaced : WellPlaced .struct .natural mixedDecls mixedLayout :=
  compute_wellPlaced mixed_built compute_mixed

end Layout

end CInterop
