import CInterop.Layout
import CInterop.Proofs.Outcome

/-!
# Placing fields

Layouts are computed with words. `placeExact` is placement with sums that may be any numbers: a
sound field is placed just so as long as its end is a word, and else there is an overflow
(`placeSound_of_lt`, `placeSound_of_le`). `Placing` has one rule for each thing that can happen to a
declared field, and what was placed follows these rules (`placing_of_place`).
-/

namespace CInterop

namespace Packing

/-- The packings that a layout accepts. -/
def Accepted : Packing → Prop
  | natural => True
  | packed limit => isPowerOfTwo limit = true

theorem effective_pos {packing : Packing} (accepted : packing.Accepted) {align : Nat}
    (positive : 0 < align) : 0 < packing.effective align := by
  cases packing with
  | natural => exact positive
  | packed limit =>
    have limit_pos : 0 < limit := by
      rcases Nat.eq_zero_or_pos limit with rfl | found
      · exact absurd accepted (by simp [Accepted, isPowerOfTwo])
      · exact found
    exact Nat.lt_min.mpr ⟨positive, limit_pos⟩

end Packing

namespace Layout

/-! ## Rounding up -/

/-- The next multiple of an alignment, whether or not it is a word. -/
def roundUp (offset align : Nat) : Nat := (offset + align - 1) / align * align

theorem le_roundUp (offset : Nat) {align : Nat} (positive : 0 < align) :
    offset ≤ roundUp offset align := by
  have rest := Nat.mod_lt (offset + align - 1) positive
  have split := Nat.div_add_mod (offset + align - 1) align
  rw [Nat.mul_comm] at split
  unfold roundUp
  omega

theorem dvd_roundUp (offset align : Nat) : align ∣ roundUp offset align := Nat.dvd_mul_left _ _

theorem roundUp_le {offset align bound : Nat} (positive : 0 < align) (below : offset ≤ bound)
    (whole : align ∣ bound) : roundUp offset align ≤ bound := by
  obtain ⟨k, rfl⟩ := whole
  have few : (offset + align - 1) / align < k + 1 := by
    refine Nat.div_lt_of_lt_mul ?_
    rw [Nat.mul_add, Nat.mul_one]
    omega
  rw [roundUp, Nat.mul_comm]
  exact Nat.mul_le_mul_left align (Nat.le_of_lt_succ few)

theorem roundUp_mono {offset offset' align align' : Nat} (below : offset ≤ offset')
    (divides : align ∣ align') (positive : 0 < align') :
    roundUp offset align ≤ roundUp offset' align' :=
  roundUp_le (Nat.pos_of_dvd_of_pos divides positive)
    (Nat.le_trans below (le_roundUp offset' positive))
    (Nat.dvd_trans divides (dvd_roundUp offset' align'))

theorem alignUp_of_lt {offset align : Nat} (fits : roundUp offset align < Word.modulus) :
    alignUp offset align = .ok (roundUp offset align) := Word.product_of_lt fits

theorem alignUp_of_le {offset align : Nat} (beyond : Word.modulus ≤ roundUp offset align) :
    Overflows (alignUp offset align) := ⟨_, Word.product_of_le beyond⟩

theorem alignUp_eq_ok_iff {offset align start : Nat} :
    alignUp offset align = .ok start
      ↔ roundUp offset align < Word.modulus ∧ start = roundUp offset align :=
  Word.product_eq_ok_iff

section Sums

variable {α : Type} {offset align size : Nat} (next : Nat → Nat → Except Failure α)

theorem sum_alignUp_of_lt (fits : roundUp offset align + size < Word.modulus) :
    (do
      let start ← alignUp offset align
      let finish ← Word.sum start size
      next start finish) = next (roundUp offset align) (roundUp offset align + size) := by
  rw [alignUp_of_lt (Nat.lt_of_le_of_lt (Nat.le_add_right _ _) fits)]
  dsimp only [bind, Except.bind]
  rw [Word.sum_of_lt fits]

theorem sum_alignUp_of_le (beyond : Word.modulus ≤ roundUp offset align + size) :
    Overflows (do
      let start ← alignUp offset align
      let finish ← Word.sum start size
      next start finish) := by
  rcases Nat.lt_or_ge (roundUp offset align) Word.modulus with small | large
  · rw [alignUp_of_lt small]
    exact Overflows.bind ⟨_, Word.sum_of_le beyond⟩ _
  · exact (alignUp_of_le large).bind _

end Sums

end Layout

/-! ## Fields that are refused -/

namespace FieldDecl

/-- A declared field that is refused nowhere. -/
structure Sound (decl : FieldDecl) : Prop where
  present : decl.type.isVoid = false
  integral : ∀ width, decl.bits = some width → decl.type.isIntegral = true
  room : ∀ width, decl.bits = some width → width ≤ 8 * decl.type.size
  unnamed : decl.bits = some 0 → decl.name = none

theorem fault?_eq_none_iff {decl : FieldDecl} : decl.fault? = none ↔ decl.Sound := by
  obtain ⟨name, type, bits⟩ := decl
  constructor
  · intro sound
    unfold fault? at sound
    split at sound
    · cases sound
    rename_i given
    have present : type.isVoid = false := Bool.not_eq_true _ |>.mp given
    cases bits with
    | none => exact ⟨present, by simp, by simp, by simp⟩
    | some width =>
      dsimp only at sound
      split at sound
      · cases sound
      rename_i integral
      split at sound
      · cases sound
      rename_i room
      split at sound
      · cases sound
      rename_i unnamed
      refine ⟨present, fun _ _ => by simpa using integral, ?_, fun empty => ?_⟩
      · rintro _ ⟨⟩
        exact Nat.not_lt.mp room
      · cases empty
        simpa using unnamed
  · intro sound
    unfold fault?
    rw [if_neg (by simp [sound.present])]
    cases bits with
    | none => rfl
    | some width =>
      have integral := sound.integral width rfl
      have room := Nat.not_lt.mpr (sound.room width rfl)
      simp only [integral, Bool.not_true, Bool.false_eq_true, if_false, if_neg room]
      refine if_neg fun named => ?_
      simp only [Bool.and_eq_true, decide_eq_true_eq] at named
      obtain ⟨rfl, named⟩ := named
      have unnamed : name = none := sound.unnamed rfl
      rw [unnamed] at named
      cases named

end FieldDecl

namespace Layout

/-! ## Exact placement -/

/-- What placing a field does to the cursor, and the field that it yields, when sums may be any
numbers. Fields that are refused are left out of account. -/
def placeExact (kind : CompositeKind) (align : Nat) (cursor : Cursor) (decl : FieldDecl) :
    Cursor × Option Field :=
  let start := match kind with
    | .struct => roundUp cursor.offset align
    | .union => 0
  let finish := start + decl.type.size
  let counted : Cursor := { cursor with align := max cursor.align align }
  let ahead : Cursor :=
    { counted with offset := finish, size := max cursor.size finish, unit := none }
  let field (offset : Nat) (bits : Option BitSlot) : Field :=
    { name := decl.name, type := decl.type, offset, bits }
  match decl.bits with
  | none => (ahead, some (field start none))
  | some width =>
    if width = 0 then
      match kind with
      | .struct => ({ ahead with offset := start, size := max cursor.size start }, none)
      | .union => ({ counted with unit := none }, none)
    else
      match kind with
      | .union => ({ counted with size := ahead.size }, some (field 0 (some ⟨0, width⟩)))
      | .struct =>
        match cursor.unit.filter (·.admits decl.type width) with
        | some unit =>
          ({ counted with unit := some { unit with used := unit.used + width } },
            some (field unit.offset (some ⟨unit.used, width⟩)))
        | none =>
          ({ ahead with unit := some ⟨start, decl.type.size, width⟩ },
            some (field start (some ⟨0, width⟩)))

/-! ## The rules of placement -/

/-- A bit-field shares the open storage unit. -/
def Cursor.Joins (cursor : Cursor) (decl : FieldDecl) (width : Nat) : Prop :=
  ∃ unit, cursor.unit = some unit ∧ unit.admits decl.type width = true

theorem StorageUnit.admits_iff (unit : StorageUnit) {type : CType} {width : Nat} :
    unit.admits type width = true ↔ unit.size = type.size ∧ unit.used + width ≤ 8 * type.size := by
  simp [admits]

theorem Cursor.not_joins_iff {cursor : Cursor} {decl : FieldDecl} {width : Nat} :
    ¬ cursor.Joins decl width ↔ cursor.unit.filter (·.admits decl.type width) = none := by
  rw [Option.filter_eq_none_iff]
  simp [Joins]

/-- What placing a field does to the cursor, and the field that it yields. -/
inductive Placing (align : Nat) (cursor : Cursor) (decl : FieldDecl) :
    CompositeKind → Cursor → Option Field → Prop
  | ordinary {start : Nat} (begins : start = roundUp cursor.offset align)
      (plain : decl.bits = none) :
      Placing align cursor decl .struct
        { offset := start + decl.type.size, size := max cursor.size (start + decl.type.size)
          align := max cursor.align align, unit := none }
        (some { name := decl.name, type := decl.type, offset := start, bits := none })
  | close {start : Nat} (begins : start = roundUp cursor.offset align)
      (empty : decl.bits = some 0) :
      Placing align cursor decl .struct
        { offset := start, size := max cursor.size start
          align := max cursor.align align, unit := none }
        none
  | join {width : Nat} {unit : StorageUnit} (bits : decl.bits = some width) (positive : 0 < width)
      (isOpen : cursor.unit = some unit) (alike : unit.size = decl.type.size)
      (room : unit.used + width ≤ 8 * decl.type.size) :
      Placing align cursor decl .struct
        { cursor with
          align := max cursor.align align, unit := some { unit with used := unit.used + width } }
        (some { name := decl.name, type := decl.type, offset := unit.offset,
                bits := some ⟨unit.used, width⟩ })
  | start {width start : Nat} (bits : decl.bits = some width) (positive : 0 < width)
      (begins : start = roundUp cursor.offset align) (room : width ≤ 8 * decl.type.size)
      (apart : ¬ cursor.Joins decl width) :
      Placing align cursor decl .struct
        { offset := start + decl.type.size, size := max cursor.size (start + decl.type.size)
          align := max cursor.align align, unit := some ⟨start, decl.type.size, width⟩ }
        (some { name := decl.name, type := decl.type, offset := start, bits := some ⟨0, width⟩ })
  | overlay (plain : decl.bits = none) :
      Placing align cursor decl .union
        { offset := decl.type.size, size := max cursor.size decl.type.size
          align := max cursor.align align, unit := none }
        (some { name := decl.name, type := decl.type, offset := 0, bits := none })
  | overlayNothing (empty : decl.bits = some 0) :
      Placing align cursor decl .union
        { cursor with align := max cursor.align align, unit := none } none
  | overlayBits {width : Nat} (bits : decl.bits = some width) (positive : 0 < width)
      (room : width ≤ 8 * decl.type.size) :
      Placing align cursor decl .union
        { cursor with size := max cursor.size decl.type.size, align := max cursor.align align }
        (some { name := decl.name, type := decl.type, offset := 0, bits := some ⟨0, width⟩ })

/-! ## What placing a field can do -/

section Rules

variable {kind : CompositeKind} {align : Nat} {cursor : Cursor} {decl : FieldDecl}

/-- A field is placed exactly where its end is a word. -/
theorem placeSound_of_lt (fits : (placeExact kind align cursor decl).1.offset < Word.modulus) :
    placeSound kind align cursor decl = .ok (placeExact kind align cursor decl) := by
  unfold placeSound placeExact at *
  cases bits : decl.bits with
  | none =>
    rw [bits] at fits
    cases kind <;> dsimp only at fits <;> dsimp only [placeOrdinary]
    · rw [sum_alignUp_of_lt _ fits]
      rfl
    · dsimp only [pure, bind, Except.pure, Except.bind]
      rw [Word.sum_of_lt fits]
  | some width =>
    rw [bits] at fits
    by_cases empty : width = 0
    · simp only [empty, if_true] at fits ⊢
      cases kind <;> dsimp only at fits <;> dsimp only [closeUnit]
      · rw [alignUp_of_lt fits]
        rfl
      · rfl
    · simp only [empty, if_false] at fits ⊢
      cases kind <;> dsimp only at fits <;> dsimp only [placeBits]
      · cases shared : cursor.unit.filter (·.admits decl.type width) with
        | some unit => rfl
        | none =>
          rw [shared] at fits
          dsimp only at fits ⊢
          rw [sum_alignUp_of_lt _ fits]
          rfl
      · rw [Nat.zero_add]
        rfl

/-- A field whose end is no word overflows. -/
theorem placeSound_of_le (word : cursor.offset < Word.modulus)
    (beyond : Word.modulus ≤ (placeExact kind align cursor decl).1.offset) :
    Overflows (placeSound kind align cursor decl) := by
  unfold placeSound placeExact at *
  cases bits : decl.bits with
  | none =>
    rw [bits] at beyond
    refine Overflows.bind ?_ _
    cases kind <;> dsimp only at beyond
    · exact sum_alignUp_of_le _ beyond
    · exact Overflows.bind ⟨_, Word.sum_of_le beyond⟩ _
  | some width =>
    rw [bits] at beyond
    by_cases empty : width = 0
    · simp only [empty, if_true] at beyond ⊢
      refine Overflows.bind ?_ _
      cases kind <;> dsimp only at beyond
      · exact (alignUp_of_le beyond).bind _
      · exact absurd word (Nat.not_lt.mpr beyond)
    · simp only [empty, if_false] at beyond ⊢
      refine Overflows.bind ?_ _
      cases kind <;> dsimp only at beyond <;> dsimp only [placeBits]
      · cases shared : cursor.unit.filter (·.admits decl.type width) with
        | some unit =>
          -- A field in the open unit leaves the cursor where it was.
          rw [shared] at beyond
          exact absurd word (Nat.not_lt.mpr beyond)
        | none =>
          rw [shared] at beyond
          exact sum_alignUp_of_le _ beyond
      · exact absurd word (Nat.not_lt.mpr beyond)

variable (kind align cursor) in
/-- Exact placement follows the rules. -/
theorem placing_exact (sound : decl.Sound) :
    Placing align cursor decl kind (placeExact kind align cursor decl).1
      (placeExact kind align cursor decl).2 := by
  unfold placeExact
  cases bits : decl.bits with
  | none =>
    cases kind with
    | struct => exact .ordinary rfl bits
    | union =>
      simp only [Nat.zero_add]
      exact .overlay bits
  | some width =>
    have room := sound.room width bits
    by_cases empty : width = 0
    · subst empty
      simp only [if_true]
      cases kind with
      | struct => exact .close rfl bits
      | union => exact .overlayNothing bits
    · simp only [empty, if_false]
      have positive := Nat.pos_of_ne_zero empty
      cases kind with
      | union =>
        simp only [Nat.zero_add]
        exact .overlayBits bits positive room
      | struct =>
        dsimp only
        split
        case h_1 unit found =>
          obtain ⟨isOpen, admitted⟩ := Option.filter_eq_some_iff.mp found
          obtain ⟨alike, room⟩ := unit.admits_iff.mp admitted
          exact .join bits positive isOpen alike room
        case h_2 apart => exact .start bits positive rfl room (Cursor.not_joins_iff.mpr apart)

variable {next : Cursor} {field : Option Field}

/-- An ordinary field of a struct takes the next place. -/
theorem Placing.eq_of_plain (placing : Placing align cursor decl .struct next field)
    (plain : decl.bits = none) :
    next = { offset := roundUp cursor.offset align + decl.type.size
             size := max cursor.size (roundUp cursor.offset align + decl.type.size)
             align := max cursor.align align, unit := none }
      ∧ field = some { name := decl.name, type := decl.type
                       offset := roundUp cursor.offset align, bits := none } := by
  cases placing with
  | ordinary begins => exact begins ▸ ⟨rfl, rfl⟩
  | close _ bits | join bits | start bits => cases plain.symm.trans bits

/-- A bit-field of a struct joins the open storage unit, or begins a unit of its own. -/
theorem Placing.bits_cases {width : Nat} (placing : Placing align cursor decl .struct next field)
    (bits : decl.bits = some width) (positive : 0 < width) :
    (∃ unit, cursor.unit = some unit ∧ unit.size = decl.type.size ∧ cursor.Joins decl width
        ∧ next = { cursor with
            align := max cursor.align align, unit := some { unit with used := unit.used + width } }
        ∧ field = some { name := decl.name, type := decl.type, offset := unit.offset
                         bits := some ⟨unit.used, width⟩ })
      ∨ ¬ cursor.Joins decl width
        ∧ next = { offset := roundUp cursor.offset align + decl.type.size
                   size := max cursor.size (roundUp cursor.offset align + decl.type.size)
                   align := max cursor.align align
                   unit := some ⟨roundUp cursor.offset align, decl.type.size, width⟩ }
        ∧ field = some { name := decl.name, type := decl.type
                         offset := roundUp cursor.offset align, bits := some ⟨0, width⟩ } := by
  cases placing with
  | ordinary _ plain => cases plain.symm.trans bits
  | close _ empty => exact absurd (Option.some.inj (empty.symm.trans bits)) (Nat.ne_of_lt positive)
  | @join _ unit own _ isOpen alike room =>
    obtain rfl := Option.some.inj (own.symm.trans bits)
    have admitted := unit.admits_iff.mpr ⟨alike, room⟩
    exact .inl ⟨unit, isOpen, alike, ⟨unit, isOpen, admitted⟩, rfl, rfl⟩
  | start own _ begins _ apart =>
    obtain rfl := Option.some.inj (own.symm.trans bits)
    exact .inr ⟨apart, begins ▸ ⟨rfl, rfl⟩⟩

end Rules

section Step

variable {name : String} {kind : CompositeKind} {packing : Packing} {cursor next : Cursor}
  {decl : FieldDecl} {field : Option Field}

theorem place_of_sound (sound : decl.Sound) :
    place name kind packing cursor decl
      = placeSound kind (packing.effective decl.type.align) cursor decl := by
  unfold place
  rw [FieldDecl.fault?_eq_none_iff.mpr sound]

theorem place_of_fault {fault : FieldFault} (found : decl.fault? = some fault) :
    place name kind packing cursor decl = .error (.invalidField name decl.label fault) := by
  unfold place
  rw [found]
  rfl

variable (name kind packing decl) in
/-- A declared field is refused, placed exactly, or overflows. -/
theorem place_cases (word : cursor.offset < Word.modulus) :
    let exactly := placeExact kind (packing.effective decl.type.align) cursor decl
    (∃ fault, decl.fault? = some fault
        ∧ place name kind packing cursor decl = .error (.invalidField name decl.label fault))
      ∨ decl.Sound ∧ (exactly.1.offset < Word.modulus
            ∧ place name kind packing cursor decl = .ok exactly
          ∨ Word.modulus ≤ exactly.1.offset ∧ Overflows (place name kind packing cursor decl)) := by
  intro exactly
  cases found : decl.fault? with
  | some fault => exact .inl ⟨fault, rfl, place_of_fault found⟩
  | none =>
    have sound := FieldDecl.fault?_eq_none_iff.mp found
    rw [place_of_sound sound]
    rcases Nat.lt_or_ge exactly.1.offset Word.modulus with fits | beyond
    · exact .inr ⟨sound, .inl ⟨fits, placeSound_of_lt fits⟩⟩
    · exact .inr ⟨sound, .inr ⟨beyond, placeSound_of_le word beyond⟩⟩

/-- A field that was placed is sound, and was placed exactly. -/
theorem eq_of_place (word : cursor.offset < Word.modulus)
    (placed : place name kind packing cursor decl = .ok (next, field)) :
    decl.Sound ∧ next.offset < Word.modulus
      ∧ (next, field) = placeExact kind (packing.effective decl.type.align) cursor decl := by
  rcases place_cases name kind packing decl word with
    ⟨_, _, refused⟩ | ⟨sound, ⟨fits, same⟩ | ⟨_, overflows⟩⟩
  · cases placed.symm.trans refused
  · have whole := Except.ok.inj (placed.symm.trans same)
    rw [← whole] at fits
    exact ⟨sound, fits, whole⟩
  · exact absurd (placed ▸ overflows) (not_overflows_ok _)

/-- What was placed was placed by one of the rules. -/
theorem placing_of_place (word : cursor.offset < Word.modulus)
    (placed : place name kind packing cursor decl = .ok (next, field)) :
    Placing (packing.effective decl.type.align) cursor decl kind next field := by
  obtain ⟨sound, _, same⟩ := eq_of_place word placed
  have step := placing_exact kind (packing.effective decl.type.align) cursor sound
  rwa [← same] at step

end Step

/-! ## Declarations -/

/-- Places the fields of a declaration in order, with sums that may be any numbers. -/
def placeAllExact (kind : CompositeKind) (packing : Packing) :
    Cursor → List FieldDecl → Cursor × List Field
  | cursor, [] => (cursor, [])
  | cursor, decl :: rest =>
    let (next, field) := placeExact kind (packing.effective decl.type.align) cursor decl
    let (last, fields) := placeAllExact kind packing next rest
    (last, field.toList ++ fields)

/-- Placing the fields of a declaration in order by the rules. -/
inductive PlacingAll (kind : CompositeKind) (packing : Packing) :
    Cursor → List FieldDecl → Cursor → List Field → Prop
  | nil {cursor : Cursor} : PlacingAll kind packing cursor [] cursor []
  | cons {cursor next last : Cursor} {decl : FieldDecl} {rest : List FieldDecl}
      {field : Option Field} {tail : List Field}
      (first : Placing (packing.effective decl.type.align) cursor decl kind next field)
      (others : PlacingAll kind packing next rest last tail) :
      PlacingAll kind packing cursor (decl :: rest) last (field.toList ++ tail)

section Declaration

variable {name : String} {kind : CompositeKind} {packing : Packing} {cursor last : Cursor}
  {decls : List FieldDecl} {fields : List Field}

theorem placeAll_cons {decl : FieldDecl}
    (placed : placeAll name kind packing cursor (decl :: decls) = .ok (last, fields)) :
    ∃ next field tail, place name kind packing cursor decl = .ok (next, field)
      ∧ placeAll name kind packing next decls = .ok (last, tail)
      ∧ fields = field.toList ++ tail := by
  unfold placeAll at placed
  obtain ⟨⟨next, field⟩, first, placed⟩ := bind_eq_ok.mp placed
  obtain ⟨⟨last', tail⟩, others, placed⟩ := bind_eq_ok.mp placed
  cases placed
  exact ⟨next, field, tail, first, others, rfl⟩

theorem placeAll_of_place {decl : FieldDecl} {step : Cursor × Option Field}
    (first : place name kind packing cursor decl = .ok step) :
    placeAll name kind packing cursor (decl :: decls)
      = placeAll name kind packing step.1 decls >>= fun (last, tail) =>
          pure (last, step.2.toList ++ tail) := by
  rw [placeAll, first]
  rfl

/-- A declaration that was placed is sound, and was placed exactly. -/
theorem eq_of_placeAll (word : cursor.offset < Word.modulus)
    (placed : placeAll name kind packing cursor decls = .ok (last, fields)) :
    (∀ decl ∈ decls, decl.Sound) ∧ (last, fields) = placeAllExact kind packing cursor decls := by
  induction decls generalizing cursor fields with
  | nil =>
    cases placed
    exact ⟨List.forall_mem_nil _, rfl⟩
  | cons decl rest ih =>
    obtain ⟨next, field, tail, first, others, rfl⟩ := placeAll_cons placed
    obtain ⟨sound, fits, same⟩ := eq_of_place word first
    obtain ⟨later, tails⟩ := ih fits others
    refine ⟨List.forall_mem_cons.mpr ⟨sound, later⟩, ?_⟩
    rw [placeAllExact, ← same]
    dsimp only
    rw [← tails]

theorem fits_of_placeAll (word : cursor.offset < Word.modulus)
    (placed : placeAll name kind packing cursor decls = .ok (last, fields)) :
    last.offset < Word.modulus := by
  induction decls generalizing cursor fields with
  | nil =>
    cases placed
    exact word
  | cons decl rest ih =>
    obtain ⟨next, field, tail, first, others, _⟩ := placeAll_cons placed
    exact ih (eq_of_place word first).2.1 others

variable (kind packing) in
/-- Exact placement of a sound declaration follows the rules. -/
theorem placingAll_exact (sound : ∀ decl ∈ decls, decl.Sound) (cursor : Cursor) :
    PlacingAll kind packing cursor decls (placeAllExact kind packing cursor decls).1
      (placeAllExact kind packing cursor decls).2 := by
  induction decls generalizing cursor with
  | nil => exact .nil
  | cons decl rest ih =>
    obtain ⟨own, later⟩ := List.forall_mem_cons.mp sound
    exact .cons (placing_exact kind _ _ own) (ih later _)

theorem placingAll_of_placeAll (word : cursor.offset < Word.modulus)
    (placed : placeAll name kind packing cursor decls = .ok (last, fields)) :
    PlacingAll kind packing cursor decls last fields := by
  obtain ⟨sound, same⟩ := eq_of_placeAll word placed
  have steps := placingAll_exact kind packing sound cursor
  rwa [← same] at steps

end Declaration

/-! ## Whole layouts -/

section Whole

variable {name : String} {kind : CompositeKind} {packing : Packing} {decls : List FieldDecl}
  {layout : Layout}

theorem compute_of_accepted (accepted : packing.Accepted) (name : String) (kind : CompositeKind)
    (decls : List FieldDecl) :
    compute name kind decls packing
      = placeAll name kind packing {} decls >>= fun (cursor, fields) =>
          assemble name kind packing cursor fields := by
  cases packing with
  | natural => rfl
  | packed limit =>
    have power : Packing.isPowerOfTwo limit = true := accepted
    unfold compute
    simp only [power, if_true]

theorem compute_of_refused (refused : ¬ packing.Accepted) (name : String) (kind : CompositeKind)
    (decls : List FieldDecl) :
    ∃ limit, packing = .packed limit ∧ compute name kind decls packing
      = .error (.invalidField name "_pack_" (.packing limit)) := by
  cases packing with
  | natural => exact absurd trivial refused
  | packed limit =>
    have other : Packing.isPowerOfTwo limit = false := by simpa [Packing.Accepted] using refused
    refine ⟨limit, rfl, ?_⟩
    unfold compute
    simp only [other]
    rfl

theorem accepted_of_compute (computed : compute name kind decls packing = .ok layout) :
    packing.Accepted := by
  by_contra refused
  obtain ⟨_, _, failed⟩ := compute_of_refused refused name kind decls
  cases computed.symm.trans failed

theorem assemble_eq_ok {cursor : Cursor} {fields : List Field}
    (assembled : assemble name kind packing cursor fields = .ok layout) :
    enterAll name [] (fields.flatMap exposed) = .ok ()
      ∧ roundUp cursor.size cursor.align < Word.modulus
      ∧ layout =
          { name, kind, packing, fields, members := fields.flatMap exposed
            size := roundUp cursor.size cursor.align, align := cursor.align } := by
  unfold assemble at assembled
  obtain ⟨⟨⟩, entered, assembled⟩ := bind_eq_ok.mp assembled
  obtain ⟨size, rounded, assembled⟩ := bind_eq_ok.mp assembled
  obtain ⟨small, rfl⟩ := alignUp_eq_ok_iff.mp rounded
  cases assembled
  exact ⟨entered, small, rfl⟩

theorem compute_eq_ok (computed : compute name kind decls packing = .ok layout) :
    packing.Accepted ∧ ∃ cursor fields,
      placeAll name kind packing {} decls = .ok (cursor, fields)
        ∧ enterAll name [] (fields.flatMap exposed) = .ok ()
        ∧ roundUp cursor.size cursor.align < Word.modulus
        ∧ layout =
            { name, kind, packing, fields, members := fields.flatMap exposed
              size := roundUp cursor.size cursor.align, align := cursor.align } := by
  have accepted := accepted_of_compute computed
  rw [compute_of_accepted accepted] at computed
  obtain ⟨⟨cursor, fields⟩, placed, assembled⟩ := bind_eq_ok.mp computed
  exact ⟨accepted, cursor, fields, placed, assemble_eq_ok assembled⟩

end Whole

end Layout

end CInterop
