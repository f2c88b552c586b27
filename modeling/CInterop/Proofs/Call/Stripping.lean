import CInterop.Proofs.Call.Passing
import CInterop.Proofs.Layout.Alignment
import CInterop.Proofs.Layout.Promotion

/-!
# What is left of a struct

Every struct of the host that a call accepts can be laid out without its hollow fields
(`CType.Hosted.strips`), by a simulation of the two placements: what is left of the declaration
never gets ahead of it, so that it has a layout whenever the declaration has one. So a call places
the parts of such a struct in a layout that is never larger than the struct, and that agrees with it
exactly when the hollow fields have no effect on size and alignment (`CType.extent_eq_layout`).
-/

namespace CInterop

namespace CType

/-! ## Types of the host -/

/-- The types that registries of the host make. -/
inductive Hosted : CType → Prop
  | primitive {primitive : Primitive} {type : CType}
      (described : primitive.type? .host = some type) : Hosted type
  | pointer {registry : Registry} {target : CType} (host : registry.platform = .host)
      (built : Built target) : Hosted (registry.pointerTo target)
  | array {element type : CType} {count : Nat} (hosted : Hosted element)
      (sized : Registry.array element count = .ok type) : Hosted type
  | composite {name : String} {kind : CompositeKind} {decls : List FieldDecl} {packing : Packing}
      {layout : Layout} (hosted : ∀ decl ∈ decls, Hosted decl.type)
      (computed : Layout.compute name kind decls packing = .ok layout) : Hosted (.composite layout)

namespace Hosted

variable {type : CType}

theorem built (hosted : Hosted type) : Built type := by
  induction hosted with
  | primitive described => exact .primitive described
  | pointer _ built => exact .pointer built
  | array _ sized built => exact .array built sized
  | composite _ computed built => exact .composite built computed

/-- The scalars of the host are passed as they are laid out. -/
theorem passed_scalar (hosted : Hosted type) (single : type.isScalar = true) :
    type.passed = .ok (.scalar type.size type.align) := by
  cases hosted with
  | @primitive primitive _ described =>
    cases primitive <;> cases described <;> first | rfl | cases single
  | @pointer registry target host =>
    obtain ⟨pointee, same⟩ := pointerTo_eq registry target
    rw [same, host]
    rfl
  | array _ sized =>
    obtain ⟨_, _, rfl⟩ := Registry.array_eq_ok sized
    cases single
  | composite => cases single

theorem power (hosted : Hosted type) : type.align.isPowerOfTwo := by
  induction hosted with
  | @primitive primitive type described =>
    have small : type.align = 2 ^ 0 ∨ type.align = 2 ^ 1 ∨ type.align = 2 ^ 2
        ∨ type.align = 2 ^ 3 := by
      cases primitive <;> cases described <;> decide
    rcases small with same | same | same | same <;> exact ⟨_, same⟩
  | @pointer registry target host =>
    obtain ⟨pointee, same⟩ := pointerTo_eq registry target
    rw [same, host]
    exact ⟨3, rfl⟩
  | array _ sized power =>
    obtain ⟨_, _, rfl⟩ := Registry.array_eq_ok sized
    exact power
  | composite _ computed powers =>
    obtain ⟨accepted, last, fields, placed, _, _, rfl⟩ := Layout.compute_eq_ok computed
    exact (Layout.placingAll_of_placeAll Word.modulus_pos placed).isPowerOfTwo accepted powers
      ⟨0, rfl⟩

end Hosted

/-! ## What is left of a type -/

/-- The names of the members that an unnamed field of a type exposes. -/
def memberNames (type : CType) : List String :=
  (type.layout?.map fun layout => layout.members.map (·.name)).getD []

/-- What is left of a type may stand for the type in a declaration: it takes no more space and has
no names of its own. -/
structure Less (type bare : CType) : Prop where
  size : bare.size ≤ type.size
  align : bare.align ∣ type.align
  present : bare.isVoid = false
  kept : type.isIntegral = true → bare = type
  names : bare.memberNames.Sublist type.memberNames
  built : bare.Built

theorem Less.refl {type : CType} (present : type.isVoid = false) (built : type.Built) :
    Less type type :=
  ⟨Nat.le_refl _, Nat.dvd_refl _, present, fun _ => rfl, .refl _, built⟩

end CType

namespace Layout

/-! ## Placing what is left -/

theorem exposedNames_ordinary (name : Option String) (type : CType) (offset : Nat) :
    exposedNames { name, type, offset, bits := none } = name.elim type.memberNames ([·]) := by
  cases name with
  | some name => rfl
  | none =>
    unfold exposedNames exposed CType.memberNames
    cases type.layout? <;> simp [Function.comp_def]

theorem exposedNames_bits (name : Option String) (type : CType) (offset : Nat) (slot : BitSlot) :
    exposedNames { name, type, offset, bits := some slot } = name.toList := by
  cases name with
  | some name => rfl
  | none => simp [exposedNames, exposed]

/-- What is left of a declaration never gets ahead of it. -/
structure Shrinks (cursor bare : Cursor) : Prop where
  offset : bare.offset ≤ cursor.offset
  size : bare.size ≤ cursor.size
  align : bare.align ∣ cursor.align
  power : cursor.align.isPowerOfTwo
  units : bare.unit.map StorageUnit.filled = cursor.unit.map StorageUnit.filled

/-- What is left of a declared field does not get ahead, and brings no names of its own. -/
def Shrunk (next next' : Cursor) (field field' : Option Field) : Prop :=
  Shrinks next next'
    ∧ (field'.toList.flatMap exposedNames).Sublist (field.toList.flatMap exposedNames)

section Field

variable {row : FieldDecl × CType} {cursor bare next next' : Cursor} {field field' : Option Field}

theorem Shrinks.positive (shrinks : Shrinks cursor bare) : 0 < bare.align :=
  Nat.pos_of_dvd_of_pos shrinks.align (Nat.pos_of_isPowerOfTwo shrinks.power)

/-- Of a hollow field nothing is left but the end of the storage unit. -/
theorem Shrinks.step_hollow (shrinks : Shrinks cursor bare) (hollow : row.1.isHollow = true)
    (power : row.1.type.align.isPowerOfTwo) (sound : row.1.Sound)
    (placing : Placing row.1.type.align cursor row.1 .struct next field)
    (placing' : Placing FieldDecl.closer.type.align bare FieldDecl.closer .struct next' field') :
    Shrunk next next' field field' := by
  have grown := le_roundUp cursor.offset (Nat.pos_of_isPowerOfTwo power)
  have offsets := shrinks.offset
  have sizes := shrinks.size
  have last := placing.align_eq
  obtain ⟨rfl, rfl⟩ := placing_closer placing' shrinks.positive
  obtain ⟨behind, under, closed⟩ : bare.offset ≤ next.offset ∧ max bare.size bare.offset ≤ next.size
      ∧ next.unit = none := by
    cases placing with
    | ordinary begins | close begins =>
      subst begins
      exact ⟨by dsimp only; omega, by dsimp only; omega, rfl⟩
    | join bits small => exact absurd (full_of_bits sound bits small) (by simp [hollow])
    | start bits small => exact absurd (full_of_bits sound bits small) (by simp [hollow])
  refine ⟨⟨behind, under, ?_, ?_, ?_⟩, by simp⟩
  · rw [last]
    exact Nat.dvd_trans shrinks.align (dvd_max_of_power shrinks.power power).1
  · rw [last]
    exact max_rec' Nat.isPowerOfTwo shrinks.power power
  · rw [closed]

/-- What is left of an ordinary field starts and ends no later than the field. -/
theorem Shrinks.step_ordinary (shrinks : Shrinks cursor bare) (less : row.1.type.Less row.2)
    (plain : row.1.bits = none) (power : row.1.type.align.isPowerOfTwo)
    (placing : Placing row.1.type.align cursor row.1 .struct next field)
    (placing' : Placing row.2.align bare { row.1 with type := row.2 } .struct next' field') :
    Shrunk next next' field field' := by
  have start_le : roundUp bare.offset row.2.align ≤ roundUp cursor.offset row.1.type.align :=
    roundUp_mono shrinks.offset less.align (Nat.pos_of_isPowerOfTwo power)
  have size_le := less.size
  have sizes := shrinks.size
  obtain ⟨rfl, rfl⟩ := placing.eq_of_plain plain
  obtain ⟨rfl, rfl⟩ := placing'.eq_of_plain plain
  refine ⟨⟨?_, ?_, ?_, ?_, rfl⟩, ?_⟩
  · dsimp only
    omega
  · dsimp only
    omega
  · exact max_dvd_max shrinks.align less.align shrinks.power power
  · exact max_rec' Nat.isPowerOfTwo shrinks.power power
  · simp only [Option.toList_some, List.flatMap_singleton, exposedNames_ordinary]
    cases row.1.name with
    | none => exact less.names
    | some own => exact .refl _

/-- A bit-field joins the open storage unit in both placements or in none. -/
theorem Shrinks.step_bits {width : Nat} (shrinks : Shrinks cursor bare)
    (bits : row.1.bits = some width) (small : 0 < width) (power : row.1.type.align.isPowerOfTwo)
    (placing : Placing row.1.type.align cursor row.1 .struct next field)
    (placing' : Placing row.1.type.align bare row.1 .struct next' field') :
    Shrunk next next' field field' := by
  have start_le : roundUp bare.offset row.1.type.align ≤ roundUp cursor.offset row.1.type.align :=
    roundUp_mono shrinks.offset (Nat.dvd_refl _) (Nat.pos_of_isPowerOfTwo power)
  have offsets := shrinks.offset
  have sizes := shrinks.size
  have powers := max_rec' Nat.isPowerOfTwo shrinks.power power
  have aligns := max_dvd_max shrinks.align (Nat.dvd_refl row.1.type.align) shrinks.power power
  rcases placing.bits_cases bits small with
    ⟨_, isOpen, -, joins, rfl, rfl⟩ | ⟨apart, rfl, rfl⟩
  · rcases placing'.bits_cases bits small with ⟨_, isOpen', -, -, rfl, rfl⟩ | ⟨apart', -, -⟩
    · have filled := shrinks.units
      rw [isOpen, isOpen'] at filled
      simp only [Option.map_some, StorageUnit.filled, Option.some.injEq, Prod.mk.injEq] at filled
      refine ⟨⟨offsets, sizes, aligns, powers, ?_⟩, ?_⟩
      · simp [StorageUnit.filled, filled]
      · simp only [Option.toList_some, List.flatMap_singleton, exposedNames_bits]
        exact .refl _
    · exact absurd ((joins_congr shrinks.units).mpr joins) apart'
  · rcases placing'.bits_cases bits small with ⟨_, _, _, joins', -, -⟩ | ⟨-, rfl, rfl⟩
    · exact absurd ((joins_congr shrinks.units).mp joins') apart
    · refine ⟨⟨?_, ?_, aligns, powers, rfl⟩, ?_⟩
      · exact Nat.add_le_add_right start_le _
      · dsimp only
        omega
      · simp only [Option.toList_some, List.flatMap_singleton, exposedNames_bits]
        exact .refl _

/-- What is left of a declared field that is refused nowhere is refused nowhere. -/
theorem sound_strip (sound : row.1.Sound)
    (less : row.1.isHollow = false → row.1.type.Less row.2) : (FieldDecl.strip row).Sound := by
  unfold FieldDecl.strip
  split
  · exact FieldDecl.fault?_eq_none_iff.mp rfl
  · rename_i full
    have less := less (by simpa using full)
    have kept (width : Nat) (bits : row.1.bits = some width) : row.2 = row.1.type :=
      less.kept (sound.integral width bits)
    refine ⟨less.present, fun width bits => ?_, fun width bits => ?_, sound.unnamed⟩
    · rw [kept width bits]
      exact sound.integral width bits
    · rw [kept width bits]
      exact sound.room width bits

end Field

/-! ## Whole declarations -/

/-- What is left of a declaration never gets ahead of it. -/
theorem Shrinks.placingAll {rows : List (FieldDecl × CType)}
    (powers : ∀ row ∈ rows, row.1.type.align.isPowerOfTwo) (sound : ∀ row ∈ rows, row.1.Sound)
    (less : ∀ row ∈ rows, row.1.isHollow = false → row.1.type.Less row.2)
    {cursor bare last last' : Cursor} {fields fields' : List Field} (shrinks : Shrinks cursor bare)
    (steps : PlacingAll .struct .natural cursor (rows.map (·.1)) last fields)
    (steps' : PlacingAll .struct .natural bare (rows.map FieldDecl.strip) last' fields') :
    Shrinks last last' ∧ (fields'.flatMap exposedNames).Sublist (fields.flatMap exposedNames) := by
  induction rows generalizing cursor bare fields fields' with
  | nil =>
    cases steps
    cases steps'
    exact ⟨shrinks, .refl _⟩
  | cons row rest ih =>
    obtain ⟨power, rest_powers⟩ := List.forall_mem_cons.mp powers
    obtain ⟨own_sound, rest_sound⟩ := List.forall_mem_cons.mp sound
    obtain ⟨own, rest_less⟩ := List.forall_mem_cons.mp less
    rw [List.map_cons] at steps steps'
    cases steps with
    | @cons _ next _ _ _ field tail placing others =>
    cases steps' with
    | @cons _ next' _ _ _ field' tail' placing' others' =>
    have step : Shrunk next next' field field' := by
      cases hollow : row.1.isHollow with
      | true =>
        rw [FieldDecl.strip, if_pos hollow] at placing'
        exact shrinks.step_hollow hollow power own_sound placing placing'
      | false =>
        have own := own hollow
        rw [FieldDecl.strip, if_neg (by simp [hollow])] at placing'
        cases bits : row.1.bits with
        | none => exact shrinks.step_ordinary own bits power placing placing'
        | some width =>
          have small := FieldDecl.width_pos hollow bits
          rw [own.kept (own_sound.integral width bits)] at placing'
          exact shrinks.step_bits bits small power placing placing'
    obtain ⟨shrunk, names⟩ := ih rest_powers rest_sound rest_less step.1 others others'
    refine ⟨shrunk, ?_⟩
    rw [List.flatMap_append, List.flatMap_append]
    exact step.2.append names

theorem shrinks_start : Shrinks {} {} :=
  ⟨Nat.le_refl _, Nat.le_refl _, Nat.dvd_refl _, ⟨0, rfl⟩, rfl⟩

end Layout

namespace CType

/-! ## Whole types -/

/-- What is left of a struct has a layout, and takes no more space. -/
theorem strips_rows {name : String} {rows : List (FieldDecl × CType)} {layout : Layout}
    (hosted : ∀ row ∈ rows, row.1.type.Hosted)
    (left : ∀ row ∈ rows, row.1.isHollow = false →
      Strips row.1.type row.2 ∧ Less row.1.type row.2)
    (computed : Layout.compute name .struct (rows.map (·.1)) .natural = .ok layout) :
    ∃ bare, Strips (.composite layout) (.composite bare)
      ∧ Less (.composite layout) (.composite bare) := by
  have less row (mem : row ∈ rows) full := (left row mem full).2
  obtain ⟨accepted, last, fields, placed, entered, rounded, rfl⟩ := Layout.compute_eq_ok computed
  have sound : ∀ row ∈ rows, row.1.Sound := fun row mem =>
    (Layout.eq_of_placeAll Word.modulus_pos placed).1 row.1 (List.mem_map_of_mem mem)
  have bare_sound : ∀ decl ∈ rows.map FieldDecl.strip, decl.Sound :=
    List.forall_mem_map.mpr fun row mem => Layout.sound_strip (sound row mem) (less row mem)
  have bare_built : ∀ decl ∈ rows.map FieldDecl.strip, decl.type.Built := by
    refine List.forall_mem_map.mpr fun row mem => ?_
    unfold FieldDecl.strip
    split
    · exact .primitive (rfl : Primitive.uint8.type? .host = some _)
    · rename_i full
      exact (less row mem (by simpa using full)).built
  obtain ⟨shrinks, names⟩ := Layout.shrinks_start.placingAll
    (fun row mem => (hosted row mem).power) sound less
    (Layout.placingAll_of_placeAll Word.modulus_pos placed)
    (Layout.placingAll_exact .struct .natural bare_sound {})
  have below := Layout.roundUp_mono shrinks.size shrinks.align
    (Nat.pos_of_isPowerOfTwo shrinks.power)
  have distinct := (Layout.enterAll_eq_ok_iff.mp entered).2.1
  rw [Layout.names_table] at distinct
  have stripped := Layout.compute_of_small name accepted bare_built bare_sound
    (Layout.names_table ▸ distinct.sublist names) (Nat.lt_of_le_of_lt below rounded)
  refine ⟨_, .struct rows (fun row mem => (hosted row mem).built)
    (fun row mem full => (left row mem full).1) computed stripped,
    ⟨below, shrinks.align, rfl, by simp [isIntegral], ?_, .composite bare_built stripped⟩⟩
  simpa only [memberNames, layout?, Option.map_some, Option.getD_some, Layout.names_table]
    using names

theorem strips_struct {name : String} {decls : List FieldDecl} {layout : Layout}
    (hosted : ∀ decl ∈ decls, decl.type.Hosted)
    (computed : Layout.compute name .struct decls .natural = .ok layout)
    (left : ∀ decl ∈ decls, decl.isHollow = false →
      ∃ bare, Strips decl.type bare ∧ Less decl.type bare) :
    ∃ bare, Strips (.composite layout) (.composite bare)
      ∧ Less (.composite layout) (.composite bare) := by
  have some_left (decl : FieldDecl) : ∃ bare, decl ∈ decls → decl.isHollow = false →
      Strips decl.type bare ∧ Less decl.type bare := by
    by_cases counts : decl ∈ decls ∧ decl.isHollow = false
    · obtain ⟨bare, spec⟩ := left decl counts.1 counts.2
      exact ⟨bare, fun _ _ => spec⟩
    · exact ⟨.void, fun mem full => absurd ⟨mem, full⟩ counts⟩
  choose bare spec using some_left
  have declared : (decls.map fun decl => (decl, bare decl)).map (·.1) = decls := by
    simp [Function.comp_def]
  exact strips_rows (List.forall_mem_map.mpr hosted) (List.forall_mem_map.mpr spec)
    (declared.symm ▸ computed)

/-! ### The fields of a struct that is passed -/

theorem struct_of_checkPassed {layout : Layout} (checked : checkPassed layout = .ok ()) :
    layout.kind = .struct ∧ layout.packing = .natural := by
  obtain ⟨name, kind, packing, fields, members, size, align⟩ := layout
  cases kind with
  | union => cases checked
  | struct =>
    cases packing with
    | natural => exact ⟨rfl, rfl⟩
    | packed => cases checked

/-- Where the fields of a struct have parts, so has every ordinary field. -/
theorem parts_of_mem {fields : List Field} {unit : Option Nat} {parts : List Passed}
    (passed : passedFields unit fields = .ok parts) {field : Field} (mem : field ∈ fields)
    (plain : field.bits = none) : ∃ own, field.type.passedParts = .ok own := by
  induction fields generalizing unit parts with
  | nil => cases mem
  | cons first rest ih =>
    have later {unit : Option Nat} {others : List Passed} (mem : field ∈ rest)
        (passed : passedFields unit rest = .ok others) :
        ∃ own, field.type.passedParts = .ok own := ih passed mem
    cases bits : first.bits with
    | none =>
      obtain ⟨own, others, here, passed, _⟩ := Layout.passedFields_plain bits passed
      rcases List.mem_cons.mp mem with rfl | mem
      · exact ⟨own, here⟩
      · exact later mem passed
    | some slot =>
      have mem : field ∈ rest := by
        rcases List.mem_cons.mp mem with rfl | mem
        · cases bits.symm.trans plain
        · exact mem
      by_cases same : unit = some first.offset
      · exact later mem (Layout.passedFields_joined passed (by simp [bits]) same)
      · obtain ⟨_, _, _, passed, _⟩ := Layout.passedFields_first (by simp [bits]) same passed
        exact later mem passed

/-- Where the fields of a struct have parts, so has the type of every declared field. -/
theorem parts_of_decl {kind : CompositeKind} {packing : Packing} {decls : List FieldDecl}
    {cursor last : Layout.Cursor} {fields : List Field}
    (steps : Layout.PlacingAll kind packing cursor decls last fields)
    (hosted : ∀ decl ∈ decls, Hosted decl.type) (sound : ∀ decl ∈ decls, decl.Sound)
    (parts : ∀ field ∈ fields, field.bits = none → ∃ own, field.type.passedParts = .ok own)
    {decl : FieldDecl} (mem : decl ∈ decls) :
    ∃ own, decl.type.passedParts = .ok own := by
  induction steps with
  | nil => cases mem
  | @cons _ _ _ first _ field _ placing _ ih =>
    obtain ⟨own_hosted, rest_hosted⟩ := List.forall_mem_cons.mp hosted
    obtain ⟨own_sound, rest_sound⟩ := List.forall_mem_cons.mp sound
    rcases List.mem_cons.mp mem with rfl | mem
    · have own {placed : Field} (here : field = some placed) (same : placed.type = decl.type)
          (plain : placed.bits = none) : ∃ own, decl.type.passedParts = .ok own :=
        same ▸ parts placed (List.mem_append_left _ (here ▸ List.mem_singleton_self _)) plain
      have single {width : Nat} (bits : decl.bits = some width) :
          ∃ own, decl.type.passedParts = .ok own := by
        have scalar := isScalar_of_isIntegral (own_sound.integral width bits)
        obtain ⟨_, refused⟩ | ⟨_, _, _, parts⟩ := parts_of_isScalar scalar
        · exact nomatch refused.symm.trans (own_hosted.passed_scalar scalar)
        · exact ⟨_, parts⟩
      cases placing with
      | ordinary | overlay => exact own rfl rfl rfl
      | close _ bits | overlayNothing bits | join bits | start bits | overlayBits bits =>
        exact single bits
    · have later field mem := parts field (List.mem_append_right _ mem)
      exact ih rest_hosted rest_sound later mem

/-- Types of the host that have parts can be laid out without hollow fields, in no more space. -/
theorem Hosted.strips {type : CType} (hosted : Hosted type) (full : type.isHollow = false)
    {parts : List Passed} (passed : type.passedParts = .ok parts) :
    ∃ bare, Strips type bare ∧ Less type bare := by
  have scalar {type : CType} (hosted : Hosted type) (single : type.isScalar = true) :
      ∃ bare, Strips type bare ∧ Less type bare := by
    have present : type.isVoid = false := by
      cases type with
      | void => cases single
      | _ => rfl
    exact ⟨type, .scalar single (hosted.passed_scalar single), .refl present hosted.built⟩
  induction hosted generalizing parts with
  | @primitive primitive type described =>
    have undivided := undivided_of_primitive described
    refine scalar (.primitive described) ?_
    cases type with
    | void => cases passed
    | array => cases undivided.1
    | composite => cases undivided.2
    | _ => rfl
  | @pointer registry target host built =>
    refine scalar (.pointer host built) ?_
    obtain ⟨pointee, same⟩ := pointerTo_eq registry target
    rw [same]
    rfl
  | @array element type count hosted sized ih =>
    obtain ⟨_, small, rfl⟩ := Registry.array_eq_ok sized
    simp only [isHollow, Bool.or_eq_false_iff, decide_eq_false_iff_not] at full
    rw [passedParts, if_neg full.1] at passed
    obtain ⟨own, element_passed, _⟩ := bind_eq_ok.mp passed
    obtain ⟨bare, strips, less⟩ := ih full.2 element_passed
    have rows := Nat.mul_le_mul_right count less.size
    have resized : Registry.array bare count = .ok (.array bare count) := by
      unfold Registry.array
      rw [if_neg (by simp [less.present]), if_pos (Nat.lt_of_le_of_lt rows small)]
      rfl
    exact ⟨_, .array strips, rows, less.align, rfl, by simp [isIntegral], .refl _,
      .array less.built resized⟩
  | @composite name kind decls packing layout hosted computed ih =>
    obtain ⟨_, last, fields, placed, _, _, same⟩ := Layout.compute_eq_ok computed
    rw [passedParts] at passed
    obtain ⟨_, checked, passed⟩ := bind_eq_ok.mp passed
    obtain ⟨own, fields_passed, _⟩ := bind_eq_ok.mp passed
    obtain ⟨rfl, rfl⟩ : kind = .struct ∧ packing = .natural := by
      have struct := struct_of_checkPassed checked
      rwa [same] at struct
    have parts (field : Field) (mem : field ∈ fields) (plain : field.bits = none) :
        ∃ own, field.type.passedParts = .ok own :=
      parts_of_mem (same ▸ fields_passed) mem plain
    obtain ⟨bare, spec⟩ := strips_struct hosted computed (by
      intro decl mem full
      obtain ⟨_, own⟩ := parts_of_decl (Layout.placingAll_of_placeAll Word.modulus_pos placed)
        hosted (Layout.eq_of_placeAll Word.modulus_pos placed).1 parts mem
      exact ih decl mem (Bool.or_eq_false_iff.mp full).2 own)
    exact ⟨_, spec⟩

theorem passedParts_of_passed {type : CType} {shape : Passed} (composite : type.isComposite = true)
    (accepted : type.passed = .ok shape) : type.passedParts = .ok [shape] := by
  cases type with
  | composite layout =>
    obtain ⟨_, checked, accepted⟩ := bind_eq_ok.mp accepted
    obtain ⟨parts, passed, accepted⟩ := bind_eq_ok.mp accepted
    cases accepted
    rw [passedParts]
    exact bind_eq_ok.mpr ⟨_, checked, bind_eq_ok.mpr ⟨_, passed, rfl⟩⟩
  | _ => cases composite

theorem isHollow_of_isComposite {type : CType} (composite : type.isComposite = true) :
    type.isHollow = false := by
  cases type with
  | composite => rfl
  | _ => cases composite

/-- A call places a struct as the struct is laid out without its hollow fields, as every struct of
the host can be. The two layouts agree exactly when these fields change neither size nor alignment,
and so where there are none. -/
theorem extent_eq_layout {type : CType} {shape : Passed} (composite : type.isComposite = true)
    (accepted : type.passed = .ok shape) :
    (∀ bare, Strips type bare → shape.extent = (bare.size, bare.align)
        ∧ (shape.extent = (type.size, type.align) ↔
          bare.size = type.size ∧ bare.align = type.align))
      ∧ (Hosted type → ∃ bare, Strips type bare ∧ bare.size ≤ type.size ∧ bare.align ∣ type.align)
      ∧ (Solid type → shape.extent = (type.size, type.align)) := by
  refine ⟨fun bare strips => ?_, fun hosted => ?_, fun solid =>
    extent_of_solid solid composite accepted⟩
  · have extent := extent_of_strips strips composite accepted
    rw [extent]
    exact ⟨rfl, Prod.mk.injEq _ _ _ _ ▸ Iff.rfl⟩
  · obtain ⟨bare, strips, less⟩ := hosted.strips (isHollow_of_isComposite composite)
      (passedParts_of_passed composite accepted)
    exact ⟨bare, strips, less.size, less.align⟩

/-! ## A struct with a hollow field -/

/-- A byte. -/
def byte : CType := .natural "uint8" .w8 false

/-- An array of no words, which only asks for an alignment. -/
def noWords : CType := .array (.natural "uint32" .w32 false) 0

/-- Two bytes with an array of no words between them. -/
def gapDecls : List FieldDecl :=
  [⟨some "a", byte, none⟩, ⟨none, noWords, none⟩, ⟨some "y", byte, none⟩]

/-- The array moves the second byte. -/
def gapLayout : Layout :=
  { name := "Gap", kind := .struct, packing := .natural
    fields := [⟨some "a", byte, 0, none⟩, ⟨none, noWords, 4, none⟩, ⟨some "y", byte, 4, none⟩]
    members := [⟨"a", byte, 0, none⟩, ⟨"y", byte, 4, none⟩]
    size := 8, align := 4 }

/-- The two bytes without the array. -/
def closeLayout : Layout :=
  { name := "Gap", kind := .struct, packing := .natural
    fields := [⟨some "a", byte, 0, none⟩, ⟨some "y", byte, 1, none⟩]
    members := [⟨"a", byte, 0, none⟩, ⟨"y", byte, 1, none⟩]
    size := 2, align := 1 }

theorem gap_decls_hosted : ∀ decl ∈ gapDecls, decl.type.Hosted := by
  have byte_hosted : byte.Hosted := .primitive (rfl : Primitive.uint8.type? .host = some _)
  have word := Hosted.primitive (rfl : Primitive.uint32.type? .host = some _)
  have none_of_them := Hosted.array word (rfl : Registry.array _ 0 = .ok noWords)
  simpa only [gapDecls, List.forall_mem_cons] using
    ⟨byte_hosted, none_of_them, byte_hosted, by simp⟩

theorem compute_gap : Layout.compute "Gap" .struct gapDecls .natural = .ok gapLayout := by rfl

theorem passed_gap :
    (composite gapLayout).passed = .ok (.struct [.scalar 1 1, .scalar 1 1]) := by rfl

theorem gap_hosted : (composite gapLayout).Hosted :=
  .composite gap_decls_hosted compute_gap

theorem gap_strips : Strips (.composite gapLayout) (.composite closeLayout) := by
  refine .struct (gapDecls.map fun decl => (decl, decl.type)) ?_ ?_ compute_gap
    (rfl : Layout.compute "Gap" .struct _ .natural = .ok closeLayout)
  · exact List.forall_mem_map.mpr fun decl mem => (gap_decls_hosted decl mem).built
  · simp only [gapDecls, List.map_cons, List.map_nil, List.forall_mem_cons]
    exact ⟨fun _ => .scalar rfl rfl, fun full => absurd full (by decide),
      fun _ => .scalar rfl rfl, by simp⟩

theorem gap_extent : (composite gapLayout).isComposite = true
    ∧ (composite gapLayout).passed = .ok (.struct [.scalar 1 1, .scalar 1 1])
    ∧ (Passed.struct [.scalar 1 1, .scalar 1 1]).extent = (2, 1)
    ∧ ∃ bare, Strips (.composite gapLayout) bare ∧ bare.size ≤ 8 ∧ bare.align ∣ 4 :=
  have places := extent_eq_layout rfl passed_gap
  ⟨rfl, passed_gap, (places.1 _ gap_strips).1, places.2.1 gap_hosted⟩

/-- A call accepts the struct and places its parts in 2 of its 8 bytes. -/
theorem gap_disagrees : (composite gapLayout).Hosted
    ∧ ∃ shape, (composite gapLayout).passed = .ok shape
      ∧ shape.extent ≠ ((composite gapLayout).size, (composite gapLayout).align) := by
  refine ⟨gap_hosted, _, passed_gap, ?_⟩
  simp [Passed.extent, Passed.extents, Passed.after, gapLayout, size, align]

end CType

end CInterop
