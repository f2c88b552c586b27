import Mathlib.Tactic.Ring
import CInterop.Call.Passing
import CInterop.Proofs.Layout.Members

/-!
# Parts and places of structs

A struct has two layouts: the one that `Layout.compute` gives it, and the one that a call gives to
the list of its parts (`Passed.extent`). The list does not tell everything that placement used:
bit-fields collapse to their storage units, and fields without elements, such as bit-fields of width
0 and arrays of no elements, leave no part.

`Strips` relates a type to the same type where such fields are left out. `extent_of_strips` says
that the parts of a struct take the size and the alignment of what is left, by a simulation of two
placements and the loop over the parts. So the two layouts agree where there are no such fields
(`Solid`).
-/

namespace CInterop

/-! ## Fields without elements -/

namespace CType

/-- An array that has no elements at some depth. -/
def isHollow : CType → Bool
  | array element count => count = 0 || element.isHollow
  | _ => false

end CType

namespace FieldDecl

/-- A field that leaves no part. -/
def isHollow (decl : FieldDecl) : Bool := decl.bits = some 0 || decl.type.isHollow

theorem width_pos {decl : FieldDecl} {width : Nat} (full : decl.isHollow = false)
    (bits : decl.bits = some width) : 0 < width := by
  refine Nat.pos_of_ne_zero ?_
  rintro rfl
  simp [isHollow, bits] at full

/-- A field that closes the open storage unit and does nothing else. -/
def closer : FieldDecl := ⟨none, .natural "uint8" .w8 false, some 0⟩

/-- The declaration of a field with a type in place of its own; of hollow fields, only the end of
the storage unit is left. -/
def strip (row : FieldDecl × CType) : FieldDecl :=
  if row.1.isHollow then closer else { row.1 with type := row.2 }

end FieldDecl

namespace CType

/-- The second type is the first one without hollow fields. Scalars are passed as they are laid out,
as all scalars of the host are. -/
inductive Strips : CType → CType → Prop
  | scalar {type : CType} (single : type.isScalar = true)
      (exact : type.passed = .ok (.scalar type.size type.align)) : Strips type type
  | array {element bare : CType} {count : Nat} (strips : Strips element bare) :
      Strips (.array element count) (.array bare count)
  | struct {name : String} (rows : List (FieldDecl × CType)) {layout bare : Layout}
      (built : ∀ row ∈ rows, row.1.type.Built)
      (strips : ∀ row ∈ rows, row.1.isHollow = false → Strips row.1.type row.2)
      (computed : Layout.compute name .struct (rows.map (·.1)) .natural = .ok layout)
      (stripped : Layout.compute name .struct (rows.map FieldDecl.strip) .natural = .ok bare) :
      Strips (.composite layout) (.composite bare)

/-- A type of scalars that are passed as they are laid out, without hollow fields. -/
inductive Solid : CType → Prop
  | scalar {type : CType} (single : type.isScalar = true)
      (exact : type.passed = .ok (.scalar type.size type.align)) : Solid type
  | array {element : CType} {count : Nat} (solid : Solid element) : Solid (.array element count)
  | struct {name : String} {decls : List FieldDecl} {layout : Layout}
      (built : ∀ decl ∈ decls, decl.type.Built)
      (solid : ∀ decl ∈ decls, Solid decl.type)
      (full : ∀ decl ∈ decls, decl.isHollow = false)
      (computed : Layout.compute name .struct decls .natural = .ok layout) :
      Solid (.composite layout)

theorem Solid.strips {type : CType} (solid : Solid type) : Strips type type := by
  induction solid with
  | scalar single exact => exact .scalar single exact
  | array _ strips => exact .array strips
  | @struct name decls layout built _ full computed strips =>
    have declared : (decls.map fun decl => (decl, decl.type)).map (·.1) = decls := by
      simp [Function.comp_def]
    have stripped : (decls.map fun decl => (decl, decl.type)).map FieldDecl.strip = decls := by
      rw [List.map_map]
      refine (List.map_congr_left fun decl mem => ?_).trans (List.map_id decls)
      simp [FieldDecl.strip, full decl mem]
    refine .struct (decls.map fun decl => (decl, decl.type)) ?_ ?_ (declared.symm ▸ computed)
      (stripped.symm ▸ computed)
    · simpa [List.forall_mem_map] using built
    · simpa [List.forall_mem_map] using fun decl mem _ => strips decl mem

end CType

/-! ## Placing parts -/

namespace Passed

open Layout (roundUp)

/-- Parts that take the next place for a type. -/
def TakePlace (parts : List Passed) (size align : Nat) : Prop :=
  ∀ offset largest rest, extents offset largest (parts ++ rest) =
    extents (roundUp offset align + size) (max largest align) rest

theorem extents_cons (offset align : Nat) (part : Passed) (rest : List Passed) :
    extents offset align (part :: rest) =
      extents (roundUp offset part.extent.2 + part.extent.1) (max align part.extent.2) rest := by
  rw [extents]
  rfl

theorem takePlace_one {part : Passed} {size align : Nat} (extent : part.extent = (size, align)) :
    TakePlace [part] size align := by
  intro offset largest rest
  rw [List.singleton_append, extents_cons, extent]

theorem roundUp_of_dvd {offset align : Nat} (positive : 0 < align) (dvd : align ∣ offset) :
    roundUp offset align = offset := by
  obtain ⟨k, rfl⟩ := dvd
  have whole : (align * k + align - 1) / align = k := by
    rw [Nat.add_sub_assoc positive, Nat.mul_add_div positive,
      Nat.div_eq_of_lt (Nat.sub_lt positive Nat.one_pos), Nat.add_zero]
  rw [roundUp, whole, Nat.mul_comm]

/-- The elements of an array lie side by side, since their size is a multiple of their alignment. -/
theorem takePlace_replicate {parts : List Passed} {size align : Nat} (positive : 0 < align)
    (whole : align ∣ size) (one : TakePlace parts size align) (count : Nat) :
    TakePlace (List.replicate (count + 1) parts).flatten (size * (count + 1)) align := by
  induction count with
  | zero => simpa using one
  | succ count ih =>
    intro offset largest rest
    have aligned : align ∣ roundUp offset align + size :=
      Nat.dvd_add (Layout.dvd_roundUp _ _) whole
    calc
      extents offset largest ((List.replicate (count + 2) parts).flatten ++ rest)
      _ = extents offset largest
            (parts ++ ((List.replicate (count + 1) parts).flatten ++ rest)) := by
        rw [List.replicate_succ, List.flatten_cons, List.append_assoc]
      _ = extents (roundUp offset align + size + size * (count + 1)) (max largest align) rest := by
        rw [one, ih, roundUp_of_dvd positive aligned, Nat.max_assoc, Nat.max_self]
      _ = extents (roundUp offset align + size * (count + 2)) (max largest align) rest := by
        congr 1
        ring

end Passed

namespace CType

open Layout (roundUp)
open Passed (TakePlace)

/-! ## What a call does with a type -/

/-- What the loop over the parts needs to know of a type and what is left of it. -/
structure Passes (type bare : CType) : Prop where
  positive : 0 < bare.align
  whole : bare.align ∣ bare.size
  /-- Integers are their own storage units. -/
  unit : type.isIntegral = true → bare = type ∧ type.align = type.size
  takes : type.isHollow = false → ∀ parts, type.passedParts = .ok parts →
    TakePlace parts bare.size bare.align

/-- A scalar has one part, which is as it is passed by itself, if it is passed at all. -/
theorem parts_of_isScalar {type : CType} (single : type.isScalar = true) :
    (∃ failure, type.passed = .error failure)
      ∨ ∃ bytes, 0 < bytes ∧ type.passed = .ok (.scalar bytes bytes)
        ∧ type.passedParts = .ok [.scalar bytes bytes] := by
  cases type with
  | bool => exact .inr ⟨1, Nat.one_pos, rfl, rfl⟩
  | int name width signed align => exact .inr ⟨width.bytes, width.bytes_pos, rfl, rfl⟩
  | stray => exact .inl ⟨_, rfl⟩
  | float precision align =>
    exact .inr ⟨precision.bytes, by cases precision <;> decide, rfl, rfl⟩
  | pointer target width => exact .inr ⟨8, by decide, rfl, rfl⟩
  | void | array | composite => cases single

theorem passes_scalar {type : CType} (single : type.isScalar = true)
    (exact : type.passed = .ok (.scalar type.size type.align)) : Passes type type := by
  obtain ⟨failure, refused⟩ | ⟨bytes, bytes_pos, passed, own⟩ := parts_of_isScalar single
  · cases refused.symm.trans exact
  obtain ⟨rfl, square⟩ : bytes = type.size ∧ bytes = type.align := by
    rw [passed] at exact
    simpa using exact
  refine ⟨square ▸ bytes_pos, by rw [← square], fun _ => ⟨rfl, square.symm⟩, ?_⟩
  intro _ parts passed
  rw [own] at passed
  cases passed
  exact Passed.takePlace_one (by rw [Passed.extent, ← square])

theorem passes_array {element bare : CType} {count : Nat} (passes : Passes element bare) :
    Passes (.array element count) (.array bare count) := by
  refine ⟨passes.positive, Dvd.dvd.mul_right passes.whole count, by simp [isIntegral], ?_⟩
  intro full parts passed
  simp only [isHollow, Bool.or_eq_false_iff, decide_eq_false_iff_not] at full
  obtain ⟨count, rfl⟩ := Nat.exists_eq_succ_of_ne_zero full.1
  rw [passedParts, if_neg full.1] at passed
  obtain ⟨one, element_passed, passed⟩ := bind_eq_ok.mp passed
  cases passed
  exact Passed.takePlace_replicate passes.positive passes.whole
    (passes.takes full.2 one element_passed) count

end CType

namespace Layout

open Passed (TakePlace extents)
open CType (passedFields)

/-! ## The simulation -/

theorem passedFields_plain {unit : Option Nat} {field : Field} {rest : List Field}
    {parts : List Passed} (plain : field.bits = none)
    (passed : passedFields unit (field :: rest) = .ok parts) :
    ∃ own others, field.type.passedParts = .ok own ∧ passedFields none rest = .ok others
      ∧ parts = own ++ others := by
  obtain ⟨_, type, offset, bits⟩ := field
  obtain rfl : bits = none := plain
  rw [passedFields] at passed
  obtain ⟨own, first, passed⟩ := bind_eq_ok.mp passed
  obtain ⟨others, later, passed⟩ := bind_eq_ok.mp passed
  cases passed
  exact ⟨own, others, first, later, rfl⟩

/-- The first bit-field of a storage unit counts for the whole unit. -/
theorem passedFields_first {unit : Option Nat} {field : Field} {rest : List Field}
    {parts : List Passed} (bits : field.bits.isSome = true) (fresh : unit ≠ some field.offset)
    (passed : passedFields unit (field :: rest) = .ok parts) :
    ∃ own others, field.type.passedParts = .ok own
      ∧ passedFields (some field.offset) rest = .ok others ∧ parts = own ++ others := by
  obtain ⟨_, type, offset, slot⟩ := field
  obtain ⟨slot, rfl⟩ := Option.isSome_iff_exists.mp bits
  rw [passedFields] at passed
  simp only [Option.isSome_some, Bool.true_and, decide_eq_true_eq, if_neg fresh] at passed
  obtain ⟨own, first, passed⟩ := bind_eq_ok.mp passed
  obtain ⟨others, later, passed⟩ := bind_eq_ok.mp passed
  cases passed
  exact ⟨own, others, first, later, rfl⟩

/-- The other bit-fields of a storage unit leave no part. -/
theorem passedFields_joined {unit : Option Nat} {field : Field} {rest : List Field}
    {parts : List Passed} (passed : passedFields unit (field :: rest) = .ok parts)
    (bits : field.bits.isSome = true) (last : unit = some field.offset) :
    passedFields unit rest = .ok parts := by
  obtain ⟨_, type, offset, slot⟩ := field
  obtain ⟨slot, rfl⟩ := Option.isSome_iff_exists.mp bits
  rw [passedFields] at passed
  simpa [last] using passed

/-- What does not depend on where a storage unit lies. -/
def StorageUnit.filled (unit : StorageUnit) : Nat × Nat := (unit.size, unit.used)

/-- How the placement of a declaration, that of what is left of it and the loop over the parts stand
to each other: `unit` is the offset of the storage unit of the field before. -/
structure Alike (cursor bare : Cursor) (unit : Option Nat) : Prop where
  behind : ∀ start, unit = some start → start < cursor.offset
  last : ∀ own, cursor.unit = some own → unit = some own.offset
  units : bare.unit.map StorageUnit.filled = cursor.unit.map StorageUnit.filled
  counted : ∀ own, bare.unit = some own → own.size ≤ bare.align
  flush : bare.size = bare.offset
  positive : 0 < bare.align

/-- Whether a bit-field joins the open storage unit does not depend on where that lies. -/
theorem joins_congr {cursor bare : Cursor} {decl : FieldDecl} {width : Nat}
    (units : bare.unit.map StorageUnit.filled = cursor.unit.map StorageUnit.filled) :
    bare.Joins decl width ↔ cursor.Joins decl width := by
  have filled (cursor : Cursor) : cursor.Joins decl width ↔
      ∃ own, cursor.unit.map StorageUnit.filled = some own
        ∧ own.1 = decl.type.size ∧ own.2 + width ≤ 8 * decl.type.size := by
    simp [Cursor.Joins, StorageUnit.admits_iff, StorageUnit.filled]
  rw [filled, filled, units]

/-! ### One declared field -/

theorem full_of_bits {decl : FieldDecl} {width : Nat} (sound : decl.Sound)
    (bits : decl.bits = some width) (positive : 0 < width) : decl.isHollow = false := by
  have integral := sound.integral width bits
  have undivided : decl.type.isHollow = false := by
    cases held : decl.type <;> simp_all [CType.isIntegral, CType.isHollow]
  simp [FieldDecl.isHollow, bits, undivided, Nat.ne_of_gt positive]

theorem passedParts_of_isHollow {type : CType} (hollow : type.isHollow = true) :
    type.passedParts = .ok [] := by
  induction type using CType.isHollow.induct with
  | case1 element count ih =>
    rw [CType.passedParts]
    split
    · rfl
    · rename_i some_elements
      simp only [CType.isHollow, Bool.or_eq_true, decide_eq_true_eq] at hollow
      rw [ih (hollow.resolve_left some_elements)]
      simp [bind, Except.bind, pure, Except.pure]
  | case2 type other => cases type <;> first | exact absurd rfl (other _ _) | cases hollow

/-- What one field does: the loop over the parts takes the parts of the field, and stands to the
rest as before. -/
def Stepped (bare next next' : Cursor) (tail : List Field) (parts : List Passed) : Prop :=
  ∃ unit own others, passedFields unit tail = .ok others ∧ parts = own ++ others
    ∧ Alike next next' unit
    ∧ ∀ rest, extents bare.offset bare.align (own ++ rest) = extents next'.offset next'.align rest

/-- A closer ends the storage unit and does nothing else. -/
theorem placing_closer {bare next : Cursor} {field : Option Field}
    (placing : Placing FieldDecl.closer.type.align bare FieldDecl.closer .struct next field)
    (positive : 0 < bare.align) :
    next = { bare with size := max bare.size bare.offset, unit := none } ∧ field = none := by
  have one : FieldDecl.closer.type.align = 1 := rfl
  cases placing with
  | ordinary _ plain => cases plain
  | join bits small => cases bits; cases small
  | start bits small => cases bits; cases small
  | close begins =>
    rw [one, Passed.roundUp_of_dvd Nat.one_pos (Nat.one_dvd _)] at begins
    rw [one, begins, Nat.max_eq_left positive]
    exact ⟨rfl, rfl⟩

section Field

variable {row : FieldDecl × CType} {cursor bare next next' : Cursor}
  {field field' : Option Field} {unit : Option Nat} {tail : List Field} {parts : List Passed}

/-- A hollow field leaves no part, and only the end of the storage unit is left of it. -/
theorem Alike.step_hollow (alike : Alike cursor bare unit) (hollow : row.1.isHollow = true)
    (positive : 0 < row.1.type.align) (sound : row.1.Sound)
    (placing : Placing row.1.type.align cursor row.1 .struct next field)
    (placing' : Placing FieldDecl.closer.type.align bare FieldDecl.closer .struct next' field')
    (passed : passedFields unit (field.toList ++ tail) = .ok parts) :
    Stepped bare next next' tail parts := by
  obtain rfl : next' = { bare with unit := none } := by
    rw [(placing_closer placing' alike.positive).1, alike.flush, Nat.max_self]
  cases placing with
  | ordinary _ plain =>
    have empty : row.1.type.isHollow = true := by simpa [FieldDecl.isHollow, plain] using hollow
    obtain ⟨own, others, first, later, rfl⟩ := passedFields_plain rfl passed
    obtain rfl : own = [] := by simpa [passedParts_of_isHollow empty] using first.symm
    exact ⟨none, [], others, later, rfl,
      ⟨by simp, by simp, rfl, by simp, alike.flush, alike.positive⟩, fun _ => rfl⟩
  | close begins =>
    refine ⟨unit, [], parts, passed, rfl,
      ⟨?_, by simp, rfl, by simp, alike.flush, alike.positive⟩, fun _ => rfl⟩
    intro start last
    have behind := alike.behind start last
    have grown := le_roundUp cursor.offset positive
    simp only [begins]
    omega
  | join bits positive => exact absurd (full_of_bits sound bits positive) (by simp [hollow])
  | start bits positive => exact absurd (full_of_bits sound bits positive) (by simp [hollow])

/-- An ordinary field takes the next place in all three. -/
theorem Alike.step_ordinary (alike : Alike cursor bare unit) (passes : row.1.type.Passes row.2)
    (full : row.1.isHollow = false) (plain : row.1.bits = none)
    (placing : Placing row.1.type.align cursor row.1 .struct next field)
    (placing' : Placing row.2.align bare { row.1 with type := row.2 } .struct next' field')
    (passed : passedFields unit (field.toList ++ tail) = .ok parts) :
    Stepped bare next next' tail parts := by
  have element : row.1.type.isHollow = false := by
    simpa [FieldDecl.isHollow, plain] using full
  obtain ⟨rfl, rfl⟩ := placing.eq_of_plain plain
  obtain ⟨rfl, rfl⟩ := placing'.eq_of_plain plain
  obtain ⟨own, others, first, later, rfl⟩ := passedFields_plain rfl passed
  have takes := passes.takes element own first
  refine ⟨none, own, others, later, rfl, ⟨by simp, by simp, rfl, by simp, ?_, ?_⟩, ?_⟩
  · have grown := le_roundUp bare.offset passes.positive
    simp only [alike.flush]
    omega
  · exact Nat.lt_of_lt_of_le alike.positive (Nat.le_max_left _ _)
  · exact fun rest => takes bare.offset bare.align rest

/-- A bit-field goes into the open storage unit in both placements or in none. In the first case it
leaves no part, in the second one the part of the new unit. -/
theorem Alike.step_bits {width : Nat} (alike : Alike cursor bare unit)
    (passes : row.1.type.Passes row.1.type) (bits : row.1.bits = some width) (small : 0 < width)
    (sound : row.1.Sound) (placing : Placing row.1.type.align cursor row.1 .struct next field)
    (placing' : Placing row.1.type.align bare row.1 .struct next' field')
    (passed : passedFields unit (field.toList ++ tail) = .ok parts) :
    Stepped bare next next' tail parts := by
  have square := (passes.unit (sound.integral width bits)).2
  have grown := le_roundUp cursor.offset passes.positive
  have grown' := le_roundUp bare.offset passes.positive
  rcases placing.bits_cases bits small with
    ⟨own, isOpen, -, joins, rfl, rfl⟩ | ⟨apart, rfl, rfl⟩
  · rcases placing'.bits_cases bits small with
      ⟨own', isOpen', same', -, rfl, -⟩ | ⟨apart', -, -⟩
    · obtain rfl := alike.last own isOpen
      -- The unit that is joined has counted for the alignment when it was opened.
      have largest : row.1.type.align ≤ bare.align := by
        rw [square, ← same']
        exact alike.counted own' isOpen'
      have filled : own'.filled = own.filled := by simpa [isOpen, isOpen'] using alike.units
      simp only [StorageUnit.filled, Prod.mk.injEq] at filled
      have later := passedFields_joined passed rfl rfl
      refine ⟨some own.offset, [], parts, later, rfl,
        ⟨alike.behind, ?_, ?_, ?_, alike.flush, ?_⟩, ?_⟩
      · rintro _ ⟨⟩
        rfl
      · simp [StorageUnit.filled, filled]
      · rintro _ ⟨⟩
        have counted := alike.counted own' isOpen'
        exact Nat.le_trans counted (Nat.le_max_left _ _)
      · exact Nat.lt_of_lt_of_le alike.positive (Nat.le_max_left _ _)
      · intro rest
        rw [List.nil_append, Nat.max_eq_left largest]
    · exact absurd ((joins_congr alike.units).mpr joins) apart'
  · rcases placing'.bits_cases bits small with ⟨_, _, _, joins', -, -⟩ | ⟨-, rfl, -⟩
    · exact absurd ((joins_congr alike.units).mp joins') apart
    · have fresh : unit ≠ some (roundUp cursor.offset row.1.type.align) := by
        intro last
        have behind := alike.behind _ last
        omega
      obtain ⟨parts, others, first, later, rfl⟩ := passedFields_first rfl fresh passed
      have full := full_of_bits sound bits small
      have takes := passes.takes (Bool.or_eq_false_iff.mp full).2 parts first
      have size_pos : 0 < row.1.type.size := square ▸ passes.positive
      refine ⟨some (roundUp cursor.offset row.1.type.align), parts, others, later, rfl,
        ⟨?_, ?_, rfl, ?_, ?_, ?_⟩, ?_⟩
      · rintro _ ⟨⟩
        simp only
        omega
      · rintro _ ⟨⟩
        rfl
      · rintro _ ⟨⟩
        simp only [square]
        omega
      · simp only [alike.flush]
        omega
      · exact Nat.lt_of_lt_of_le alike.positive (Nat.le_max_left _ _)
      · exact fun rest => takes bare.offset bare.align rest

end Field

/-! ### All fields -/

/-- Parts take the places that what is left of the declarations takes. -/
theorem Alike.extents_eq {rows : List (FieldDecl × CType)}
    (positive : ∀ row ∈ rows, 0 < row.1.type.align) (sound : ∀ row ∈ rows, row.1.Sound)
    (passes : ∀ row ∈ rows, row.1.isHollow = false → row.1.type.Passes row.2)
    {cursor bare last last' : Cursor} {fields fields' : List Field} {unit : Option Nat}
    {parts : List Passed} (alike : Alike cursor bare unit)
    (steps : PlacingAll .struct .natural cursor (rows.map (·.1)) last fields)
    (steps' : PlacingAll .struct .natural bare (rows.map FieldDecl.strip) last' fields')
    (passed : passedFields unit fields = .ok parts) :
    extents bare.offset bare.align parts = (last'.offset, last'.align)
      ∧ last'.size = last'.offset := by
  induction rows generalizing cursor bare fields fields' unit parts with
  | nil =>
    cases steps
    cases steps'
    cases passed
    exact ⟨by rw [extents], alike.flush⟩
  | cons row rest ih =>
    obtain ⟨own_positive, rest_positive⟩ := List.forall_mem_cons.mp positive
    obtain ⟨own_sound, rest_sound⟩ := List.forall_mem_cons.mp sound
    obtain ⟨own, rest_passes⟩ := List.forall_mem_cons.mp passes
    rw [List.map_cons] at steps steps'
    cases steps with
    | @cons _ next _ _ _ field tail placing others =>
    cases steps' with
    | @cons _ next' _ _ _ field' tail' placing' others' =>
    have stepped : Stepped bare next next' tail parts := by
      by_cases hollow : row.1.isHollow = true
      · rw [FieldDecl.strip, if_pos hollow] at placing'
        exact alike.step_hollow hollow own_positive own_sound placing placing' passed
      · have full : row.1.isHollow = false := by simpa using hollow
        have own := own full
        rw [FieldDecl.strip, if_neg hollow] at placing'
        cases bits : row.1.bits with
        | none => exact alike.step_ordinary own full bits placing placing' passed
        | some width =>
          have small := FieldDecl.width_pos full bits
          -- Nothing is stripped from an integer.
          obtain ⟨same, _⟩ := own.unit (own_sound.integral width bits)
          rw [same] at own placing'
          exact alike.step_bits own bits small own_sound placing placing' passed
    obtain ⟨unit', own, later, rest_passed, rfl, rest_alike, takes⟩ := stepped
    rw [takes later]
    exact ih rest_positive rest_sound rest_passes rest_alike others others' rest_passed

theorem alike_start : Alike {} {} none :=
  ⟨by simp, by simp, rfl, by simp, rfl, Nat.one_pos⟩

end Layout

namespace CType

/-! ## Whole types -/

theorem passed_composite {layout : Layout} {shape : Passed}
    (accepted : (composite layout).passed = .ok shape) :
    ∃ parts, passedFields none layout.fields = .ok parts ∧ shape = .struct parts := by
  obtain ⟨_, _, accepted⟩ := bind_eq_ok.mp accepted
  obtain ⟨parts, passed, accepted⟩ := bind_eq_ok.mp accepted
  cases accepted
  exact ⟨parts, passed, rfl⟩

theorem passedParts_composite {layout : Layout} {parts : List Passed}
    (accepted : (composite layout).passedParts = .ok parts) :
    ∃ own, passedFields none layout.fields = .ok own ∧ parts = [.struct own] := by
  rw [passedParts] at accepted
  obtain ⟨_, _, accepted⟩ := bind_eq_ok.mp accepted
  obtain ⟨own, passed, accepted⟩ := bind_eq_ok.mp accepted
  cases accepted
  exact ⟨own, passed, rfl⟩

theorem extent_struct {name : String} {rows : List (FieldDecl × CType)} {layout bare : Layout}
    (built : ∀ row ∈ rows, row.1.type.Built)
    (passes : ∀ row ∈ rows, row.1.isHollow = false → row.1.type.Passes row.2)
    (computed : Layout.compute name .struct (rows.map (·.1)) .natural = .ok layout)
    (stripped : Layout.compute name .struct (rows.map FieldDecl.strip) .natural = .ok bare)
    {parts : List Passed} (passed : passedFields none layout.fields = .ok parts) :
    (Passed.struct parts).extent = (bare.size, bare.align) := by
  obtain ⟨_, last, fields, placed, _, _, rfl⟩ := Layout.compute_eq_ok computed
  obtain ⟨_, last', fields', placed', _, _, rfl⟩ := Layout.compute_eq_ok stripped
  have sound := (Layout.eq_of_placeAll Word.modulus_pos placed).1
  obtain ⟨ends, flush⟩ := Layout.alike_start.extents_eq
    (fun row mem => (built row mem).align_pos)
    (fun row mem => sound row.1 (List.mem_map_of_mem mem)) passes
    (Layout.placingAll_of_placeAll Word.modulus_pos placed)
    (Layout.placingAll_of_placeAll Word.modulus_pos placed') passed
  rw [Passed.extent, ends, flush]
  rfl

theorem Strips.passes {type bare : CType} (strips : Strips type bare) : Passes type bare := by
  induction strips with
  | scalar single exact => exact passes_scalar single exact
  | array _ passes => exact passes_array passes
  | struct rows built _ computed stripped passes =>
    have extent := @extent_struct _ rows _ _ built passes computed stripped
    obtain ⟨_, last, fields, placed, _, _, rfl⟩ := Layout.compute_eq_ok stripped
    refine ⟨(Layout.placingAll_of_placeAll Word.modulus_pos placed).align_le,
      Layout.dvd_roundUp _ _, by simp [isIntegral], ?_⟩
    intro _ parts accepted
    obtain ⟨own, passed, rfl⟩ := passedParts_composite accepted
    exact Passed.takePlace_one (extent passed)

/-- The parts of a struct take the size and the alignment that the struct has without its hollow
fields. -/
theorem extent_of_strips {type bare : CType} (strips : Strips type bare)
    (composite : type.isComposite = true) {shape : Passed} (accepted : type.passed = .ok shape) :
    shape.extent = (bare.size, bare.align) := by
  cases strips with
  | scalar single =>
    cases type with
    | composite => cases single
    | _ => cases composite
  | array => cases composite
  | struct rows built strips computed stripped =>
    obtain ⟨parts, passed, rfl⟩ := passed_composite accepted
    exact extent_struct built (fun row mem full => (strips row mem full).passes) computed stripped
      passed

theorem extent_of_solid {type : CType} (solid : Solid type) (composite : type.isComposite = true)
    {shape : Passed} (accepted : type.passed = .ok shape) :
    shape.extent = (type.size, type.align) :=
  extent_of_strips solid.strips composite accepted

end CType

end CInterop
