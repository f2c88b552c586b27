import CInterop.Failure
import CInterop.CType
import CInterop.Word

/-!
# Layout of structs and unions

Fields are placed one after another by `place`, which carries a `Cursor` through the declaration:

* a field starts at the next multiple of its effective alignment, which is its natural alignment
  capped by the packing;
* neighbouring bit-fields share a storage unit of their declared type, filled from bit 0, until one
  no longer fits; a bit-field of width 0 closes the unit;
* the fields of a union all start at 0;
* the alignment of the composite is the largest effective alignment of its fields, and its size is
  rounded up to that alignment.

The members of an unnamed composite field are exposed in the enclosing composite. Offsets and sizes
are machine words: a sum that is no word is an overflow, and there is no layout.
-/

namespace CInterop

/-- A field as it is declared. A field without a name is padding, unless it is a composite, whose
members it exposes. -/
structure FieldDecl where
  name : Option String
  type : CType
  bits : Option Nat

namespace FieldDecl

/-- How failures refer to a field. -/
def label (decl : FieldDecl) : String := decl.name.getD "<anonymous>"

/-- Why a field is refused, wherever it would be placed. -/
def fault? (decl : FieldDecl) : Option FieldFault :=
  if decl.type.isVoid then some .voidField
  else match decl.bits with
    | none => none
    | some width =>
      if !decl.type.isIntegral then some (.notInteger decl.type.name)
      else if 8 * decl.type.size < width then
        some (.tooWide width (8 * decl.type.size) decl.type.name)
      else if width = 0 && decl.name.isSome then some .namedZeroWidth
      else none

end FieldDecl

namespace Packing

/-- Alignments are powers of two. -/
def isPowerOfTwo (n : Nat) : Bool := n = 1 <<< n.log2

/-- The alignment of a field under a packing. -/
def effective : Packing → Nat → Nat
  | natural, align => align
  | packed limit, align => min align limit

end Packing

namespace Layout

/-- The next multiple of an alignment. -/
def alignUp (offset align : Nat) : Except Failure Nat :=
  Word.product ((offset + align - 1) / align) align

/-- The storage unit of the last bit-field, while the next one may share it. -/
structure StorageUnit where
  offset : Nat
  size : Nat
  used : Nat
  deriving DecidableEq, Repr

/-- Where placement stands between two fields: the end of the last field, the space and alignment
needed so far, and the storage unit that is open. -/
structure Cursor where
  offset : Nat := 0
  size : Nat := 0
  align : Nat := 1
  unit : Option StorageUnit := none
  deriving DecidableEq, Repr

/-- Whether a bit-field of this width and type still fits the open unit. -/
def StorageUnit.admits (unit : StorageUnit) (type : CType) (width : Nat) : Bool :=
  unit.size = type.size && unit.used + width ≤ 8 * type.size

/-- Places an ordinary field. -/
def placeOrdinary (kind : CompositeKind) (align : Nat) (cursor : Cursor) (decl : FieldDecl) :
    Except Failure (Cursor × Field) := do
  let start ← match kind with
    | .struct => alignUp cursor.offset align
    | .union => pure 0
  let finish ← Word.sum start decl.type.size
  pure ({ cursor with offset := finish, size := max cursor.size finish, unit := none },
    { name := decl.name, type := decl.type, offset := start, bits := none })

/-- Closes the open storage unit; the next field starts at an alignment boundary. -/
def closeUnit (kind : CompositeKind) (align : Nat) (cursor : Cursor) : Except Failure Cursor := do
  match kind with
  | .struct =>
    let start ← alignUp cursor.offset align
    pure { cursor with offset := start, size := max cursor.size start, unit := none }
  | .union => pure { cursor with unit := none }

/-- Places a bit-field of a width that is not zero: into the open unit if it fits, else into a new
one. In a union every bit-field has a unit of its own at the start. -/
def placeBits (kind : CompositeKind) (align width : Nat) (cursor : Cursor) (decl : FieldDecl) :
    Except Failure (Cursor × Field) := do
  let field (start bit : Nat) : Field :=
    { name := decl.name, type := decl.type, offset := start, bits := some ⟨bit, width⟩ }
  match kind with
  | .union => pure ({ cursor with size := max cursor.size decl.type.size }, field 0 0)
  | .struct =>
    match cursor.unit.filter (·.admits decl.type width) with
    | some unit =>
      pure ({ cursor with unit := some { unit with used := unit.used + width } },
        field unit.offset unit.used)
    | none =>
      let start ← alignUp cursor.offset align
      let finish ← Word.sum start decl.type.size
      pure ({ cursor with
          offset := finish, size := max cursor.size finish,
          unit := some ⟨start, decl.type.size, width⟩ },
        field start 0)

/-- Places a declared field where its bits say. A bit-field of width 0 takes no space and yields no
field. -/
def placeSound (kind : CompositeKind) (align : Nat) (cursor : Cursor) (decl : FieldDecl) :
    Except Failure (Cursor × Option Field) :=
  -- Every field counts for the alignment, a bit-field of width 0 too.
  let cursor := { cursor with align := max cursor.align align }
  match decl.bits with
  | none => do
    let (cursor, field) ← placeOrdinary kind align cursor decl
    pure (cursor, some field)
  | some width =>
    if width = 0 then do pure (← closeUnit kind align cursor, none)
    else do
      let (cursor, field) ← placeBits kind align width cursor decl
      pure (cursor, some field)

/-- Checks a declared field and places it. -/
def place (composite : String) (kind : CompositeKind) (packing : Packing) (cursor : Cursor)
    (decl : FieldDecl) : Except Failure (Cursor × Option Field) :=
  match decl.fault? with
  | some fault => throw (.invalidField composite decl.label fault)
  | none => placeSound kind (packing.effective decl.type.align) cursor decl

/-- Places the fields of a declaration in order. -/
def placeAll (composite : String) (kind : CompositeKind) (packing : Packing) :
    Cursor → List FieldDecl → Except Failure (Cursor × List Field)
  | cursor, [] => pure (cursor, [])
  | cursor, decl :: rest => do
    let (cursor, field) ← place composite kind packing cursor decl
    let (cursor, fields) ← placeAll composite kind packing cursor rest
    pure (cursor, field.toList ++ fields)

/-! ## Members -/

/-- The members that a field contributes: itself under its name, or, for an unnamed composite, the
members of the composite at their place in the enclosing one. -/
def exposed (field : Field) : List Member :=
  match field.name, field.type.layout?, field.bits with
  | some name, _, bits => [{ name, type := field.type, offset := field.offset, bits }]
  | none, some inner, none =>
    inner.members.map fun member => { member with offset := field.offset + member.offset }
  | none, _, _ => []

/-- Enters members in a table, one after another, where `seen` are the names in it. The place of a
member is a word, and its name is new. -/
def enterAll (composite : String) (seen : List String) : List Member → Except Failure Unit
  | [] => pure ()
  | member :: rest =>
    if Word.modulus ≤ member.offset then throw (.overflow "add")
    else if seen.contains member.name then
      throw (.invalidField composite member.name .duplicate)
    else enterAll composite (member.name :: seen) rest

/-- The layout of the fields that were placed. Names of members are distinct. -/
def assemble (name : String) (kind : CompositeKind) (packing : Packing) (cursor : Cursor)
    (fields : List Field) : Except Failure Layout := do
  let members := fields.flatMap exposed
  enterAll name [] members
  let size ← alignUp cursor.size cursor.align
  pure { name, kind, packing, fields, members, size, align := cursor.align }

/-- The layout of a composite with these fields. Names are compared last, when every field is known
to be sound. -/
def compute (name : String) (kind : CompositeKind) (decls : List FieldDecl) (packing : Packing) :
    Except Failure Layout := do
  if let .packed limit := packing then
    unless Packing.isPowerOfTwo limit do throw (.invalidField name "_pack_" (.packing limit))
  let (cursor, fields) ← placeAll name kind packing {} decls
  assemble name kind packing cursor fields

/-! ## Text -/

/-- The line of a field in the text of a layout. -/
def renderField (field : Field) : String :=
  let label := field.name.getD "<anonymous>"
  let place := s!"\n  [{field.offset}] {label}: {field.type.name}"
  match field.bits with
  | none => place
  | some slot => s!"{place} : {slot.width} @ bit {slot.offset}"

/-- The text of a layout: a heading and a line for each field. -/
def render (layout : Layout) : String :=
  let keyword := match layout.kind with
    | .struct => "struct"
    | .union => "union"
  let packing := match layout.packing with
    | .natural => ""
    | .packed limit => s!", packed {limit}"
  s!"{keyword} {layout.name} (size {layout.size}, align {layout.align}{packing})"
    ++ String.join (layout.fields.map renderField)

end Layout

end CInterop
