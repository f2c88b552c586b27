/-!
# C types

A C type says how many bytes a value takes, where it may be placed and how its bytes read. Types
are built from the scalars of a platform by pointers, arrays and composites (structs and unions);
a composite carries the placement of its fields, so that reading and writing never recompute it.

Two types are the same (`CType.same`) when they describe the same bytes: the spelling of an integer
type does not matter, so `long` and `int64` are the same where both take eight bytes.
-/

namespace CInterop

/-- Widths of the integer and pointer types, by their number of bits. -/
inductive Width where
  | w8
  | w16
  | w32
  | w64
  deriving DecidableEq, Repr

namespace Width

/-- Bytes that a scalar of this width takes. -/
def bytes : Width → Nat
  | w8 => 1
  | w16 => 2
  | w32 => 4
  | w64 => 8

/-- Bits that a scalar of this width takes. -/
def bits (w : Width) : Nat := 8 * w.bytes

theorem bytes_pos (w : Width) : 0 < w.bytes := by cases w <;> decide

/-- The width of an integer of some bytes, if memory is accessed by integers of that size. -/
def ofBytes? (bytes : Nat) : Option Width := [w8, w16, w32, w64].find? (·.bytes == bytes)

end Width

/-- The two formats of floating-point numbers. -/
inductive Precision where
  | single
  | double
  deriving DecidableEq, Repr

namespace Precision

/-- Bytes that a number of this format takes. -/
def bytes : Precision → Nat
  | single => 4
  | double => 8

end Precision

/-- Structs place their fields one after another, unions all at the start. -/
inductive CompositeKind where
  | struct
  | union
  deriving DecidableEq, Repr

/-- Whether the alignment of the fields of a composite is capped. -/
inductive Packing where
  | natural
  | packed (limit : Nat)
  deriving DecidableEq, Repr

/-- Where a bit-field lies inside its storage unit. -/
structure BitSlot where
  offset : Nat
  width : Nat
  deriving DecidableEq, Repr

/-- A named thing of some type at a byte offset. For a bit-field the offset is that of its storage
unit, and `bits` says which bits of the unit it takes. -/
structure Placed (ν τ : Type) where
  name : ν
  type : τ
  offset : Nat
  bits : Option BitSlot

/-- The placement of the fields of a composite. `fields` are those that were declared and take
space, in order; `members` are those that can be found by name, where the members of an unnamed
composite field stand in for it. -/
structure LayoutOf (τ : Type) where
  name : String
  kind : CompositeKind
  packing : Packing
  fields : List (Placed (Option String) τ)
  members : List (Placed String τ)
  size : Nat
  align : Nat

/-- What a pointer points at: anything (`void*`), values of a type, or text of narrow or wide
characters that is exchanged as a host string. A unit of wide text takes `unit` bytes. -/
inductive TargetOf (τ : Type) where
  | untyped
  | typed (target : τ)
  | cstring
  | wstring (unit : Nat)

/-- A C type. -/
inductive CType where
  | void
  | bool
  | int (name : String) (width : Width) (signed : Bool) (align : Nat)
  /-- A wide character of a size that no other integer has. -/
  | stray (bytes : Nat)
  | float (precision : Precision) (align : Nat)
  | pointer (target : TargetOf CType) (width : Width)
  | array (element : CType) (count : Nat)
  | composite (layout : LayoutOf CType)

/-- What a pointer type points at. -/
abbrev Target := TargetOf CType

/-- The placement of the fields of a struct or union. -/
abbrev Layout := LayoutOf CType

/-- A field as it was placed; it may be unnamed. -/
abbrev Field := Placed (Option String) CType

/-- A part of a composite that is found by name. -/
abbrev Member := Placed String CType

namespace Layout

/-- The member of that name. -/
def member? (layout : Layout) (name : String) : Option Member :=
  layout.members.find? (·.name == name)

end Layout

namespace CType

instance : Inhabited CType := ⟨void⟩

/-- An integer type whose alignment is its size. -/
def natural (name : String) (width : Width) (signed : Bool) : CType :=
  int name width signed width.bytes

/-- The type of wide characters of some bytes. They are signed when they take four bytes, and
aligned to their size; no alignment is less than one. -/
def wide (bytes : Nat) : CType :=
  match Width.ofBytes? bytes with
  | some width => natural "wchar_t" width (bytes = 4)
  | none => stray bytes

/-- The number of bytes a value takes; `void` takes none. -/
def size : CType → Nat
  | void => 0
  | bool => 1
  | int _ width _ _ => width.bytes
  | stray bytes => bytes
  | float precision _ => precision.bytes
  | pointer _ width => width.bytes
  | array element count => element.size * count
  | composite layout => layout.size

/-- The number whose multiples are the offsets a value may be placed at. -/
def align : CType → Nat
  | void => 1
  | bool => 1
  | int _ _ _ align => align
  | stray bytes => max 1 bytes
  | float _ align => align
  | pointer _ width => width.bytes
  | array element _ => element.align
  | composite layout => layout.align

/-- The spelling of a type: pointers end in `*`, arrays in their count in brackets. -/
def name : CType → String
  | void => "void"
  | bool => "bool"
  | int name _ _ _ => name
  | stray _ => "wchar_t"
  | float .single _ => "float"
  | float .double _ => "double"
  | pointer .untyped _ => "void*"
  | pointer (.typed target) _ => target.name ++ "*"
  | pointer .cstring _ => "char*"
  | pointer (.wstring _) _ => "wchar_t*"
  | array element count => s!"{element.name}[{count}]"
  | composite layout => layout.name

/-! ## Classes of types -/

def isVoid : CType → Bool
  | void => true
  | _ => false

/-- Integers and truth values. -/
def isIntegral : CType → Bool
  | int .. | stray _ | bool => true
  | _ => false

def isSigned : CType → Bool
  | int _ _ signed _ => signed
  | _ => false

/-- Wide characters of a size that no other integer has. -/
def isStray : CType → Bool
  | stray _ => true
  | _ => false

def isFloat : CType → Bool
  | float .. => true
  | _ => false

def isPointer : CType → Bool
  | pointer .. => true
  | _ => false

def isComposite : CType → Bool
  | composite _ => true
  | _ => false

/-- Scalars are the types whose values have no parts. -/
def isScalar (type : CType) : Bool := type.isIntegral || type.isFloat || type.isPointer

/-! ## Parts of types -/

/-- The placement of the fields of a composite. -/
def layout? : CType → Option Layout
  | composite layout => some layout
  | _ => none

/-- Element type and count of an array. -/
def element? : CType → Option (CType × Nat)
  | array element count => some (element, count)
  | _ => none

end CType

namespace TargetOf

/-- The type of one thing that a pointer points at. -/
def pointee : Target → CType
  | untyped => .void
  | typed target => target
  | cstring => .natural "char" .w8 true
  | wstring unit => .wide unit

end TargetOf

namespace CType

/-- The type a pointer type points at. -/
def pointee? : CType → Option CType
  | pointer target _ => some target.pointee
  | _ => none

/-! ## Sameness -/

mutual

/-- Whether two types describe the same bytes. Spellings of integers are not compared, names of
composites are; members follow from the fields and need no comparison. -/
def same : CType → CType → Bool
  | void, other => match other with
    | void => true
    | _ => false
  | bool, other => match other with
    | bool => true
    | _ => false
  | int _ width signed align, other => match other with
    | int _ width' signed' align' => width = width' && signed == signed' && align == align'
    | _ => false
  | stray bytes, other => match other with
    | stray bytes' => bytes == bytes'
    | _ => false
  | float precision align, other => match other with
    | float precision' align' => precision = precision' && align == align'
    | _ => false
  | pointer .untyped width, other => match other with
    | pointer .untyped width' => width = width'
    | _ => false
  | pointer (.typed target) width, other => match other with
    | pointer (.typed target') width' => target.same target' && width = width'
    | _ => false
  | pointer .cstring width, other => match other with
    | pointer .cstring width' => width = width'
    | _ => false
  | pointer (.wstring unit) width, other => match other with
    | pointer (.wstring unit') width' => unit = unit' && width = width'
    | _ => false
  | array element count, other => match other with
    | array element' count' => element.same element' && count == count'
    | _ => false
  | composite layout, other => match other with
    | composite layout' =>
      layout.name == layout'.name && layout.kind = layout'.kind && layout.packing = layout'.packing
        && sameFields layout.fields layout'.fields
        && layout.size == layout'.size && layout.align == layout'.align
    | _ => false
termination_by structural type => type

/-- Whether two lists of fields agree in names, places and types. -/
def sameFields : List Field → List Field → Bool
  | [], others => others.isEmpty
  | field :: rest, others => match others with
    | [] => false
    | other :: others =>
      field.name == other.name && field.type.same other.type && field.offset == other.offset
        && field.bits = other.bits && sameFields rest others
termination_by structural fields => fields

end

/-- Equality of types is sameness. -/
instance : BEq CType := ⟨same⟩

/-! ## Pointers inside types -/

mutual

/-- Whether a value of the type holds an address somewhere. -/
def holdsPointer : CType → Bool
  | pointer .. => true
  | array element _ => element.holdsPointer
  | composite layout => fieldsHoldPointer layout.fields
  | _ => false
termination_by structural type => type

/-- Whether some field holds an address. -/
def fieldsHoldPointer : List Field → Bool
  | [] => false
  | field :: rest => field.type.holdsPointer || fieldsHoldPointer rest
termination_by structural fields => fields

end

/-- The text that describes a type in a report. -/
def report (type : CType) : String :=
  s!"TypeDescriptor({type.name}, size={type.size}, align={type.align})"

end CType

end CInterop
