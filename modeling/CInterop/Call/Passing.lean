import CInterop.Call.Signature
import CInterop.Memory

/-!
# Passing by value

What a call passes for a type: scalars as they are, arrays as the address of their first element,
structs as the list of their parts, where the fields of a storage unit count as one part and arrays
as their elements. Unions, packed structs and empty structs cannot be passed.

Whoever performs the calls places the parts of a struct anew (`Passed.extent`). Fields without
elements leave no part.
-/

namespace CInterop

/-- The shape of a value that is passed. -/
inductive Passed where
  | scalar (size align : Nat)
  | struct (parts : List Passed)

namespace Passed

/-- An address. -/
def address : Passed := scalar 8 8

/-- The offset behind a part that is placed behind others at the next multiple of its alignment. -/
def after (offset size align : Nat) : Nat := (offset + align - 1) / align * align + size

mutual

/-- The size and the alignment of what is passed: the parts of a struct lie one behind the other,
each at the next multiple of its alignment. -/
def extent : Passed → Nat × Nat
  | scalar size align => (size, align)
  | struct parts =>
    let (offset, align) := extents 0 1 parts
    ((offset + align - 1) / align * align, align)
termination_by structural shape => shape

/-- The end of parts that are placed from an offset on, and the largest alignment. -/
def extents (offset align : Nat) : List Passed → Nat × Nat
  | [] => (offset, align)
  | part :: rest =>
    let (size, own) := part.extent
    extents (after offset size own) (max align own) rest
termination_by structural parts => parts

end

end Passed

namespace CType

mutual

/-- Whether a composite is, or holds as a field, a union or a packed struct. -/
def isIrregular : CType → Bool
  | composite layout =>
    layout.kind = .union || layout.packing != .natural || anyIrregular layout.fields
  | _ => false
termination_by structural type => type

/-- Whether the type of some field is irregular. -/
def anyIrregular : List Field → Bool
  | [] => false
  | field :: rest => field.type.isIrregular || anyIrregular rest
termination_by structural fields => fields

end

/-- Refuses composites that cannot be passed by value. -/
def checkPassed (layout : Layout) : Except Failure Unit := do
  if layout.kind = .union then throw (.unsupportedType layout.name .unionByValue)
  if layout.packing != .natural || anyIrregular layout.fields then
    throw (.unsupportedType layout.name .irregularByValue)
  if layout.size = 0 then throw (.unsupportedType layout.name .emptyByValue)

mutual

/-- The parts that a type contributes to a struct. -/
def passedParts : CType → Except Failure (List Passed)
  | void => throw (.unsupportedType "void" .voidArgument)
  | bool => pure [.scalar 1 1]
  | int _ width _ _ => pure [.scalar width.bytes width.bytes]
  | stray _ => throw (.unsupportedType "wchar_t" .unpassedWidth)
  | float precision _ => pure [.scalar precision.bytes precision.bytes]
  | pointer .. => pure [.address]
  | array element count =>
    if count = 0 then pure []
    else do return (List.replicate count (← element.passedParts)).flatten
  | composite layout => do
    checkPassed layout
    return [.struct (← passedFields none layout.fields)]
termination_by structural type => type

/-- The parts of the fields of a struct. `unit` is the offset of the storage unit of the field
before, when that was a bit-field. -/
def passedFields (unit : Option Nat) : List Field → Except Failure (List Passed)
  | [] => pure []
  | ⟨_, type, offset, bits⟩ :: rest => do
    if bits.isSome && unit = some offset then passedFields unit rest
    else
      let parts ← type.passedParts
      return parts ++ (← passedFields (if bits.isSome then some offset else none) rest)
termination_by structural fields => fields

end

/-- The shape of a value of a type that is passed by value. -/
def passed : CType → Except Failure Passed
  | void => throw (.unsupportedType "void" .voidArgument)
  | bool => pure (.scalar 1 1)
  | int _ width _ _ => pure (.scalar width.bytes width.bytes)
  | stray _ => throw (.unsupportedType "wchar_t" .unpassedWidth)
  | float precision _ => pure (.scalar precision.bytes precision.bytes)
  | pointer .. | array .. => pure .address
  | composite layout => do
    checkPassed layout
    return .struct (← passedFields none layout.fields)

end CType

namespace Signature

/-- Refuses types and conventions that cannot be passed. -/
def check (function : String) (args : List CType) (returns : CType) (convention : Convention) :
    Except Failure Unit := do
  for type in args do
    let _ ← type.passed
  unless returns.isVoid do
    let _ ← returns.passed
  convention.check function

end Signature

end CInterop
