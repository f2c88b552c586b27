import CInterop.Bits
import CInterop.Text.Wide
import CInterop.Value

/-!
# Views

A view is a window on a block. Every access names an offset in the window and is refused when it
would leave it; `View.locate` is the one place where this is checked. A whole is located before its
parts, which lie in it, so that the sums of their offsets are words. Reading needs only the heap and
leaves it as it is. Memory is accessed by integers of one, two, four and eight bytes, and by
eight bytes where an integer of another size lies.
-/

namespace CInterop

/-- A window on a block. -/
structure View where
  block : Block
  start : Nat
  length : Nat
  deriving DecidableEq, Repr

namespace Block

/-- The view on a whole block. -/
def view (block : Block) : View := ⟨block, 0, block.length⟩

end Block

namespace View

/-- The address of `length` bytes at an offset of the window. -/
def locate (view : View) (operation : String) (offset length : Nat) : Except Failure Nat :=
  if offset + length ≤ view.length then pure (view.block.base + view.start + offset)
  else throw (.outOfBounds operation (Word.signed offset) length view.length)

theorem locate_eq_ok_iff {view : View} {operation : String} {offset length address : Nat} :
    view.locate operation offset length = .ok address ↔
      offset + length ≤ view.length ∧ address = view.block.base + view.start + offset := by
  unfold locate
  split
  · rename_i fits
    constructor
    · intro found
      cases found
      exact ⟨fits, rfl⟩
    · rintro ⟨_, rfl⟩
      rfl
  · rename_i leaves
    constructor
    · intro found
      cases found
    · exact fun fits => absurd fits.1 leaves

end View

namespace Block

/-- A view on `length` bytes of a block. -/
def viewRange (block : Block) (offset length : Nat) : Except Failure View := do
  let _ ← block.view.locate "view" offset length
  pure ⟨block, offset, length⟩

end Block

namespace Value

/-- The integer in the lowest `width` bits. -/
def ofBits (bits : UInt64) (width : Nat) (signed : Bool) : Value :=
  if signed then int (Bits.signExtend bits width) else uint (bits &&& Bits.mask width)

end Value

namespace Heap

/-- What the address in a pointer slot of a block stands for. The text of a string pointer is found
while the block keeps it alive; other pointers point into the block or into one that it keeps
alive, or else to foreign memory. -/
def pointerValue (heap : Heap) (block : Block) (target : Target) (address : UInt64) : Value :=
  let foreign : Value := .pointer (.foreign target.pointee address)
  match target with
  | .cstring =>
    if address = 0 then .null
    else match heap.keptText? block address with
      | some bytes => .text (Text.Utf8.decode bytes)
      | none => foreign
  | .wstring unit =>
    if address = 0 then .null
    else match heap.keptBlock? block address with
      | some bytes => .text (Text.Wide.decode unit bytes)
      | none => foreign
  | _ =>
    match heap.resolve? block address with
    | some (found, offset) => .pointer (.inBlock target.pointee found (.ofNat offset))
    | none => foreign

end Heap

namespace View

/-- The bytes at an offset of a view. -/
def readBytes (heap : Heap) (view : View) (offset count : Nat) : Except Failure Bytes := do
  let address ← view.locate "read" offset count
  pure (heap.memory.load address count)

/-- The word in the bytes at an offset of a view. -/
def readWord (heap : Heap) (view : View) (offset count : Nat) : Except Failure UInt64 := do
  let address ← view.locate "read" offset count
  pure (heap.memory.loadWord address count)

/-- The integer that takes so many bytes at an offset of a view. Only integers of one, two and four
bytes are read as such; any other is read as one of eight. -/
def readUnit (heap : Heap) (view : View) (offset size : Nat) : Except Failure UInt64 := do
  let address ← view.locate "read" offset size
  pure (heap.memory.loadWord address (Bits.unitBytes size))

/-- Reads a bit-field from the storage unit at an offset. -/
def readBits (heap : Heap) (view : View) (type : CType) (offset : Nat) (slot : BitSlot) :
    Except Failure Value := do
  let address ← view.locate "read" offset type.size
  let first ← Word.shift "right" slot.offset
  let unit := heap.memory.loadWord address (Bits.unitBytes type.size)
  let field := Bits.extract unit first slot.width
  pure <| match type with
    | .bool => .bool (field != 0)
    | _ => .ofBits field slot.width type.isSigned

mutual

/-- Reads a value of a type. -/
def read (heap : Heap) (view : View) : CType → Nat → Except Failure Value
  | .void, _ => throw (.unsupportedType "void" .voidValue)
  | .bool, offset => do return .bool ((← view.readWord heap offset 1) != 0)
  | .int _ width signed _, offset => do
    return .ofBits (← view.readWord heap offset width.bytes) width.bits signed
  | .stray size, offset => do
    return .ofBits (← view.readUnit heap offset size) (8 * size) false
  | .float .single _, offset => do return .single (← view.readWord heap offset 4).toUInt32
  | .float .double _, offset => do return .double (← view.readWord heap offset 8)
  | .pointer target width, offset => do
    return heap.pointerValue view.block target (← view.readWord heap offset width.bytes)
  | .array element count, offset => do
    let _ ← view.locate "read" offset (element.size * count)
    let items ← (List.range count).mapM fun i => read heap view element (offset + i * element.size)
    pure (.list items)
  | .composite layout, offset => do
    let _ ← view.locate "read" offset layout.size
    pure (.ofEntries (← readMembers heap view layout.members offset))
termination_by structural type => type

/-- Reads the members of a composite that lies at an offset. -/
def readMembers (heap : Heap) (view : View) : List Member → Nat →
    Except Failure (List (String × Value))
  | [], _ => pure []
  | ⟨name, type, offset, bits⟩ :: rest, base => do
    let place := base + offset
    let value ← match bits with
      | some slot => view.readBits heap type place slot
      | none => read heap view type place
    pure ((name, value) :: (← readMembers heap view rest base))
termination_by structural members => members

end

/-- Reads a member of a composite that lies at an offset. -/
def readMember (heap : Heap) (view : View) (member : Member) (base : Nat) : Except Failure Value :=
  let place := base + member.offset
  match member.bits with
  | some slot => view.readBits heap member.type place slot
  | none => view.read heap member.type place

end View

namespace Instance

/-- The view on an instance. -/
def view (x : Instance) : Except Failure View := x.block.viewRange x.offset x.type.size

/-- The value of an instance. -/
def value (heap : Heap) (x : Instance) : Except Failure Value := do
  (← x.view).read heap x.type 0

/-- The bytes of an instance. -/
def bytes (heap : Heap) (x : Instance) : Except Failure Bytes := do
  (← x.view).readBytes heap 0 x.type.size

end Instance

end CInterop
