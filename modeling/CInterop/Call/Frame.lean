import CInterop.CString
import CInterop.Call.Passing

/-!
# Arguments and results

Each argument of a call is written to a slot of its own, which keeps alive what the argument refers
to; an array is passed as the address of its first element. Behind the declared arguments of a
variadic function the types follow from the values, after the default promotions of C.

`Value.decode` goes the other way, from bytes to a value: composites are copied to a fresh block,
and narrow and wide text is read at once.
-/

namespace CInterop

/-- The slots of the arguments of a call, in order. -/
abbrev Frame := List Block

namespace Frame

/-- The smallest slot. -/
def slotSize : Nat := 8

/-- The type that a parameter of some type is passed as. -/
def decayed (type : CType) : CType :=
  match type with
  | .array element _ => Registry.host.pointerTo element
  | other => other

/-- What is written to the slot of an argument: lists and texts that are passed for an array are
stored in a fresh array first. -/
def materialize (type : CType) (value : Value) : HeapM Value :=
  match type, value with
  | .array .., .list _ | .array .., .text _ => do return .object (← Instance.ofValue type value)
  | _, _ => pure value

/-- Blames the argument for a value that could not be stored. -/
def blame (function : String) (position : Nat) (action : HeapM Unit) : HeapM Unit := fun heap =>
  match action heap with
  | (.error failure, heap) => (.error (failure.atArgument function position), heap)
  | (.ok (), heap) => (.ok (), heap)

/-- Writes an argument to a slot behind the others. -/
def push (frame : Frame) (function : String) (position : Nat) (type : CType) (value : Value) :
    HeapM Frame := do
  -- The slot comes first: a failure in it is no fault of the argument.
  let slot ← Heap.allocate (max type.size slotSize)
  let value ← materialize type value
  blame function position (slot.view.write (decayed type) 0 value)
  pure (frame ++ [slot])

/-- The bytes in the slots. -/
def bytes (heap : Heap) (frame : Frame) : List Bytes :=
  frame.map fun slot => heap.memory.load slot.base slot.length

end Frame

/-! ## Types of variadic arguments -/

/-- The type of a value that is passed behind the declared arguments. -/
def Value.inferred? (registry : Registry) (value : Value) : Option CType :=
  let primitive (primitive : Primitive) := primitive.type? registry.platform
  match value with
  | .text _ => primitive .cstring
  | .int i => primitive (if -0x80000000 ≤ i.toInt && i.toInt < 0x80000000 then .int32 else .int64)
  | .uint u => primitive (if u.toNat < 0x100000000 then .uint32 else .uint64)
  | .double _ => primitive .double
  | .single _ => primitive .float
  | .bool _ => primitive .int32
  | .null | .pointer _ => primitive .pointer
  | .object x => if x.type.isScalar then some x.type else primitive .pointer
  | .void | .record _ | .list _ => none

/-- The type that a variadic argument is passed as: integers are at least as wide as `int`, and
floating-point numbers are doubles. -/
def CType.promoted (registry : Registry) (type : CType) : Except Failure CType := do
  let int ← registry.describe .int32
  match type with
  | .bool => pure int
  | .int .. | .stray _ => pure (if type.size < int.size then int else type)
  | .float .single _ => registry.describe .double
  | _ => pure type

/-! ## Results -/

namespace Value

/-- The value that the bytes of a scalar stand for. Nothing is known about the blocks that its
addresses lie in. -/
def ofScalarBytes (type : CType) (bytes : Bytes) : Value :=
  let word := Bytes.toWord (bytes.take type.size)
  match type with
  | .bool => .bool (word != 0)
  | .int _ width signed _ => .ofBits word width.bits signed
  | .stray size => .ofBits (Bytes.toWord (bytes.take (Bits.unitBytes size))) (8 * size) false
  | .float .single _ => .single word.toUInt32
  | .float .double _ => .double word
  | .pointer target _ => .pointer (.foreign target.pointee word)
  | _ => .void

/-- The value of a type that starts with the first of some bytes. -/
def decode (type : CType) (bytes : Bytes) : HeapM Value := do
  match type with
  | .pointer .cstring width =>
    let address := Bytes.toWord (bytes.take width.bytes)
    if address = 0 then pure .null
    else return .text (Text.Utf8.decode ((← get).textAt address))
  | .pointer (.wstring unit) width =>
    let address := Bytes.toWord (bytes.take width.bytes)
    if address = 0 then pure .null
    else return .text (Text.Wide.decode unit ((← get).wideTextAt unit address))
  | .array .. | .composite _ =>
    let block ← Heap.allocate type.size
    Heap.onMemory (·.store block.base (bytes.take type.size))
    return .object (← liftM (Instance.inBlock type block 0))
  | _ => pure (ofScalarBytes type bytes)

/-- The value that a function returned. Integers and truth values fill a word; only the lowest
bytes of it count. -/
def decodeResult (type : CType) (bytes : Bytes) : HeapM Value :=
  match type with
  | .void => pure .void
  | .bool => pure (.bool (Bytes.toWord (bytes.take 1) != 0))
  | .array .. => throw (.unsupportedType type.name .functionReturnsArray)
  | _ => decode type (bytes.padded (max type.size Frame.slotSize))

/-- Grants access to foreign memory through a value. -/
def grantedIf (granted : Bool) (value : Value) : Value :=
  match value with
  | pointer p => if granted && p.isForeign then pointer p.grant else value
  | _ => value

end Value

end CInterop
