import CInterop.View.Write

/-!
# Instances

An instance is a value that stays in its block: its parts share its memory, and what is written to
one of them is seen through all. Instances lie in their blocks and their parts in them, so that the
sums of their offsets are words.
-/

namespace CInterop.Instance

/-- A fresh instance of zeros. -/
def create (type : CType) : HeapM Instance := do
  if type.isVoid then throw (.unsupportedType "void" .voidInstance)
  pure { type, block := ← Heap.allocate type.size, offset := 0 }

/-- An instance on memory of a block. -/
def inBlock (type : CType) (block : Block) (offset : Nat) : Except Failure Instance := do
  let _ ← block.viewRange offset type.size
  pure { type, block, offset }

/-- Stores a value in an instance. -/
def setValue (x : Instance) (value : Value) : HeapM Unit := do
  (← liftM x.view).write x.type 0 value

/-- A fresh instance that holds a value. -/
def ofValue (type : CType) (value : Value) : HeapM Instance := do
  let x ← create type
  x.setValue value
  pure x

/-- The member of a name. -/
def member (x : Instance) (name : String) : Except Failure Member :=
  match x.type.layout? with
  | none => throw (.invalidField x.type.name name .notComposite)
  | some layout =>
    match layout.member? name with
    | none => throw (.invalidField x.type.name name .noSuchMember)
    | some member => pure member

/-- The value of a member. -/
def get (heap : Heap) (x : Instance) (name : String) : Except Failure Value := do
  let member ← x.member name
  (← x.view).readMember heap member 0

/-- Stores a value in a member. -/
def set (x : Instance) (name : String) (value : Value) : HeapM Unit := do
  let member ← liftM (x.member name)
  (← liftM x.view).writeMember member 0 value

/-- A member as an instance on the same memory; bit-fields have no address. -/
def field (x : Instance) (name : String) : Except Failure Instance := do
  let member ← x.member name
  if member.bits.isSome then throw (.notAddressable "field" s!"'{name}' is a bit-field")
  pure { type := member.type, block := x.block, offset := x.offset + member.offset }

/-- The number of elements of an array. -/
def count? (x : Instance) : Option Nat := x.type.element?.map (·.2)

/-- An element of an array as an instance on the same memory. -/
def item (x : Instance) (index : Nat) : Except Failure Instance :=
  match x.type.element? with
  | none => throw (.typeMismatch "at" "array" x.type.name)
  | some (element, count) =>
    if index < count then
      pure { type := element, block := x.block, offset := x.offset + index * element.size }
    else
      let offset := min (index * element.size) (Word.modulus - 1)
      throw (.outOfBounds "at" (Word.signed offset) element.size x.type.size)

/-- The value of an element. -/
def getIndex (heap : Heap) (x : Instance) (index : Nat) : Except Failure Value := do
  (← x.item index).value heap

/-- Stores a value in an element. -/
def setIndex (x : Instance) (index : Nat) (value : Value) : HeapM Unit := do
  (← liftM (x.item index)).setValue value

/-- The same memory as an instance of another type. -/
def reinterpret (x : Instance) (type : CType) : Except Failure Instance :=
  inBlock type x.block x.offset

end CInterop.Instance
