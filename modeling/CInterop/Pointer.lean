import CInterop.Instance

/-!
# Access through pointers

A pointer into a block is checked against its block. What lies behind a foreign address is unknown,
so it is read and written only through a pointer that was granted access.
-/

namespace CInterop.Pointer

/-- The address `count` elements further on; `null` has no neighbours. -/
def offset (p : Pointer) (count : Int64) : Pointer :=
  let delta := count.toUInt64 * .ofNat p.target.size
  { p with
    place := match p.place with
      | .null => .null
      | .inBlock block offset => .inBlock block (offset + delta)
      | .foreign address => .foreign (address + delta) }

/-- The same address as a pointer to another type. -/
def cast (p : Pointer) (target : CType) : Pointer := { p with target }

/-- A pointer to a value that stays in memory. -/
def addressOf : Value → Except Failure Pointer
  | .object x => pure x.pointer
  | other =>
    throw (.notAddressable "address_of" s!"{other.kindName} values are not backed by native memory")

/-- The size of what a pointer points at, which must not be zero. -/
def elementSize (p : Pointer) (operation : String) : Except Failure Nat :=
  if p.target.size = 0 then
    throw (.unsupportedType p.target.name (.unsizedTarget operation))
  else pure p.target.size

/-- A block on foreign memory, for a pointer that was granted access. -/
def foreignBlock (p : Pointer) (operation : String) (address : UInt64) (size : Nat) :
    HeapM Block := do
  unless p.granted do throw (.foreignAccessDenied operation address.toNat)
  Heap.wrapNative address size

/-- The view and the offset in it at which an element lies. Elements of a block may lie beyond its
end, where the view refuses every access, but not before its start. -/
def element (p : Pointer) (operation : String) (index : Int64) : HeapM (View × Nat) := do
  let size ← liftM (p.elementSize operation)
  match p.place with
  | .null => throw (.nullDereference operation p.target.name)
  | .inBlock block offset =>
    -- Positions are signed words; one that overflows lies before every block.
    let position := do
      let delta ← Word.checked (index.toInt * Word.signed size)
      Word.checked (Word.signed offset.toNat + delta)
    match position with
    | some (.ofNat position) => pure (block.view, position)
    | some position => throw (.outOfBounds operation position size block.length)
    | none => throw (.outOfBounds operation Word.minSigned size block.length)
  | .foreign address =>
    let element := address + index.toUInt64 * .ofNat size
    let block ← p.foreignBlock operation element size
    pure (block.view, 0)

/-- The value of an element. -/
def index (p : Pointer) (index : Int64) : HeapM Value := do
  let (view, offset) ← p.element "index" index
  liftM (view.read (← get) p.target offset)

/-- Stores a value in an element. Native memory keeps nothing alive, so what is stored there is kept
alive for ever. -/
def setIndex (p : Pointer) (index : Int64) (value : Value) : HeapM Unit := do
  let (view, offset) ← p.element "index_set" index
  view.write p.target offset value
  if view.block.native then modify (Heap.leak view.block)

/-- The value that a pointer points at. -/
def deref (p : Pointer) : HeapM Value := p.index 0

/-- Stores a value where a pointer points. -/
def set (p : Pointer) (value : Value) : HeapM Unit := p.setIndex 0 value

/-- What a pointer points at, as an instance. -/
def contents (p : Pointer) : HeapM Instance := do
  let size ← liftM (p.elementSize "contents")
  match p.place with
  | .null => throw (.nullDereference "contents" p.target.name)
  | .inBlock block offset => liftM (Instance.inBlock p.target block offset.toNat)
  | .foreign address => do
    let block ← p.foreignBlock "contents" address size
    liftM (Instance.inBlock p.target block 0)

end CInterop.Pointer
