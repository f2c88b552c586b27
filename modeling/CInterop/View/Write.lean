import CInterop.View

/-!
# Writing through views

`View.write` stores a host value as a value of some type. Scalars are converted as C would do it:
integers lose the bits that do not fit. A list fills an array or the members of a composite from
the start, a record sets the members that it names, and an instance is copied byte by byte. What a
stored address refers to is kept alive by the block that it is stored in.

A write may fail in the middle of a composite; what was stored before stays stored.
-/

namespace CInterop

namespace Value

/-- The bits of a number of an integer type, before they are cut to its width. -/
def plainBits (type : CType) : Value → Except Failure UInt64
  | int i => pure i.toUInt64
  | uint u => pure u
  | bool b => pure (if b then 1 else 0)
  | other => throw (.typeMismatch "write" type.name other.kindName)

/-- The bits of a number, which may be an instance of an integer type. -/
def integerBits (heap : Heap) (type : CType) (value : Value) : Except Failure UInt64 :=
  match value with
  | object x =>
    if x.type.isIntegral then do plainBits type (← x.value heap) else plainBits type value
  | _ => plainBits type value

/-- A number as the double that is stored for it. -/
def doubleWord (type : CType) (value : Value) : Except Failure UInt64 :=
  match value.toDouble? with
  | some word => pure word
  | none => throw (.typeMismatch "write" type.name value.kindName)

end Value

namespace Heap

/-- Stores a text with a zero byte behind it. The result is its address. A text that holds a zero
byte itself is refused. -/
def storeText (text : String) : HeapM (UInt64 × Kept) := do
  let bytes := Text.Utf8.encode text
  match bytes.findIdx? (· == 0) with
  | some position => throw (.invalidString (.zeroByte position))
  | none =>
    let address ← modifyGet (reserve (bytes.length + 1))
    onMemory (·.store address (bytes ++ [0]))
    pure (.ofNat address, .text address bytes.length)

/-- Stores a wide text in a block of its own. -/
def storeWide (unit : Nat) (text : String) : HeapM (UInt64 × Kept) := do
  let bytes := Text.Wide.encode unit text
  let block ← allocate bytes.length
  onMemory (·.store block.base bytes)
  pure (block.address, .block block)

/-- The address that is stored for a value in a slot of a pointer type, and what has to be kept
alive for it. -/
def addressFor (type : CType) (target : Target) : Value → HeapM (UInt64 × Option Kept)
  | .null => pure (0, none)
  | .int i =>
    if 0 ≤ i then pure (i.toUInt64, none)
    else throw (.typeMismatch "write" type.name "negative address")
  | .uint u => pure (u, none)
  | .pointer p => do pure (← liftM p.address, p.block?.map .block)
  | .object x => pure (x.address, some (.block x.block))
  | .text s =>
    match target with
    | .cstring | .untyped => do
      let (address, kept) ← storeText s
      pure (address, some kept)
    | .wstring unit => do
      let (address, kept) ← storeWide unit s
      pure (address, some kept)
    | .typed _ => throw (.typeMismatch "write" type.name "string")
  | other => throw (.typeMismatch "write" type.name other.kindName)

end Heap

namespace View

/-- The address of `length` bytes that are to be written. -/
def target (view : View) (offset length : Nat) : HeapM Nat :=
  liftM (view.locate "write" offset length)

/-- Stores bytes at an offset of a view. -/
def writeBytes (view : View) (offset : Nat) (bytes : Bytes) : HeapM Unit := do
  let address ← view.target offset bytes.length
  Heap.onMemory (·.store address bytes)

/-- Stores zeros at an offset of a view. -/
def zero (view : View) (offset length : Nat) : HeapM Unit := do
  let address ← view.target offset length
  Heap.onMemory (·.fill address length 0)

/-- Stores the lowest `count` bytes of a word at an offset of a view. -/
def writeWord (view : View) (offset count : Nat) (word : UInt64) : HeapM Unit := do
  let address ← view.target offset count
  Heap.onMemory (·.storeWord address count word)

/-- Stores an integer that takes so many bytes at an offset of a view. Only integers of one, two and
four bytes are stored as such; any other is stored as one of eight. -/
def writeUnit (view : View) (offset size : Nat) (word : UInt64) : HeapM Unit := do
  let address ← view.target offset size
  Heap.onMemory (·.storeWord address (Bits.unitBytes size) word)

/-- Keeps an item alive for a range of the view. -/
def keep (view : View) (offset length : Nat) (item : Option Kept) : HeapM Unit :=
  modify (Heap.keepAt view.block (view.start + offset) length item)

/-- Stores a bit-field in the storage unit at an offset. -/
def writeBits (view : View) (type : CType) (offset : Nat) (slot : BitSlot) (value : Value) :
    HeapM Unit := do
  let bits ← liftM (value.integerBits (← get) type)
  let address ← view.target offset type.size
  let first ← liftM (Word.shift "left" slot.offset)
  Heap.onMemory fun memory =>
    -- The bits beside the slot are written back as they were read.
    let size := Bits.unitBytes type.size
    let unit := memory.loadWord address size
    memory.storeWord address size (Bits.replace unit first slot.width bits)

/-- Stores a value of a type that has no parts. -/
def writeScalar (view : View) (type : CType) (offset : Nat) (value : Value) : HeapM Unit := do
  match type with
  | .bool =>
    let bits ← liftM (value.integerBits (← get) type)
    view.writeWord offset 1 (if bits = 0 then 0 else 1)
  | .int .. =>
    let bits ← liftM (value.integerBits (← get) type)
    view.writeWord offset type.size bits
  | .stray size =>
    let bits ← liftM (value.integerBits (← get) type)
    view.writeUnit offset size bits
  | .float .single _ =>
    let word ← liftM (value.doubleWord type)
    let narrow := Number.binary64.convert Number.binary32 word.toNat
    view.writeWord offset 4 (.ofNat narrow)
  | .float .double _ =>
    let word ← liftM (value.doubleWord type)
    view.writeWord offset 8 word
  | .pointer target width =>
    -- The slot is located before the text is stored, so that a refused write stores nothing.
    let place ← view.target offset width.bytes
    let (address, kept) ← Heap.addressFor type target value
    Heap.onMemory (·.storeWord place width.bytes address)
    view.keep offset width.bytes kept
  | _ => throw (.typeMismatch "write" type.name value.kindName)

/-- Copies an instance of the same type. Its block is kept alive if it may hold addresses. -/
def copyInstance (view : View) (offset : Nat) (source : Instance) : HeapM Unit := do
  let bytes ← liftM (source.bytes (← get))
  view.writeBytes offset bytes
  view.keep offset bytes.length
    (if source.type.holdsPointer then some (.block source.block) else none)

/-- Stores the address that an instance of another pointer type holds. -/
def copyPointer (view : View) (type : CType) (offset : Nat) (source : Instance) : HeapM Unit := do
  let address := Bytes.toWord (← liftM (source.bytes (← get)))
  view.writeWord offset type.size address
  view.keep offset type.size (if address = 0 then none else some (.block source.block))

/-- Stores a text in an array of single bytes; a shorter text ends at a zero byte. -/
def writeText (view : View) (type : CType) (count offset : Nat) (text : String) : HeapM Unit := do
  let bytes := Text.Utf8.encode text
  if bytes.length ≤ count then
    view.writeBytes offset bytes
    if bytes.length < count then view.zero (offset + bytes.length) 1
  else throw (.typeMismatch "write" type.name s!"string of {bytes.length} bytes")

/-- Stores a value that is neither a list nor a record. -/
def writeWhole (view : View) (type : CType) (offset : Nat) (value : Value) : HeapM Unit := do
  if let .object source := value then
    -- An instance is copied as it is, or read as an address or a number; any other is no value
    -- of the type.
    if source.type == type then return ← view.copyInstance offset source
    if source.type.isPointer && type.isPointer then return ← view.copyPointer type offset source
    if source.type.isScalar && type.isScalar && !type.isPointer then
      return ← view.writeScalar type offset (← liftM (source.value (← get)))
  match type with
  | .array element count =>
    let _ ← view.target offset type.size
    match value with
    | .text s =>
      if element.size = 1 && element.isIntegral then view.writeText type count offset s
      else throw (.typeMismatch "write" type.name s!"string of {s.utf8ByteSize} bytes")
    | _ => throw (.typeMismatch "write" type.name value.kindName)
  | .composite _ =>
    let _ ← view.target offset type.size
    throw (.typeMismatch "write" type.name value.kindName)
  | _ => view.writeScalar type offset value

mutual

/-- Stores a value of a type. -/
def write (view : View) (type : CType) (offset : Nat) : Value → HeapM Unit
  | .list items => do
    match type with
    | .array element count =>
      let _ ← view.target offset type.size
      -- The whole array lies in the view; what follows a shorter list stays as it was.
      if items.length ≤ count then writeItems view element offset items
      else throw (.typeMismatch "write" type.name s!"list of {items.length} items")
    | .composite layout =>
      let _ ← view.target offset type.size
      if items.length ≤ layout.members.length then writeMembers view offset layout.members items
      else throw (.typeMismatch "write" type.name "list")
    | _ => view.writeScalar type offset (.list items)
  | .record entries => do
    match type with
    | .composite layout =>
      let _ ← view.target offset type.size
      writeEntries view layout offset entries
    | _ => view.writeWhole type offset (.record entries)
  | value => view.writeWhole type offset value
termination_by structural value => value

/-- Stores items as the elements of an array, from an offset on. -/
def writeItems (view : View) (element : CType) (offset : Nat) : List Value → HeapM Unit
  | [] => pure ()
  | item :: rest => do
    write view element offset item
    writeItems view element (offset + element.size) rest
termination_by structural items => items

/-- Stores items as the members of a composite that lies at an offset, in their order. -/
def writeMembers (view : View) (base : Nat) : List Member → List Value → HeapM Unit
  | _, [] => pure ()
  | [], _ => pure ()
  | member :: members, item :: rest => do
    let place := base + member.offset
    match member.bits with
    | some slot => view.writeBits member.type place slot item
    | none => write view member.type place item
    writeMembers view base members rest
termination_by structural _ items => items

/-- Stores the entries of a record as the members of a composite that they name. -/
def writeEntries (view : View) (layout : Layout) (base : Nat) :
    List (String × Value) → HeapM Unit
  | [] => pure ()
  | (name, item) :: rest => do
    match layout.member? name with
    | none => throw (.invalidField layout.name name .noSuchMember)
    | some member =>
      let place := base + member.offset
      match member.bits with
      | some slot => view.writeBits member.type place slot item
      | none => write view member.type place item
      writeEntries view layout base rest
termination_by structural entries => entries

end

/-- Stores a value as a member of a composite that lies at an offset. -/
def writeMember (view : View) (member : Member) (base : Nat) (value : Value) : HeapM Unit :=
  let place := base + member.offset
  match member.bits with
  | some slot => view.writeBits member.type place slot value
  | none => view.write member.type place value

end View

end CInterop
