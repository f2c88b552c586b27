import CInterop.Pointer
import CInterop.Registry

/-!
# Text in memory

Narrow text is a run of bytes that ends at a zero byte, wide text one of units that ends at a zero
unit. Text buffers are arrays of characters that others may write to.
-/

namespace CInterop

namespace Memory

/-- The bytes from an address on, before the first zero byte; at most `limit` are looked at. -/
def untilZero (memory : Memory) : Nat → Nat → Bytes
  | 0, _ => []
  | limit + 1, address =>
    if memory.byte address = 0 then []
    else memory.byte address :: untilZero memory limit (address + 1)

/-- The bytes of the units from an address on, before the first zero unit; at most `limit` units
are looked at. -/
def untilZeroUnit (memory : Memory) (size : Nat) : Nat → Nat → Bytes
  | 0, _ => []
  | limit + 1, address =>
    let unit := memory.load address size
    if unit.all (· == 0) then [] else unit ++ untilZeroUnit memory size limit (address + size)

end Memory

namespace Heap

/-- The narrow text at an address. Nothing is stored beyond the frontier, so no text ends behind
it. -/
def textAt (heap : Heap) (address : UInt64) : Bytes :=
  heap.memory.untilZero (heap.frontier - address.toNat) address.toNat

/-- The wide text at an address, as its bytes. -/
def wideTextAt (heap : Heap) (unit : Nat) (address : UInt64) : Bytes :=
  heap.memory.untilZeroUnit unit (heap.frontier - address.toNat) address.toNat

end Heap

namespace Pointer

/-- The narrow text that a pointer points at, of at most `limit` bytes. Text in a block ends with
the block. -/
def readText (heap : Heap) (p : Pointer) (limit : Option Nat) : Except Failure String := do
  match p.place with
  | .null => throw (.nullDereference "read_cstring" "char")
  | .inBlock block _ =>
    let start := (← p.address).toNat - block.address.toNat
    let available := block.length - start
    let bytes ← block.view.readBytes heap start (min (limit.getD available) available)
    pure (Text.Utf8.decode bytes.beforeZero)
  | .foreign address =>
    unless p.granted do throw (.foreignAccessDenied "read_cstring" address.toNat)
    pure <| Text.Utf8.decode <| match limit with
      | none => heap.textAt address
      | some limit => heap.memory.untilZero limit address.toNat

end Pointer

/-! ## Text buffers -/

namespace TextBuffer

/-- An array of `size` zero bytes. -/
def ofSize (registry : Registry) (size : Nat) : HeapM Instance := do
  let char ← liftM (registry.describe .int8)
  Instance.create (← liftM (Registry.array char size))

/-- An array that holds some bytes and a zero byte behind them. -/
def ofBytes (registry : Registry) (bytes : Bytes) : HeapM Instance := do
  if bytes.contains 0 then throw (.invalidString .zeroInInitializer)
  let buffer ← ofSize registry (bytes.length + 1)
  (← liftM buffer.view).writeBytes 0 bytes
  pure buffer

/-- An array of wide characters that holds a text, of the size that the text needs or of a given
one. The terminator may be missing, the text may not. -/
def ofText (registry : Registry) (text : String) (size : Option Nat) : HeapM Instance := do
  let wchar ← liftM (registry.describe .wchar)
  let encoded := Text.Wide.encode wchar.size text
  let needed ← liftM (Word.quotient encoded.length wchar.size)
  let length ← liftM (Word.difference needed 1)
  let count := size.getD needed
  if count < length then
    throw (.typeMismatch "create_unicode_buffer" s!"wchar_t[{count}]"
      s!"string of {length} characters")
  let buffer ← Instance.create (← liftM (Registry.array wchar count))
  (← liftM buffer.view).writeBytes 0 (encoded.take buffer.type.size)
  pure buffer

/-- The text in a buffer, up to its terminator or to the end of the buffer. -/
def text (heap : Heap) (buffer : Instance) : Except Failure String := do
  let bytes ← buffer.bytes heap
  let size := (buffer.type.element?.map (·.1.size)).getD 1
  pure (if 1 < size then Text.Wide.decode size bytes else Text.Utf8.decode bytes.beforeZero)

end TextBuffer

/-- What a function that writes to a bounded buffer reports: the number that it returned, and the
text that is in the buffer. -/
structure BoundedOutput where
  returned : Int64
  capacity : Nat
  text : String

namespace BoundedOutput

/-- Looks at the buffer after the call that returned a value. -/
def inspect (heap : Heap) (returned : Value) (buffer : Instance) : Except Failure BoundedOutput :=
  match returned.toInt? with
  | none => throw (.typeMismatch "inspect" "integer return" returned.kindName)
  | some returned => do
    pure { returned, capacity := buffer.type.size, text := ← TextBuffer.text heap buffer }

/-- Whether the output was cut: the function failed, or it had as much to write as the buffer holds
with its terminator, or more. -/
def truncated (output : BoundedOutput) : Bool :=
  output.returned < 0 || output.capacity ≤ output.returned.toUInt64.toNat

end BoundedOutput

end CInterop
