import CInterop.World

/-!
# Native functions

A native function sees its arguments as the bytes of their slots and gives the bytes of its result.
A `Native.leaf` works on memory only; a `Native.caller` also enters addresses that it was passed,
which may be trampolines or leaves.
-/

namespace CInterop

/-- Enters an address with the bytes of the arguments. -/
abbrev Enter := UInt64 → List Bytes → StateM World Bytes

/-- The code of a native function. -/
inductive Native where
  | leaf (run : List Bytes → StateM Heap Bytes)
  | caller (run : Enter → List Bytes → StateM World Bytes)

namespace Native

/-- A function that depends on its arguments alone. -/
def ofPure (f : List Bytes → Bytes) : Native := leaf fun args => pure (f args)

/-! ## Arguments and results -/

/-- The bytes of an argument. -/
def bytes (args : List Bytes) (i : Nat) : Bytes := args[i]?.getD []

/-- An argument as a word. -/
def word (args : List Bytes) (i : Nat) : UInt64 := Bytes.toWord ((bytes args i).take 8)

/-- A part of some bytes as a word. -/
def part (bytes : Bytes) (offset size : Nat) : UInt64 :=
  Bytes.toWord ((bytes.drop offset).take size)

/-- A word as a signed integer of some bits. -/
def signedOf (width : Nat) (word : UInt64) : Int64 := Bits.signExtend word width

/-- An argument as a signed integer of 32 bits. -/
def int32 (args : List Bytes) (i : Nat) : Int64 := signedOf 32 (word args i)

/-- An argument as a number of bytes or elements. -/
def count (args : List Bytes) (i : Nat) : Nat := (word args i).toNat

/-- The bytes of a result of 64 bits. -/
def result64 (word : UInt64) : Bytes := Bytes.ofWord 8 word

/-- The bytes of a result of 32 bits. -/
def result32 (word : UInt64) : Bytes := Bytes.ofWord 4 word

/-- The bytes of a signed result of 32 bits. -/
def resultInt (i : Int64) : Bytes := result32 i.toUInt64

/-- The bytes of a truth value. -/
def resultBool (b : Bool) : Bytes := [if b then 1 else 0]

/-! ## Memory -/

/-- Changes memory. -/
def onMemory (change : Memory → Memory) : StateM Heap Unit :=
  modify fun heap => { heap with memory := change heap.memory }

/-- Where fixed data lies: each piece has an address of its own. -/
def staticAddress (piece : Nat) : UInt64 := .ofNat (0x1000000000 + 4096 * piece)

/-- Puts fixed data at its address, and gives the address. -/
def static (piece : Nat) (data : Bytes) : StateM Heap UInt64 := do
  onMemory (·.store (staticAddress piece).toNat data)
  pure (staticAddress piece)

/-- The bytes of signed integers of 32 bits. -/
def int32s (items : List Int64) : Bytes := items.flatMap resultInt

end Native

end CInterop
