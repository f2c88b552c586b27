import CInterop.Failure
import CInterop.Memory
import CInterop.Word

/-!
# Blocks and what they keep alive

A `Block` is a run of bytes that values are placed in. Owned blocks are allocated zeroed; native
blocks are windows on memory that belongs to someone else.

When the address of host-owned memory is stored in a block, the block keeps that memory alive: the
heap records, for each block, what is kept for which offset (`Heap.keepAt`). Addresses are handed
out once and never again, so that what an address refers to stays the same for ever.
-/

namespace CInterop

/-- A run of bytes. Two blocks are the same when they have the same identity, wherever they lie. -/
structure Block where
  id : Nat
  base : Nat
  length : Nat
  native : Bool
  deriving DecidableEq, Repr

namespace Block

/-- Whether two handles refer to one block. -/
def same (a b : Block) : Bool := a.id == b.id

/-- The address of the first byte. -/
def address (block : Block) : UInt64 := .ofNat block.base

/-- How far an address lies behind the first byte, modulo the number of words. -/
def distance (block : Block) (address : UInt64) : Nat := (address - block.address).toNat

/-- Whether an address lies inside the block. -/
def contains (block : Block) (address : UInt64) : Bool := block.distance address < block.length

end Block

/-- Host-owned memory that a stored address refers to: a block, or a text of that many bytes before
its terminator. -/
inductive Kept where
  | block (block : Block)
  | text (address length : Nat)
  deriving DecidableEq, Repr

/-- The state of memory: its bytes, the first address and the first identity that are still free,
what each block keeps alive for which offset (in the order of offsets), and what is kept for ever.
-/
structure Heap where
  memory : Memory
  frontier : Nat
  nextId : Nat
  kept : Nat → List (Nat × Kept)
  leaked : List Kept

/-- Operations that change the heap and may fail. What was changed before a failure stays changed.
-/
abbrev HeapM := ExceptT Failure (StateM Heap)

namespace Heap

/-- Every block starts at a multiple of this. -/
def alignment : Nat := 16

/-- The unused addresses behind every piece of memory. -/
def gap : Nat := 0x100000000

/-- A heap in which nothing is allocated. -/
def empty : Heap :=
  { memory := .blank, frontier := 0x10000000000, nextId := 0, kept := fun _ => [], leaked := [] }

/-- Takes fresh memory; the result is its address. -/
def reserve (length : Nat) (heap : Heap) : Nat × Heap :=
  let units := (length + alignment - 1) / alignment
  (heap.frontier, { heap with frontier := heap.frontier + units * alignment + gap })

/-- The largest block that can be allocated. -/
def largestBlock : Nat := 0x8000000000000000 - alignment

/-- A fresh block of zeros. -/
def allocate (length : Nat) : HeapM Block := do
  if largestBlock < length then
    throw (.outOfBounds "allocate_block" 0 length 0x7FFFFFFFFFFFFFFF)
  let base ← modifyGet (reserve length)
  modifyGet fun heap =>
    ({ id := heap.nextId, base, length, native := false }, { heap with nextId := heap.nextId + 1 })

/-- A block on memory that belongs to someone else. -/
def wrapNative (address : UInt64) (length : Nat) : HeapM Block := do
  if address = 0 then throw (.nullDereference "wrap_native" s!"{length} bytes")
  modifyGet fun heap =>
    ({ id := heap.nextId, base := address.toNat, length, native := true },
      { heap with nextId := heap.nextId + 1 })

/-- Changes the bytes of the memory. -/
def onMemory (change : Memory → Memory) : HeapM Unit :=
  modify fun heap => { heap with memory := change heap.memory }

/-! ## Keeping memory alive -/

/-- What a block keeps alive, with the offsets that it is kept for. -/
def keptBy (heap : Heap) (block : Block) : List (Nat × Kept) := heap.kept block.id

/-- Replaces what a block keeps alive. -/
def setKept (heap : Heap) (block : Block) (entries : List (Nat × Kept)) : Heap :=
  { heap with kept := fun id => if id = block.id then entries else heap.kept id }

/-- Puts an entry where the order of offsets wants it; an entry of the same offset is replaced. -/
def insertKept (offset : Nat) (item : Kept) : List (Nat × Kept) → List (Nat × Kept)
  | [] => [(offset, item)]
  | (other, kept) :: rest =>
    if offset < other then (offset, item) :: (other, kept) :: rest
    else if offset = other then (offset, item) :: rest
    else (other, kept) :: insertKept offset item rest

/-- What is left of the entries once a range of offsets is given up. -/
def releaseKept (offset length : Nat) (entries : List (Nat × Kept)) : List (Nat × Kept) :=
  let finish := min (offset + length) (Word.modulus - 1)
  entries.filter fun (other, _) => !(offset ≤ other && other < finish)

/-- Whether an item is the block itself, which needs nobody to keep it. -/
def isSelf (block : Block) : Kept → Bool
  | .block other => block.same other
  | .text .. => false

/-- Gives up what was kept for a range of a block, and keeps an item for its start instead. -/
def keepAt (block : Block) (offset length : Nat) (item : Option Kept) (heap : Heap) : Heap :=
  let released := releaseKept offset length (heap.keptBy block)
  heap.setKept block <|
    match item.filter (!isSelf block ·) with
    | none => released
    | some item => insertKept offset item released

/-- Hands what a block keeps alive over to native code, for good. -/
def leak (block : Block) (heap : Heap) : Heap :=
  let items := (heap.keptBy block).map (·.2)
  { heap.setKept block [] with leaked := items ++ heap.leaked }

/-- The block that an address lies in: the block it was found in, or one that this keeps alive. -/
def resolve? (heap : Heap) (block : Block) (address : UInt64) : Option (Block × Nat) :=
  if block.contains address then some (block, block.distance address)
  else
    (heap.keptBy block).findSome? fun
      | (_, .block other) =>
        if other.contains address then some (other, other.distance address) else none
      | (_, .text ..) => none

/-- The bytes of the text that a block keeps alive at an address. -/
def keptText? (heap : Heap) (block : Block) (address : UInt64) : Option Bytes :=
  (heap.keptBy block).findSome? fun
    | (_, .text start length) =>
      if start = address.toNat then some (heap.memory.load start length) else none
    | (_, .block _) => none

/-- The bytes of the block that starts at an address and is kept alive by another. -/
def keptBlock? (heap : Heap) (block : Block) (address : UInt64) : Option Bytes :=
  (heap.keptBy block).findSome? fun
    | (_, .block other) =>
      if other.address = address then some (heap.memory.load other.base other.length) else none
    | (_, .text ..) => none

end Heap

end CInterop
