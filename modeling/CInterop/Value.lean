import CInterop.CType
import CInterop.Heap
import CInterop.Number.Binary

/-!
# Values

Host values are what is read from memory and written to it. Integers keep the signedness of the type
they were read as; composites are read as records, arrays as lists. A pointer knows the block it
points into, when there is one; an instance is a value that stays in its block.
-/

namespace CInterop

/-- Where a pointer points. Offsets into a block are words and may lie outside of it. -/
inductive Place where
  | null
  | inBlock (block : Block) (offset : UInt64)
  | foreign (address : UInt64)
  deriving DecidableEq, Repr

namespace Place

/-- The address of a place; that of no place is 0. Where a block and an offset add up to no word,
the sum overflows. -/
def address : Place → Except Failure UInt64
  | null => pure 0
  | inBlock block offset => do
    pure (.ofNat (← Word.sum block.address.toNat offset.toNat))
  | foreign address => pure address

theorem address_inBlock_eq_ok {block : Block} {offset result : UInt64} :
    (inBlock block offset).address = .ok result ↔
      block.address.toNat + offset.toNat < Word.modulus ∧ result = block.address + offset := by
  have whole : UInt64.ofNat (block.address.toNat + offset.toNat) = block.address + offset := by
    rw [UInt64.ofNat_add, UInt64.ofNat_toNat, UInt64.ofNat_toNat]
  simp only [address]
  rcases Nat.lt_or_ge (block.address.toNat + offset.toNat) Word.modulus with small | large
  · rw [Word.sum_of_lt small, and_iff_right small, ← whole]
    exact ⟨fun located => (Except.ok.inj located).symm, fun same => congrArg Except.ok same.symm⟩
  · rw [Word.sum_of_le large]
    exact iff_of_false (fun located => nomatch located)
      fun located => Nat.not_lt.mpr large located.1

/-- The place of an address that is not known to lie in a block. -/
def ofAddress (address : UInt64) : Place := if address = 0 then null else foreign address

theorem address_ofAddress (a : UInt64) : (ofAddress a).address = .ok a := by
  unfold ofAddress
  split
  · rename_i zero
    rw [zero]
    rfl
  · rfl

end Place

/-- A pointer to values of a type. Memory outside of blocks is read through it only if that was
`granted`. -/
structure Pointer where
  target : CType
  place : Place
  granted : Bool

namespace Pointer

/-- A pointer to nothing. -/
def null (target : CType) : Pointer := ⟨target, .null, false⟩

/-- A pointer into a block. -/
def inBlock (target : CType) (block : Block) (offset : UInt64) : Pointer :=
  ⟨target, .inBlock block offset, false⟩

/-- A pointer to an address that is not known to lie in a block. -/
def foreign (target : CType) (address : UInt64) : Pointer := ⟨target, .ofAddress address, false⟩

def isNull (p : Pointer) : Bool := p.place matches .null

def isForeign (p : Pointer) : Bool := p.place matches .foreign _

/-- The address that a pointer holds. -/
def address (p : Pointer) : Except Failure UInt64 := p.place.address

/-- The block that a pointer points into. -/
def block? (p : Pointer) : Option Block :=
  match p.place with
  | .inBlock block _ => some block
  | _ => none

/-- Allows reads and writes of memory outside of blocks. -/
def grant (p : Pointer) : Pointer := { p with granted := true }

/-- Pointers are the same when they have the same target type and address. -/
def same (p q : Pointer) : Except Failure Bool := do
  if p.target == q.target then pure ((← p.address) == (← q.address)) else pure false

end Pointer

/-- A value that stays in memory, at an offset of a block. -/
structure Instance where
  type : CType
  block : Block
  offset : Nat

namespace Instance

/-- The address of the first byte. -/
def address (x : Instance) : UInt64 := x.block.address + .ofNat x.offset

/-- Instances are the same when they are the same memory read as the same type. -/
def same (x y : Instance) : Bool :=
  x.block.same y.block && x.offset == y.offset && x.type == y.type

/-- A pointer to an instance. -/
def pointer (x : Instance) : Pointer := .inBlock x.type x.block (.ofNat x.offset)

end Instance

/-- A host value. The entries of a record are in the order of their keys, each key once. -/
inductive Value where
  | void
  | null
  | bool (b : Bool)
  | int (i : Int64)
  | uint (u : UInt64)
  | single (word : UInt32)
  | double (word : UInt64)
  | text (s : String)
  | pointer (p : Pointer)
  | object (x : Instance)
  | record (entries : List (String × Value))
  | list (items : List Value)

instance : Inhabited Value := ⟨.void⟩

namespace Value

/-- The name of a kind of values in failures. -/
def kindName : Value → String
  | void => "void"
  | null => "null"
  | bool _ => "bool"
  | int _ => "int"
  | uint _ => "uint"
  | single _ => "float"
  | double _ => "double"
  | text _ => "string"
  | pointer _ => "pointer"
  | object _ => "cdata"
  | record _ => "record"
  | list _ => "list"

/-! ## Views -/

/-- The signed word that a value is equal to. -/
def toInt? : Value → Option Int64
  | int i => some i
  | uint u => if u.toNat ≤ Word.maxSigned then some u.toInt64 else none
  | bool b => some (if b then 1 else 0)
  | _ => none

/-- The signed word that a value is equal to, or 0. -/
def toIntOrZero (value : Value) : Int64 := value.toInt?.getD 0

/-- The unsigned word that a value is equal to. -/
def toWord? : Value → Option UInt64
  | int i => if 0 ≤ i then some i.toUInt64 else none
  | uint u => some u
  | bool b => some (if b then 1 else 0)
  | _ => none

/-- A number as a double. -/
def toDouble? : Value → Option UInt64
  | single word => some (.ofNat (Number.binary32.convert Number.binary64 word.toNat))
  | double word => some word
  | int i => some (.ofNat (Number.binary64.ofInt i.toInt))
  | uint u => some (.ofNat (Number.binary64.ofInt u.toNat))
  | _ => none

def toText? : Value → Option String
  | text s => some s
  | _ => none

def toPointer? : Value → Option Pointer
  | pointer p => some p
  | _ => none

def toInstance? : Value → Option Instance
  | object x => some x
  | _ => none

/-- The entry of a record under a key. -/
def get? (value : Value) (key : String) : Option Value :=
  match value with
  | record entries => entries.lookup key
  | _ => none

/-! ## Records -/

/-- Puts an entry where the order of keys wants it; an entry of the same key is replaced. -/
def insertEntry (key : String) (value : Value) : List (String × Value) → List (String × Value)
  | [] => [(key, value)]
  | (other, old) :: rest =>
    if key < other then (key, value) :: (other, old) :: rest
    else if key = other then (key, value) :: rest
    else (other, old) :: insertEntry key value rest

/-- The record with these entries; of two entries with one key the later one counts. -/
def ofEntries (entries : List (String × Value)) : Value :=
  record (entries.foldl (fun sorted (key, value) => insertEntry key value sorted) [])

/-! ## Equality -/

mutual

/-- Whether two values are equal. Floating-point numbers are compared as numbers. -/
def equal : Value → Value → Except Failure Bool
  | void, other => pure (other matches void)
  | null, other => pure (other matches null)
  | bool b, other => pure <| match other with
    | bool b' => b == b'
    | _ => false
  | int i, other => pure <| match other with
    | int i' => i == i'
    | _ => false
  | uint u, other => pure <| match other with
    | uint u' => u == u'
    | _ => false
  | single word, other => pure <| match other with
    | single word' => Number.binary32.equal word.toNat word'.toNat
    | _ => false
  | double word, other => pure <| match other with
    | double word' => Number.binary64.equal word.toNat word'.toNat
    | _ => false
  | text s, other => pure <| match other with
    | text s' => s == s'
    | _ => false
  | pointer p, other => match other with
    | pointer p' => p.same p'
    | _ => pure false
  | object x, other => pure <| match other with
    | object x' => x.same x'
    | _ => false
  | record entries, other => match other with
    | record entries' =>
      if entries.length = entries'.length then equalEntries entries entries' else pure false
    | _ => pure false
  | list items, other => match other with
    | list items' => if items.length = items'.length then equalItems items items' else pure false
    | _ => pure false
termination_by structural value => value

/-- Whether as many entries have equal keys and values. The first difference ends the comparison. -/
def equalEntries : List (String × Value) → List (String × Value) → Except Failure Bool
  | [], _ => pure true
  | (key, value) :: rest, others => match others with
    | [] => pure true
    | (key', value') :: others => do
      if key != key' then pure false
      else if ← value.equal value' then equalEntries rest others
      else pure false
termination_by structural entries => entries

/-- Whether as many items are equal. The first difference ends the comparison. -/
def equalItems : List Value → List Value → Except Failure Bool
  | [], _ => pure true
  | item :: rest, others => match others with
    | [] => pure true
    | item' :: others => do
      if ← item.equal item' then equalItems rest others else pure false
termination_by structural items => items

end

end Value

end CInterop
