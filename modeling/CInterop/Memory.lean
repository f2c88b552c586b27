/-!
# Bytes and memory

Words are stored with their lowest byte first. `Bytes.toWord` and `Bytes.ofWord` go between a word
and its bytes. `Memory` is the history of what was stored; `Memory.byte` is what it says about an
address, and the lemmas on it say what a store changes. Memory has no notion of what is allocated:
bounds are the business of blocks and of the views on them.
-/

namespace CInterop

/-- Consecutive bytes, the one with the lowest address first. -/
abbrev Bytes := List UInt8

namespace Bytes

/-- The word that some bytes spell. -/
def toWord : Bytes → UInt64
  | [] => 0
  | byte :: rest => byte.toUInt64 ||| (toWord rest <<< 8)

/-- The lowest `count` bytes of a word. -/
def ofWord : Nat → UInt64 → Bytes
  | 0, _ => []
  | count + 1, word => word.toUInt8 :: ofWord count (word >>> 8)

/-- `count` zero bytes. -/
def zeros (count : Nat) : Bytes := List.replicate count 0

/-- The bytes with zeros behind them, up to `count` bytes. -/
def padded (count : Nat) (bytes : Bytes) : Bytes := bytes ++ zeros (count - bytes.length)

/-- The bytes before the first zero byte. -/
def beforeZero (bytes : Bytes) : Bytes := bytes.takeWhile (· != 0)

@[simp] theorem length_ofWord (count : Nat) (word : UInt64) :
    (ofWord count word).length = count := by
  induction count generalizing word with
  | zero => rfl
  | succ count ih => simp [ofWord, ih]

@[simp] theorem length_zeros (count : Nat) : (zeros count).length = count := by simp [zeros]

end Bytes

/-- Bytes that were stored from an address on. -/
structure Stored where
  start : Nat
  cells : Array UInt8
  deriving DecidableEq, Repr

/-- The stored byte for an address, if there is one. -/
def Stored.byte? (stored : Stored) (address : Nat) : Option UInt8 :=
  if stored.start ≤ address then stored.cells[address - stored.start]? else none

/-- What was stored, the latest first. -/
structure Memory where
  stores : List Stored
  deriving DecidableEq, Repr

namespace Memory

/-- Memory that was never written. -/
def blank : Memory := ⟨[]⟩

/-- The byte behind an address: the one that was stored last, and 0 where nothing was stored. -/
def byte (memory : Memory) (address : Nat) : UInt8 :=
  (memory.stores.findSome? (·.byte? address)).getD 0

/-- The `count` bytes from an address on. -/
def load (memory : Memory) (address count : Nat) : Bytes :=
  (List.range count).map fun i => memory.byte (address + i)

/-- The word in the `count` bytes from an address on. -/
def loadWord (memory : Memory) (address count : Nat) : UInt64 :=
  Bytes.toWord (memory.load address count)

/-- Stores bytes from an address on. -/
def store (memory : Memory) (address : Nat) (bytes : Bytes) : Memory :=
  ⟨⟨address, bytes.toArray⟩ :: memory.stores⟩

/-- Stores the lowest `count` bytes of a word. -/
def storeWord (memory : Memory) (address count : Nat) (word : UInt64) : Memory :=
  memory.store address (Bytes.ofWord count word)

/-- Stores the same byte `count` times. -/
def fill (memory : Memory) (start count : Nat) (value : UInt8) : Memory :=
  ⟨⟨start, .replicate count value⟩ :: memory.stores⟩

/-- A byte is the latest store's if that covers the address, and else what it was before. -/
theorem byte_cons (stored : Stored) (stores : List Stored) (address : Nat) :
    byte ⟨stored :: stores⟩ address = (stored.byte? address).getD (byte ⟨stores⟩ address) := by
  unfold byte
  cases found : stored.byte? address <;> simp [found]

theorem fill_eq_store (memory : Memory) (start count : Nat) (value : UInt8) :
    memory.fill start count value = memory.store start (List.replicate count value) := by
  simp [fill, store]

@[simp] theorem length_load (memory : Memory) (address count : Nat) :
    (memory.load address count).length = count := by simp [load]

theorem getElem?_load (memory : Memory) {address count i : Nat} (inside : i < count) :
    (memory.load address count)[i]? = some (memory.byte (address + i)) := by
  simp [load, inside]

/-- Storing changes nothing outside the stored bytes. -/
theorem byte_store_of_outside (memory : Memory) {start address : Nat} {bytes : Bytes}
    (outside : address < start ∨ start + bytes.length ≤ address) :
    (memory.store start bytes).byte address = memory.byte address := by
  have missed : Stored.byte? ⟨start, bytes.toArray⟩ address = none := by
    unfold Stored.byte?
    split
    · rename_i behind
      have beyond : bytes.length ≤ address - start := by
        dsimp only at behind
        omega
      simp [beyond]
    · rfl
  rw [store, byte_cons, missed]
  rfl

/-- A stored byte is found where it was stored. -/
theorem byte_store_of_inside (memory : Memory) {start : Nat} {bytes : Bytes} {i : Nat}
    (inside : i < bytes.length) :
    (memory.store start bytes).byte (start + i) = bytes[i] := by
  simp [store, byte_cons, Stored.byte?, inside]

/-- Bytes that were stored are loaded again. -/
theorem load_store (memory : Memory) (start : Nat) (bytes : Bytes) :
    (memory.store start bytes).load start bytes.length = bytes := by
  apply List.ext_getElem
  · simp
  · intro i _ inside
    simpa [load] using byte_store_of_inside memory inside

end Memory

end CInterop
