import CInterop.Native.Text

/-!
# Native functions that call back

The first argument is the address of a function, or the last one for the sorting function. Sorting
is by merging, and equal elements keep their order.
-/

namespace CInterop.Native

/-- Applies the function in the first argument to the second. -/
def apply (size : Nat) : Native := caller fun enter args => do
  return (← enter (word args 0) [bytes args 1]).take size

/-- The address of a local variable. -/
def scratch : UInt64 := staticAddress 8

/-- The length of the text at an address, -1 if there is none. -/
def lengthOr (address : UInt64) (length : Nat) : Bytes :=
  result64 (if address = 0 then -1 else .ofNat length)

/-- Folds the function over integers in memory. -/
def fold (enter : Enter) (f : UInt64) (address : Nat) : Nat → Nat → Int64 → StateM World Int64
  | 0, _, accumulator => pure accumulator
  | count + 1, i, accumulator => do
    let item := signedOf 32 ((← get).heap.memory.loadWord (address + 4 * i) 4)
    let result ← enter f [result64 accumulator.toUInt64, result64 item.toUInt64]
    fold enter f address count (i + 1) (signedOf 32 (part result 0 4))

/-! ## Sorting -/

/-- Merges `left` elements at one address and `right` elements at another. The result is the bytes
of the merged elements; elements that are left over on the right stay where they are. -/
def merge (compare : Nat → Nat → StateM World Int64) (size : Nat) :
    (left right a b : Nat) → StateM World Bytes
  | 0, _, _, _ => pure []
  | left + 1, 0, a, _ => do return (← get).heap.memory.load a ((left + 1) * size)
  | left + 1, right + 1, a, b => do
    if (← compare a b) ≤ 0 then
      let element := (← get).heap.memory.load a size
      return element ++ (← merge compare size left (right + 1) (a + size) b)
    else
      let element := (← get).heap.memory.load b size
      return element ++ (← merge compare size (left + 1) right a (b + size))
termination_by left right => left + right

/-- Sorts elements at an address. -/
def sort (compare : Nat → Nat → StateM World Int64) (size : Nat) (count base : Nat) :
    StateM World Unit := do
  -- The first half takes the smaller part of an odd count.
  if _large : 1 < count then
    let left := count / 2
    let middle := base + left * size
    sort compare size left base
    sort compare size (count - left) middle
    let merged ← merge compare size left (count - left) base middle
    World.runHeap (onMemory (·.store base merged))
termination_by count

/-- Sorts an array with the comparison at an address. -/
def sortArray : Native := caller fun enter args => do
  let compare (a b : Nat) : StateM World Int64 := do
    let order ← enter (word args 3) [result64 (.ofNat a), result64 (.ofNat b)]
    return signedOf 32 (part order 0 4)
  sort compare (count args 2) (count args 1) (word args 0).toNat
  return []

/-! ## The table -/

/-- Functions that apply the function they are given. -/
def applying : List (String × Native) :=
  [("n_apply_i8", apply 1), ("n_apply_u8", apply 1), ("n_apply_i16", apply 2),
    ("n_apply_u16", apply 2), ("n_apply_i32", apply 4), ("n_apply_u32", apply 4),
    ("n_apply_i64", apply 8), ("n_apply_u64", apply 8), ("n_apply_f32", apply 4),
    ("n_apply_f64", apply 8), ("n_apply_bool", apply 1),
    ("n_twice", caller fun enter args => do
      let once ← enter (word args 0) [bytes args 1]
      return (← enter (word args 0) [Bytes.padded 8 (once.take 4)]).take 4),
    ("n_call_void", caller fun enter args => do
      let _ ← enter (word args 0) [bytes args 1]
      return []),
    ("n_cb_two", caller fun enter args => do
      return (← enter (word args 0) [bytes args 1, bytes args 2]).take 8)]

/-- Functions that exchange text, structs and addresses with the function they are given. -/
def exchanging : List (String × Native) :=
  [("n_cb_str", caller fun enter args => do
      return (← enter (word args 0) [bytes args 1]).take 4),
    ("n_cb_wstr", caller fun enter args => do
      let text ← World.runHeap (static 5 ([0x77, 0xE9, 0].flatMap (Text.Wide.unitBytes 4)))
      let address := if int32 args 1 = 0 then text else 0
      return (← enter (word args 0) [result64 address]).take 4),
    ("n_cb_strlen", caller fun enter args => do
      let address := part (← enter (word args 0) []) 0 8
      return lengthOr address ((← get).heap.textAt address).length),
    ("n_cb_wlen", caller fun enter args => do
      let address := part (← enter (word args 0) []) 0 8
      return lengthOr address (wideLength (← get).heap address)),
    ("n_cb_pt", caller fun enter args => do
      let point := result32 (word args 1) ++ result32 (word args 2)
      return (← enter (word args 0) [point]).take 4),
    ("n_cb_mkpt", caller fun enter args => do
      let point ← enter (word args 0) []
      return result32 (part point 0 4 * 1000 + part point 4 4)),
    ("n_cb_big", caller fun enter args => do
      let triple := result64 (word args 1) ++ result64 (word args 2) ++ result64 (word args 3)
      return (← enter (word args 0) [triple]).take 24),
    ("n_cb_fill", caller fun enter args => do
      World.runHeap (onMemory (·.store scratch.toNat (result32 0)))
      let _ ← enter (word args 0) [result64 scratch, bytes args 1]
      return (← get).heap.memory.load scratch.toNat 4),
    ("n_cb_ptr", caller fun enter args => do
      let address := part (← enter (word args 0) []) 0 8
      let item := (← get).heap.memory.load address.toNat 4
      return if address = 0 then resultInt (-1) else item),
    ("n_fold", caller fun enter args => do
      let total ← fold enter (word args 0) (word args 1).toNat (count args 2) 0 (int32 args 3)
      return resultInt total),
    ("qsort", sortArray)]

end CInterop.Native
