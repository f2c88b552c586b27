import CInterop.Call.Invoke
import CInterop.Library
import CInterop.Native.Arithmetic
import CInterop.Native.Calling

/-!
# The table of native functions

Every function has a symbol and an address, `Native.enter` runs what lies behind an address, and
`Native.call` performs a call. Such a call places the parts of a struct anew and carries as many
bytes as they take, which may be less than the size of the struct.
-/

namespace CInterop.Native

/-- The native functions by their symbols. -/
def table : List (String × Native) :=
  arithmetic ++ structs ++ texts ++ arrays ++ applying ++ exchanging

/-- The address of the first function. -/
def firstAddress : Nat := 0x200000000

/-- The name that the system takes from a text. One zero character may end it; with another one
inside, there is none. -/
def systemName? (text : String) : Option String :=
  let chars := match text.toList.reverse with
    | '\x00' :: rest => rest.reverse
    | _ => text.toList
  if chars.contains '\x00' then none else some (String.ofList chars)

/-- The address of a symbol. -/
def symbolAddress? (symbol : String) : Option UInt64 := do
  let name ← systemName? symbol
  let i ← table.findIdx? (·.1 == name)
  return .ofNat (firstAddress + 16 * i)

/-- The linker of a system where every library exports the native functions, and where they are also
found in a library by its name; the empty name is the running process. -/
def linker : Linker where
  fileName? := systemName?
  knows := ["", "liboracle_natives.so"].contains
  address? _ := symbolAddress?

/-- The function at an address. -/
def at? (address : UInt64) : Option Native :=
  let distance := address.toNat - firstAddress
  if firstAddress ≤ address.toNat && distance % 16 = 0 then table[distance / 16]?.map (·.2)
  else none

/-- Enters an address that was passed to a native function: a trampoline or a leaf. -/
def enterPassed : Enter := fun address args => do
  match (← get).trampoline? address with
  | some t => World.enterTrampoline t args
  | none =>
    match at? address with
    | some (.leaf run) => World.runHeap (run args)
    | _ => pure []

/-- Enters an address. -/
def enter : Enter := fun address args =>
  match at? address with
  | some (.caller run) => run enterPassed args
  | _ => enterPassed address args

/-- What a call carries over of the bytes of an argument. -/
def carried (type : CType) (bytes : Bytes) : Bytes :=
  match type.passed with
  | .ok (.struct parts) => bytes.take (Passed.struct parts).extent.1
  | _ => bytes

/-- What a call carries over of the bytes of its arguments. What stands behind the declared
arguments is no struct. -/
def carriedArgs : List CType → List Bytes → List Bytes
  | type :: types, bytes :: rest => carried type bytes :: carriedArgs types rest
  | _, rest => rest

/-- The largest struct that a function returns in registers. -/
def registersSize : Nat := 16

/-- What a call carries over of the bytes of a result. The function itself stores structs that are
too large for registers. -/
def received (type : CType) (bytes : Bytes) : Bytes :=
  match type.passed with
  | .ok (.struct parts) =>
    let size := (Passed.struct parts).extent.1
    if size ≤ registersSize then bytes.take size else bytes
  | _ => bytes

/-- Performs a call. -/
def call : RawCall := fun signature address slots => do
  return received signature.returns (← enter address (carriedArgs signature.args slots))

end CInterop.Native
