import CInterop.Call.Frame
import CInterop.Value.Text

/-!
# Callbacks

A `Trampoline` is an entry point behind which a host function stands. Native code that enters it
gets the encoding of what the host function gives. If the host function fails, in whatever way, the
native caller gets zeros; the failure is reported to the error handler, if there is one, and is kept
as the last error of the trampoline.
-/

namespace CInterop

/-- How a host function ends. A panic may carry no message. -/
inductive Reply where
  | value (value : Value)
  | failed (reason : String)
  | panicked (message : Option String)

/-- A function of the host: it sees its arguments and may work on the heap. -/
abbrev HostFunction := List Value → StateM Heap Reply

/-- How an error handler ends. -/
inductive HandlerEnd where
  | returned
  | panicked
  deriving DecidableEq, Repr

/-- A function that is told about failures. -/
abbrev ErrorHandler := Failure → HandlerEnd

/-- A call of a host function: its arguments, and the heap that they were seen in. -/
structure Call where
  args : List Value
  heap : Heap

/-- An entry point for native code behind which a host function stands. -/
structure Trampoline where
  name : String
  code : UInt64
  args : List CType
  returns : CType
  /-- Whether memory may be read through the pointers that native code passes. -/
  foreignReads : Bool
  host : HostFunction
  handler : Option ErrorHandler := none
  lastError : Option Failure := none
  /-- The blocks that keep alive what returned values refer to. -/
  held : List Block := []
  /-- The calls of the host function, in order. -/
  calls : List Call := []
  /-- The failures that a handler was told about, in order, and how the handler ended. -/
  reported : List (Failure × HandlerEnd) := []

namespace Trampoline

/-- Checks the types of a callback before it is created. -/
def check (name : String) (args : List CType) (returns : CType) (convention : Convention) :
    Except Failure Unit := do
  if returns.element?.isSome then
    throw (.unsupportedType returns.name .callbackReturnsArray)
  Signature.check name args returns convention

/-- The entry point as a pointer. -/
def pointer (t : Trampoline) : Pointer := .foreign .void t.code

/-- The text of a trampoline in a report. -/
def report (t : Trampoline) : String :=
  s!"Trampoline \x7b name: {Text.Quoted.quote t.name}, "
    ++ s!"code: {Failure.hexadecimal t.code.toNat} \x7d"

/-- Installs an error handler in place of any other. -/
def handleWith (t : Trampoline) (handler : ErrorHandler) : Trampoline :=
  { t with handler := some handler }

/-- Forgets the last error. -/
def forgetError (t : Trampoline) : Trampoline := { t with lastError := none }

/-- Forgets the calls and the reports so far. -/
def forgetHistory (t : Trampoline) : Trampoline := { t with calls := [], reported := [] }

/-- The values of the arguments that native code passes. -/
def decodeArgs (foreignReads : Bool) : List CType → List Bytes → HeapM (List Value)
  | type :: types, bytes :: rest => do
    let value ← Value.decode type bytes
    let values ← decodeArgs foreignReads types rest
    pure (value.grantedIf foreignReads :: values)
  | _, _ => pure []

/-- What native code finds in the slot of the result, and a block that has to be held for it.
Narrow integers and truth values are widened to a word. -/
def encodeResult (type : CType) (value : Value) : HeapM (Bytes × Option Block) := do
  let narrow := type.isIntegral && type.size < Frame.slotSize
  if type.isVoid then pure ([], none)
  else if narrow then
    let width := 8 * type.size
    let bits := (← liftM (value.integerBits (← get) type)) &&& Bits.mask width
    let widened := if type.isSigned then (Bits.signExtend bits width).toUInt64 else bits
    pure (Bytes.ofWord 8 widened, none)
  else
    -- A block of its own keeps alive what the result refers to.
    let staging ← Heap.allocate type.size
    staging.view.write type 0 value
    let heap ← get
    let bytes := heap.memory.load staging.base type.size
    pure (bytes, if (heap.keptBy staging).isEmpty then none else some staging)

/-- The failure that a panic of the host function is reported as. -/
def panicFailure (name : String) (message : Option String) : Failure :=
  .callback name ("panicked: " ++ message.getD "non-string panic payload")

/-- What a failure is reported as. An overflow unwinds as a panic does, and is caught like one. -/
def caught (name : String) : Failure → Failure
  | .overflow operation => panicFailure name (some (Failure.overflow operation).message)
  | failure => failure

/-- Runs the host function on the arguments that native code passes, and encodes its result. -/
def dispatch (t : Trampoline) (frame : List Bytes) (heap : Heap) :
    Except Failure (Bytes × Option Block) × List Call × Heap :=
  match decodeArgs t.foreignReads t.args frame heap with
  | (.error failure, heap) => (.error (caught t.name failure), [], heap)
  | (.ok args, heap) =>
    let call : Call := { args, heap }
    match t.host args heap with
    | (.failed reason, heap) => (.error (.callback t.name reason), [call], heap)
    | (.panicked message, heap) => (.error (panicFailure t.name message), [call], heap)
    | (.value value, heap) =>
      let (result, heap) := encodeResult t.returns value heap
      (result.mapError (caught t.name), [call], heap)

/-- The number of bytes in which native code finds the result. Narrow integers and truth values take
a word. -/
def slotSize (t : Trampoline) : Nat :=
  if t.returns.isVoid then 0
  else if t.returns.isIntegral then max t.returns.size Frame.slotSize
  else t.returns.size

/-- Tells the handler about a failure and keeps it as the last error. -/
def recordFailure (t : Trampoline) (failure : Failure) : Trampoline :=
  { t with
    lastError := some failure
    reported := match t.handler with
      | none => t.reported
      | some handler => t.reported ++ [(failure, handler failure)] }

/-- What native code gets when it enters the trampoline. -/
def enter (t : Trampoline) (frame : List Bytes) (heap : Heap) : Bytes × Trampoline × Heap :=
  let (result, calls, heap) := t.dispatch frame heap
  let t := { t with calls := t.calls ++ calls }
  match result with
  | .ok (bytes, held) => (bytes, { t with held := t.held ++ held.toList }, heap)
  | .error failure =>
    (Bytes.zeros t.slotSize, t.recordFailure failure, heap)

end Trampoline

end CInterop
