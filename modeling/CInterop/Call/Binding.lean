import CInterop.Call.Frame
import CInterop.Value.Text

/-!
# Bindings

A `Binding` is an entry point with its signature and at most one hook. `Binding.marshal` writes the
arguments of a call to a frame; `Binding.checkResult` gives the hook the last word on the result.
-/

namespace CInterop

/-- A function at an address. -/
structure EntryPoint where
  name : String
  library : Option String
  address : UInt64
  signature : Signature
  /-- Whether memory may be read through the pointers that the function returns. -/
  foreignReads : Bool := false

namespace EntryPoint

/-- The address as a pointer. -/
def pointer (entry : EntryPoint) : Pointer := .foreign .void entry.address

/-- Binds an address. Types that cannot be passed are refused, and so is the address 0. -/
def prepare (name : String) (library : Option String) (address : UInt64) (signature : Signature) :
    Except Failure EntryPoint := do
  if address = 0 then throw (.symbolNotFound (library.getD "<address>") name)
  if signature.returns.element?.isSome then
    throw (.unsupportedType signature.returns.name .functionReturnsArray)
  Signature.check name signature.args signature.returns signature.convention
  pure { name, library, address, signature }

end EntryPoint

/-! ## Hooks -/

/-- A hook sees the result of a call, the function and the arguments. It gives the result that
counts, or the text of an error. -/
abbrev Hook := Value → EntryPoint → List Value → Except String Value

namespace Hook

/-- The second hook sees what the first one gives. -/
def chain (first second : Hook) : Hook := fun result entry args => do
  second (← first result entry args) entry args

/-- Fails if the result is a negative integer. -/
def failOnNegative : Hook := fun result entry _ =>
  match result.toInt? with
  | some code => if code < 0 then throw s!"{entry.name} returned {code.toInt}" else pure result
  | none => pure result

/-- Fails if the result is a pointer or a text that is not there. -/
def failOnNull : Hook := fun result entry _ =>
  let isNull := match result with
    | .null => true
    | .pointer p => p.isNull
    | _ => false
  if isNull then throw s!"{entry.name} returned NULL" else pure result

/-- Gives the number of arguments. -/
def countArguments : Hook := fun _ _ args => pure (.int (.ofNat args.length))

/-- Gives the first argument. -/
def firstArgument : Hook := fun _ _ args => pure (args.head?.getD .null)

/-- Gives the name of the function. -/
def functionName : Hook := fun _ entry _ => pure (.text entry.name)

/-- Adds to the result. -/
def add (k : Int64) : Hook := fun result _ _ => pure (.int (result.toIntOrZero + k))

/-- Fails with a text. -/
def fail (reason : String) : Hook := fun _ _ _ => throw reason

/-- Gives a fixed value. -/
def constant (value : Value) : Hook := fun _ _ _ => pure value

end Hook

/-- An entry point with at most one hook. -/
structure Binding extends EntryPoint where
  hook : Option Hook := none

namespace Binding

/-- The name of the state that a binding is in. -/
def hookState (binding : Binding) : String :=
  if binding.hook.isSome then "HookAttached" else "NoHook"

/-- Attaches a hook in place of any other. -/
def attach (binding : Binding) (hook : Hook) : Binding := { binding with hook := some hook }

/-- Takes the hook away. -/
def detach (binding : Binding) : Binding := { binding with hook := none }

/-- Allows to read memory through the pointers that the function returns. -/
def allowForeignReads (binding : Binding) : Binding := { binding with foreignReads := true }

/-- The text of a binding in a report. -/
def report (binding : Binding) : String :=
  let library := match binding.library with
    | none => "None"
    | some library => s!"Some({Text.Quoted.quote library})"
  s!"CallableBinding \x7b name: {Text.Quoted.quote binding.name}, library: {library}, "
    ++ s!"address: {Failure.hexadecimal binding.address.toNat}, "
    ++ s!"signature: {binding.signature.report}, "
    ++ s!"errcheck: ErrCheckSlot \x7b state: {binding.hookState} \x7d \x7d"

/-- Refuses a call with too few arguments, or with too many for a function that is not variadic. -/
def checkArity (binding : Binding) (args : List Value) : Except Failure Unit :=
  let types := binding.signature.args
  match types[args.length]?, args[types.length]? with
  | some missing, _ =>
    throw (.argumentType binding.name (args.length + 1) missing.name "missing argument")
  | none, some extra =>
    if binding.signature.variadic then pure ()
    else
      throw (.argumentType binding.name (types.length + 1) s!"at most {types.length} arguments"
        extra.kindName)
  | none, none => pure ()

/-- Writes the declared arguments to a frame. -/
def pushDeclared (function : String) (position : Nat) (frame : Frame) :
    List CType → List Value → HeapM Frame
  | type :: types, value :: values => do
    let frame ← frame.push function position type value
    pushDeclared function (position + 1) frame types values
  | _, _ => pure frame

/-- Writes the arguments behind the declared ones to a frame. -/
def pushVariadic (function : String) (position : Nat) (frame : Frame) :
    List Value → HeapM Frame
  | [] => pure frame
  | value :: values => do
    match value.inferred? .host with
    | none =>
      throw (.argumentType function position "a number, string or pointer" value.kindName)
    | some type =>
      let type ← liftM (type.promoted .host)
      let frame ← frame.push function position type value
      pushVariadic function (position + 1) frame values

/-- Writes all arguments to a frame. -/
def marshal (binding : Binding) (args : List Value) : HeapM Frame := do
  liftM (binding.checkArity args)
  let types := binding.signature.args
  let frame ← pushDeclared binding.name 1 [] types args
  pushVariadic binding.name (types.length + 1) frame (args.drop types.length)

/-- Runs the hook on the result of a call. -/
def checkResult (binding : Binding) (result : Value) (args : List Value) : Except Failure Value :=
  match binding.hook with
  | none => pure result
  | some hook =>
    match hook result binding.toEntryPoint args with
    | .ok value => pure value
    | .error reason => throw (.errorHook binding.name reason)

end Binding

end CInterop
