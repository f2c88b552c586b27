/-!
# Failures

Every operation that can be refused says why by a value of `Failure`; `Failure.message` is the one
place where the wording is chosen. A failure names the operation that was refused and, for calls,
the function and the position of the argument, counted from one.

One failure is not returned to the caller: `overflow` ends the execution where the result of an
operation on machine words is none.
-/

namespace CInterop

/-- Why a name or type is refused. -/
inductive TypeFault where
  /-- Integers of 128 bits have no place in the tables. -/
  | tooWideInteger
  | unknownName
  | arrayOfVoid
  | arrayOverflow
  | voidValue
  | voidInstance
  /-- The named operation needs the size of what a pointer points at. -/
  | unsizedTarget (operation : String)
  | functionReturnsArray
  | callbackReturnsArray
  | voidArgument
  | irregularByValue
  | emptyByValue
  | unionByValue
  | unpassedWidth
  | malformedDeclaration
  deriving DecidableEq, Repr

/-- The wording of a refused type. -/
def TypeFault.reason : TypeFault → String
  | tooWideInteger => "128-bit integers are not representable on this ABI"
  | unknownName => "unknown type name"
  | arrayOfVoid => "arrays of void are not allowed"
  | arrayOverflow => "array size overflows the address space"
  | voidValue => "void has no value"
  | voidInstance => "void cannot be instantiated"
  | unsizedTarget operation => s!"{operation} through a pointer to an unsized type"
  | functionReturnsArray => "C functions cannot return arrays"
  | callbackReturnsArray => "callbacks cannot return arrays"
  | voidArgument => "void is only valid as a return type"
  | irregularByValue => "packed structs and structs containing unions cannot be passed by value"
  | emptyByValue => "empty structs cannot be passed by value"
  | unionByValue => "unions cannot be passed by value"
  | unpassedWidth => "no libffi type of this width"
  | malformedDeclaration => "invalid declaration"

/-- Why a field of a composite is refused, when it is declared or when it is looked up. -/
inductive FieldFault where
  | packing (limit : Nat)
  | voidField
  | notInteger (type : String)
  | tooWide (width bits : Nat) (type : String)
  | namedZeroWidth
  | duplicate
  | notComposite
  | noSuchMember
  deriving DecidableEq, Repr

/-- The wording of a refused field. -/
def FieldFault.reason : FieldFault → String
  | packing limit => s!"packing must be a power of two, got {limit}"
  | voidField => "fields cannot have type void"
  | notInteger type => s!"bit-fields require an integer type, got {type}"
  | tooWide width bits type => s!"bit width {width} exceeds the {bits} bits of {type}"
  | namedZeroWidth => "zero-width bit-fields must be unnamed"
  | duplicate => "duplicate member name"
  | notComposite => "type has no members"
  | noSuchMember => "no such member"

/-- Why a calling convention is refused. -/
inductive ConventionFault where
  | unavailable
  | unknown
  /-- The types describe another platform than the one calls are made on. -/
  | otherPlatform (model : String)
  deriving DecidableEq, Repr

/-- The wording of a refused convention. -/
def ConventionFault.reason : ConventionFault → String
  | unavailable => "stdcall is only available on Windows"
  | unknown => "expected \"default\" or \"stdcall\""
  | otherPlatform model => s!"the registry models {model}, not the running platform"

/-- Why a text cannot be handed to native memory. -/
inductive TextFault where
  /-- The text holds a zero byte at this position. -/
  | zeroByte (position : Nat)
  | zeroInInitializer
  deriving DecidableEq, Repr

/-- The wording of a refused text. -/
def TextFault.reason : TextFault → String
  | zeroByte position =>
    s!"string contains a NUL byte: nul byte found in provided data at position: {position}"
  | zeroInInitializer => "initializer contains a NUL byte"

/-- A refused operation. -/
inductive Failure where
  | unsupportedType (name : String) (fault : TypeFault)
  | invalidField (composite field : String) (fault : FieldFault)
  | outOfBounds (operation : String) (offset : Int) (length size : Nat)
  | nullDereference (operation target : String)
  | notAddressable (operation reason : String)
  | argumentType (function : String) (position : Nat) (expected found : String)
  | symbolNotFound (library symbol : String)
  | libraryNotFound (name : String)
  | libraryLoad (name : String)
  | unsupportedConvention (function convention : String) (fault : ConventionFault)
  | typeMismatch (operation expected found : String)
  | foreignAccessDenied (operation : String) (address : Nat)
  | invalidString (fault : TextFault)
  | callback (name reason : String)
  | errorHook (function reason : String)
  /-- A sum or product of words is no word. The execution ends there: nobody is told an error. -/
  | overflow (operation : String)
  deriving DecidableEq, Repr

namespace Failure

/-- A number in hexadecimal digits after `0x`. -/
def hexadecimal (n : Nat) : String := "0x" ++ String.ofList (Nat.toDigits 16 n)

/-- The wording of a failure. -/
def message : Failure → String
  | unsupportedType name fault => s!"unsupported type '{name}': {fault.reason}"
  | invalidField composite field fault =>
    s!"invalid field '{field}' in '{composite}': {fault.reason}"
  | outOfBounds operation offset length size =>
    s!"{operation}: {length} bytes at offset {offset} exceed a region of {size} bytes"
  | nullDereference operation target =>
    s!"{operation}: null pointer dereference (target type {target})"
  | notAddressable operation reason => s!"{operation}: value is not addressable: {reason}"
  | argumentType function position expected found =>
    s!"{function}: argument {position}: expected {expected}, got {found}"
  | symbolNotFound library symbol => s!"symbol '{symbol}' not found in library '{library}'"
  | libraryNotFound name => s!"library not found: {name}"
  | libraryLoad name => s!"failed to load library '{name}'"
  | unsupportedConvention function convention fault =>
    s!"{function}: calling convention '{convention}' is unsupported: {fault.reason}"
  | typeMismatch operation expected found => s!"{operation}: cannot store {found} into {expected}"
  | foreignAccessDenied operation address =>
    s!"{operation}: foreign address {hexadecimal address} requires the unsafe "
      ++ "foreign-access capability"
  | invalidString fault => s!"invalid string: {fault.reason}"
  | callback name reason => s!"callback '{name}' failed: {reason}"
  | errorHook function reason => s!"{function}: errcheck hook failed: {reason}"
  | overflow operation => s!"attempt to {operation} with overflow"

/-- A value or text that cannot be stored is reported as a fault of the argument that it was passed
for; other failures stay as they are. -/
def atArgument (function : String) (position : Nat) : Failure → Failure
  | typeMismatch _ expected found => argumentType function position expected found
  | invalidString fault =>
    argumentType function position "string without interior NUL" fault.reason
  | other => other

end Failure

end CInterop
