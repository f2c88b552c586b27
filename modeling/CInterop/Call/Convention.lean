import CInterop.Failure
import CInterop.Text.Blank

/-!
# Calling conventions

Only the default convention can be called on the host; `stdcall` can be declared.
-/

namespace CInterop

/-- How a function takes its arguments. -/
inductive Convention where
  | standard
  | stdcall
  deriving DecidableEq, Repr

namespace Convention

/-- The name of a convention. -/
def name : Convention → String
  | standard => "default"
  | stdcall => "stdcall"

/-- The name of a convention in a report. -/
def report : Convention → String
  | standard => "Default"
  | stdcall => "Stdcall"

/-- The spellings of the conventions. -/
def spellings : List (String × Convention) :=
  [("default", standard), ("cdecl", standard), ("stdcall", stdcall)]

/-- The convention of a name; case and surrounding white space do not matter. -/
def ofName (text : String) : Except Failure Convention :=
  let name := String.ofList ((Text.trim text.toList).map Char.toLower)
  match spellings.lookup name with
  | some convention => pure convention
  | none => throw (.unsupportedConvention "<declaration>" name .unknown)

/-- Refuses a convention that does not exist on the host. -/
def check (function : String) : Convention → Except Failure Unit
  | standard => pure ()
  | stdcall => throw (.unsupportedConvention function stdcall.name .unavailable)

end Convention

end CInterop
