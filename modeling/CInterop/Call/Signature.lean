import CInterop.Call.Convention
import CInterop.Registry

/-!
# Signatures

A `Signature` is what has to be known to call a function. A `Declaration` says the same by the names
of the types, and becomes a signature when a registry resolves them; the format that declarations
are written in is up to a decoder.
-/

namespace CInterop

/-- The types of a function. A variadic function takes more arguments behind those that it
declares. -/
structure Signature where
  args : List CType
  returns : CType
  convention : Convention
  variadic : Bool

/-- The text of a signature in a report. -/
def Signature.report (signature : Signature) : String :=
  let args := String.intercalate ", " (signature.args.map CType.report)
  s!"Signature \x7b args: [{args}], returns: {signature.returns.report}, "
    ++ s!"convention: {signature.convention.report}, variadic: {signature.variadic} \x7d"

/-- A signature by names of types. -/
structure Declaration where
  args : List String := []
  returns : String := "void"
  convention : Convention := .standard
  variadic : Bool := false
  deriving DecidableEq, Repr

namespace Declaration

/-- The declaration in a text, by a decoder that gives the one that a well-formed text stands
for. -/
def ofText (decode : String → Option Declaration) (text : String) : Except Failure Declaration :=
  match decode text with
  | some declaration => pure declaration
  | none => throw (.unsupportedType "signature" .malformedDeclaration)

/-- The signature that a declaration stands for. -/
def resolve (registry : Registry) (declaration : Declaration) : Except Failure Signature := do
  let args ← declaration.args.mapM registry.byName
  let returns ← registry.byName declaration.returns
  pure { args, returns, convention := declaration.convention, variadic := declaration.variadic }

end Declaration

end CInterop
