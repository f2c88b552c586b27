import CInterop.Layout
import CInterop.Spelling

/-!
# Registry of types

A registry knows the primitives of its platform and the composites that were defined through it.
`byName` resolves a name to a type; pointers and arrays of known types need no definition.
-/

namespace CInterop

/-- The types that can be named: the primitives of a platform, and defined composites, the latest
definition of a name first. -/
structure Registry where
  platform : Platform
  composites : List (String × CType)

namespace Registry

/-- A registry in which nothing is defined yet. -/
def ofPlatform (platform : Platform) : Registry := { platform, composites := [] }

/-- The registry of the host, before anything is defined. -/
def host : Registry := ofPlatform .host

/-- The type of a primitive. -/
def describe (registry : Registry) (primitive : Primitive) : Except Failure CType :=
  match primitive.type? registry.platform with
  | some type => pure type
  | none => throw (.unsupportedType primitive.canonicalName .tooWideInteger)

/-- The type of pointers to a type; a pointer to `void` points at anything. -/
def pointerTo (registry : Registry) (target : CType) : CType :=
  if target.isVoid then .pointer .untyped registry.platform.pointer
  else .pointer (.typed target) registry.platform.pointer

/-- The type of arrays of `count` elements. The size has to fit a word. -/
def array (element : CType) (count : Nat) : Except Failure CType :=
  if element.isVoid then throw (.unsupportedType "void" .arrayOfVoid)
  else if element.size * count < Word.modulus then pure (.array element count)
  else throw (.unsupportedType (CType.array element count).name .arrayOverflow)

/-- The type that a form stands for. -/
def resolve (registry : Registry) : TypeExpr → Except Failure CType
  | .primitive primitive => registry.describe primitive
  | .pointer target => do return registry.pointerTo (← registry.resolve target)
  | .array element count => do array (← registry.resolve element) count
  | .named written normal =>
    match registry.composites.lookup normal with
    | some type => pure type
    | none => throw (.unsupportedType written .unknownName)

/-- The type with this name. -/
def byName (registry : Registry) (name : String) : Except Failure CType :=
  registry.resolve (.ofString name)

/-- Defines a composite. It can be named afterwards, unless its name is empty. -/
def define (registry : Registry) (name : String) (kind : CompositeKind) (decls : List FieldDecl)
    (packing : Packing) : Except Failure (CType × Registry) := do
  let type := CType.composite (← Layout.compute name kind decls packing)
  if name.isEmpty then pure (type, registry)
  else pure (type, { registry with composites := (name, type) :: registry.composites })

/-- The text that describes a registry in a report. -/
def report (registry : Registry) : String :=
  s!"TypeRegistry \x7b platform: {registry.platform.report}, .. \x7d"

end Registry

end CInterop
