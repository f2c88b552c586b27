import CInterop.Call.Signature
import CInterop.Json

/-!
# Declarations in JSON

A declaration is an object with the entries `argTypes` (or `args`), `returnType` (or `returns`),
`convention` and `variadic`, each at most once and each of them optional, and no others. It may also
be the list of the four values in this order, of which the last ones may be missing.
-/

namespace CInterop.Declaration

/-- A text. -/
def textOf : Json → Option String
  | .text s => some s
  | _ => none

/-- A list of texts. -/
def textsOf : Json → Option (List String)
  | .list items => items.mapM textOf
  | _ => none

/-- A convention: its name, or an object with the name as its one key and nothing under it. -/
def conventionOf : Json → Option Convention
  | .text name => Convention.spellings.lookup name
  | .object [(name, .null)] => Convention.spellings.lookup name
  | _ => none

/-- A truth value. -/
def boolOf : Json → Option Bool
  | .bool b => some b
  | _ => none

/-- The entries of a declaration. -/
inductive Entry where
  | args
  | returns
  | convention
  | variadic
  deriving DecidableEq, Repr

/-- The names of the entries. -/
def entryNames : List (String × Entry) :=
  [("argTypes", .args), ("args", .args), ("returnType", .returns), ("returns", .returns),
    ("convention", .convention), ("variadic", .variadic)]

/-- A declaration with one entry set. -/
def withEntry (declaration : Declaration) (entry : Entry) (value : Json) : Option Declaration :=
  match entry with
  | .args => (textsOf value).map fun args => { declaration with args }
  | .returns => (textOf value).map fun returns => { declaration with returns }
  | .convention => (conventionOf value).map fun convention => { declaration with convention }
  | .variadic => (boolOf value).map fun variadic => { declaration with variadic }

/-- Sets entries that were not set before. -/
def setAll (declaration : Declaration) (seen : List Entry) :
    List (Entry × Json) → Option Declaration
  | [] => some declaration
  | (entry, value) :: rest => do
    guard (!seen.contains entry)
    setAll (← declaration.withEntry entry value) (entry :: seen) rest

/-- The declaration that a JSON value stands for. -/
def ofValue? : Json → Option Declaration
  | .object entries => do
    let named ← entries.mapM fun (name, value) => do return (← entryNames.lookup name, value)
    setAll {} [] named
  | .list items => do
    guard (items.length ≤ 4)
    setAll {} [] ([.args, .returns, .convention, .variadic].zip items)
  | _ => none

/-- The declaration that a JSON text stands for. -/
def ofJson? (text : String) : Option Declaration := (Json.parse text).bind ofValue?

end CInterop.Declaration
