import CInterop.Config.Settings
import CInterop.Config.Toml

/-!
# Settings from a document

A decoder for settings that are written in TOML (`Settings.ofToml?`). The tables of a configuration
have fixed entries, and others are refused. A table of fixed entries may also be written as an array
of their values in order, and a name that is one of several may be written as the one key of a table
that is empty.
-/

namespace CInterop

namespace Toml

/-- The values of an array, whichever way it is written. -/
def elements? : Toml → Option (List Toml)
  | array items => some items
  | tables elements => some (elements.reverse.map (.table .header))
  | _ => none

def text? : Toml → Option String
  | text s => some s
  | _ => none

def boolean? : Toml → Option Bool
  | boolean b => some b
  | _ => none

/-- An integer that is not negative. -/
def natural? : Toml → Option Nat
  | integer (.ofNat n) => some n
  | _ => none

/-- An array of texts. -/
def texts? (value : Toml) : Option (List String) := do (← value.elements?).mapM text?

/-- Whether a value has nothing inside. -/
def isEmpty : Toml → Bool
  | array [] | table _ [] | tables [] => true
  | _ => false

/-- One of several names. -/
def name? : Toml → Option String
  | text s => some s
  | table _ [(name, value)] => if value.isEmpty then some name else none
  | _ => none

/-- The values of the fixed entries of a table, `none` for those that are not set. -/
def fixedEntries? (names : List String) : Toml → Option (List (Option Toml))
  | table _ entries => do
    guard (entries.all fun (name, _) => names.contains name)
    return names.map fun name => entries.lookup name
  | value => do
    let items ← value.elements?
    return names.zipIdx.map fun (_, i) => items[i]?

/-- Whether a value is written as an array. -/
def isListed (value : Toml) : Bool := value.elements?.isSome

end Toml

/-- An entry that may be missing. -/
def optionalEntry {α : Type} (read : Toml → Option α) : Option Toml → Option (Option α)
  | none => some none
  | some value => (read value).map some

/-- An entry that has a value when it is missing. -/
def entryOr {α : Type} (missing : α) (read : Toml → Option α) : Option Toml → Option α
  | none => some missing
  | some value => read value

/-- An entry that may be missing in a table, but not in an array. -/
def tableEntry {α : Type} (listed : Bool) (read : Toml → Option α) (entry : Option Toml) :
    Option (Option α) := do
  guard (!listed || entry.isSome)
  optionalEntry read entry

/-- Platform settings. -/
def PlatformSettings.ofToml? (value : Toml) : Option PlatformSettings := do
  match ← value.fixedEntries? ["data_model", "wchar_size"] with
  | [model, wcharSize] =>
    let readModel (value : Toml) := value.name?.bind fun name => ModelName.spellings.lookup name
    return {
      model := ← tableEntry value.isListed readModel model
      wcharSize := ← tableEntry value.isListed Toml.natural? wcharSize }
  | _ => none

/-- Library settings. -/
def LibrarySettings.ofToml? (value : Toml) : Option LibrarySettings := do
  match ← value.fixedEntries? ["search_paths"] with
  | [searchPaths] => return { searchPaths := ← entryOr [] Toml.texts? searchPaths }
  | _ => none

/-- Memory settings. -/
def MemorySettings.ofToml? (value : Toml) : Option MemorySettings := do
  match ← value.fixedEntries? ["allow_foreign_reads"] with
  | [allow] => return { allowForeignReads := ← tableEntry value.isListed Toml.boolean? allow }
  | _ => none

/-- A declared function. -/
def FunctionSettings.ofToml? (value : Toml) : Option FunctionSettings := do
  let names := ["library", "symbol", "args", "returns", "convention", "variadic"]
  match ← value.fixedEntries? names with
  | [library, symbol, args, returns, convention, variadic] =>
    let readConvention (value : Toml) :=
      value.name?.bind fun name => Convention.spellings.lookup name
    return {
      library := ← tableEntry value.isListed Toml.text? library
      symbol := ← tableEntry value.isListed Toml.text? symbol
      args := ← entryOr [] Toml.texts? args
      returns := ← tableEntry value.isListed Toml.text? returns
      convention := ← entryOr .standard readConvention convention
      variadic := ← entryOr false Toml.boolean? variadic }
  | _ => none

namespace Settings

/-- The declared functions, in the order of their names. -/
def functionsOfToml? : Toml → Option (List (String × FunctionSettings))
  | .table _ entries =>
    entries.foldlM (fun functions (name, value) => do
      return insertFunction name (← FunctionSettings.ofToml? value) functions) []
  | _ => none

/-- The settings in a document. -/
def ofDocument? (entries : Toml.Entries) : Option Settings := do
  let names := ["platform", "library", "memory", "functions"]
  match ← (Toml.table .header entries).fixedEntries? names with
  | [platform, library, memory, functions] =>
    return {
      platform := ← optionalEntry PlatformSettings.ofToml? platform
      library := ← optionalEntry LibrarySettings.ofToml? library
      memory := ← optionalEntry MemorySettings.ofToml? memory
      functions := ← entryOr [] functionsOfToml? functions }
  | _ => none

/-- The settings in a TOML text. -/
def ofToml? : Decoder := fun text => (Toml.parse text).bind ofDocument?

end Settings

end CInterop
