import CInterop.Call.Signature
import CInterop.Text.Blank

/-!
# Settings

What a configuration can say: the platform, where libraries are searched, whether foreign memory
may be read, and which functions are declared. `Settings.merge` lays one configuration over another.
-/

namespace CInterop

/-- The data models that a configuration can name; `native` stands for that of the host. -/
inductive ModelName where
  | native
  | fixed (model : DataModel)
  deriving DecidableEq, Repr

namespace ModelName

/-- The names of the data models. -/
def spellings : List (String × ModelName) :=
  [("native", native), ("lp64", fixed .lp64), ("llp64", fixed .llp64), ("ilp32", fixed .ilp32)]

/-- The name of a data model in a configuration. -/
def name : ModelName → String
  | native => "native"
  | fixed .lp64 => "lp64"
  | fixed .llp64 => "llp64"
  | fixed .ilp32 => "ilp32"

/-- The name of a data model in reports. -/
def report : ModelName → String
  | native => "Native"
  | fixed model => model.name

/-- The data model, if one is fixed. -/
def model? : ModelName → Option DataModel
  | native => none
  | fixed model => some model

end ModelName

/-- What is said about the platform. -/
structure PlatformSettings where
  model : Option ModelName := none
  wcharSize : Option Nat := none
  deriving DecidableEq, Repr

/-- What is said about libraries. -/
structure LibrarySettings where
  searchPaths : List String := []
  deriving DecidableEq, Repr

/-- What is said about foreign memory. -/
structure MemorySettings where
  allowForeignReads : Option Bool := none
  deriving DecidableEq, Repr

/-- A declared function. Without a symbol of its own, its name is the symbol. -/
structure FunctionSettings where
  library : Option String := none
  symbol : Option String := none
  args : List String := []
  returns : Option String := none
  convention : Convention := .standard
  variadic : Bool := false
  deriving DecidableEq, Repr

namespace FunctionSettings

/-- The symbol of a function of some name. -/
def symbolName (function : FunctionSettings) (name : String) : String := function.symbol.getD name

/-- The name of the type that a function returns. -/
def returnType (function : FunctionSettings) : String := function.returns.getD "void"

/-- The declaration of a function. -/
def declaration (function : FunctionSettings) : Declaration :=
  { args := function.args, returns := function.returnType, convention := function.convention,
    variadic := function.variadic }

end FunctionSettings

/-- Why a configuration is refused. -/
inductive ConfigFailure where
  /-- The document cannot be read, or holds what a configuration cannot say. -/
  | malformed
  | unreadable
  | notFound (path : String)
  | invalid (reason : String)
  | invalidValue (field reason : String)
  deriving DecidableEq, Repr

/-- The wording of a refused configuration. -/
def ConfigFailure.message : ConfigFailure → String
  | malformed => "Invalid TOML syntax"
  | unreadable => "Failed to read configuration file"
  | notFound path => s!"Configuration file not found: {path}"
  | invalid reason => s!"Invalid configuration: {reason}"
  | invalidValue field reason => s!"Invalid value for '{field}': {reason}"

/-- A configuration. The functions are in the order of their names, each name once. -/
structure Settings where
  platform : Option PlatformSettings := none
  library : Option LibrarySettings := none
  memory : Option MemorySettings := none
  functions : List (String × FunctionSettings) := []
  deriving DecidableEq, Repr

namespace Settings

/-- The data model. -/
def model (settings : Settings) : ModelName := (settings.platform.bind (·.model)).getD .native

/-- The size of wide characters, if one is set. -/
def wcharSize (settings : Settings) : Option Nat := settings.platform.bind (·.wcharSize)

/-- The directories that are searched first, the first one first. -/
def searchPaths (settings : Settings) : List String :=
  (settings.library.map (·.searchPaths)).getD []

/-- Whether memory may be read through the pointers that calls return. -/
def allowForeignReads (settings : Settings) : Bool :=
  (settings.memory.bind (·.allowForeignReads)).getD false

/-- The platform that a configuration describes. -/
def describedPlatform (settings : Settings) : Except Failure Platform :=
  Platform.configured settings.model.model? settings.wcharSize

/-! ## Validity -/

/-- Refuses types of a function that have no name. -/
def checkFunction (name : String) (function : FunctionSettings) : Except ConfigFailure Unit := do
  if name.isEmpty then throw (.invalid "function declarations need a non-empty name")
  match function.args.findIdx? Text.isBlankText with
  | some position =>
    throw (.invalidValue s!"functions.{name}.args[{position}]" "type name is empty")
  | none => pure ()
  if Text.isBlankText function.returnType then
    throw (.invalidValue s!"functions.{name}.returns" "type name is empty")

/-- Refuses values that make no sense. -/
def validate (settings : Settings) : Except ConfigFailure Unit := do
  match settings.wcharSize with
  | some size =>
    unless size = 2 || size = 4 do
      throw (.invalidValue "platform.wchar_size" s!"must be 2 or 4, got {size}")
  | none => pure ()
  for (name, function) in settings.functions do
    checkFunction name function

end Settings

/-- A reader of the format that configurations are written in: the settings that a text stands for,
if it is well-formed. -/
abbrev Decoder := String → Option Settings

namespace Settings

/-- The settings in a text, which have to be valid. -/
def ofText (decode : Decoder) (text : String) : Except ConfigFailure Settings := do
  match decode text with
  | none => throw .malformed
  | some settings =>
    settings.validate
    pure settings

/-! ## Merging -/

/-- Puts a function where the order of names wants it; one of the same name is replaced. -/
def insertFunction (name : String) (function : FunctionSettings) :
    List (String × FunctionSettings) → List (String × FunctionSettings)
  | [] => [(name, function)]
  | (other, old) :: rest =>
    if name < other then (name, function) :: (other, old) :: rest
    else if name = other then (name, function) :: rest
    else (other, old) :: insertFunction name function rest

/-- The platform settings with others laid over them. -/
def mergePlatform (below above : Option PlatformSettings) : Option PlatformSettings :=
  match above with
  | none => below
  | some above =>
    let below := below.getD {}
    some
      { model := above.model <|> below.model
        wcharSize := above.wcharSize <|> below.wcharSize }

/-- The library settings with others laid over them: their paths come first. -/
def mergeLibrary (below above : Option LibrarySettings) : Option LibrarySettings :=
  match above with
  | none => below
  | some above => some { searchPaths := above.searchPaths ++ (below.getD {}).searchPaths }

/-- The memory settings with others laid over them. -/
def mergeMemory (below above : Option MemorySettings) : Option MemorySettings :=
  match above.bind (·.allowForeignReads) with
  | none => below
  | some allow => some { allowForeignReads := some allow }

/-- A configuration with another laid over it: what the other one sets counts, its search paths come
first, and its functions replace those of the same name. -/
def merge (below above : Settings) : Settings :=
  { platform := mergePlatform below.platform above.platform
    library := mergeLibrary below.library above.library
    memory := mergeMemory below.memory above.memory
    functions := above.functions.foldl
      (fun functions (name, function) => insertFunction name function functions)
      below.functions }

end Settings

end CInterop
