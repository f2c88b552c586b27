import CInterop.Config.Settings
import CInterop.FileTree
import CInterop.Text.Utf8

/-!
# Where settings come from

Settings are read from three sources: the global file, the file of the project, and the environment.
Each is laid over the one before. The file of the project is looked for in a directory and in those
above it. The format of the files is left to a decoder.
-/

namespace CInterop

/-- Where settings are read: the files with their format, the place among them, and the
variables. -/
structure Surroundings where
  files : FileTree
  decode : Decoder
  /-- The directory that relative paths begin in. -/
  current : String
  home : String
  /-- The variables that are set, by name. -/
  environment : List (String × String)

/-- The settings that count, and the directory of the project. -/
structure Configuration where
  settings : Settings
  projectRoot : Option String

namespace Surroundings

/-- The name of the file of a project. -/
def projectFile : String := "ctypes.toml"

/-- The directory of the global file. -/
def globalDirectory (s : Surroundings) : String := Path.join s.home ".ctypes"

/-- The path of the global file. -/
def globalFile (s : Surroundings) : String := Path.join s.globalDirectory "config.toml"

/-- The text that some bytes are the encoding of, if there is one. -/
def textOf (bytes : Bytes) : Option String :=
  let text := Text.Utf8.decode bytes
  if Text.Utf8.encode text = bytes then some text else none

/-- The settings in a file. -/
def readFile (s : Surroundings) (path : String) : Except ConfigFailure Settings :=
  match s.files.find s.current path with
  | .missing => throw (.notFound path)
  | .node (.file contents) =>
    match textOf contents with
    | none => throw .unreadable
    | some text => Settings.ofText s.decode text
  | _ => throw .unreadable

/-- The file of the project: that of the directory, or of the nearest one above it that has one. A
path has fewer parts than characters, so the fuel suffices. -/
def findProject (s : Surroundings) : Nat → String →
    Except ConfigFailure (Option String × Settings)
  | 0, _ => pure (none, {})
  | fuel + 1, directory => do
    let path := Path.join directory projectFile
    if s.files.exists? s.current path then
      pure (some directory, ← s.readFile path)
    else
      match Path.parent directory with
      | some above => s.findProject fuel above
      | none => pure (none, {})

/-- The settings of the global file; without one, nothing is set. -/
def readGlobal (s : Surroundings) (path : String) : Except ConfigFailure Settings :=
  if s.files.exists? s.current path then s.readFile path else pure {}

/-! ## The environment -/

/-- A name without white space around it, in lower case. Only letters of the alphabet occur in the
names that are looked for. -/
def lowered (text : String) : String := String.ofList (text.toList.map Char.toLower)

/-- Lays the data model of the environment over settings. -/
def applyModel (s : Surroundings) (settings : Settings) : Except ConfigFailure Settings :=
  match s.environment.lookup "CTYPES_DATA_MODEL" with
  | none => pure settings
  | some text =>
    match ModelName.spellings.lookup (lowered (Text.trimmed text)) with
    | none => throw (.invalidValue "CTYPES_DATA_MODEL" s!"unknown data model '{text}'")
    | some model => pure (settings.merge { platform := some { model := some model } })

/-- Lays the search paths of the environment over settings. -/
def applyPaths (s : Surroundings) (settings : Settings) : Settings :=
  match s.environment.lookup "CTYPES_LIBRARY_PATH" with
  | none => settings
  | some text =>
    let paths := (Path.splitList text).filter (!·.isEmpty)
    if paths.isEmpty then settings else settings.merge { library := some { searchPaths := paths } }

/-- Lays the permission of the environment over settings. -/
def applyReads (s : Surroundings) (settings : Settings) : Settings :=
  match s.environment.lookup "CTYPES_ALLOW_FOREIGN_READS" with
  | none => settings
  | some text =>
    let allow := ["true", "1", "yes"].contains (lowered text)
    settings.merge { memory := some { allowForeignReads := some allow } }

/-- Lays the environment over settings. -/
def applyEnvironment (s : Surroundings) (settings : Settings) : Except ConfigFailure Settings := do
  let settings ← s.applyModel settings
  -- Settings of one source may be sound alone and not together, so they are checked once more.
  let settings := s.applyReads (s.applyPaths settings)
  settings.validate
  pure settings

/-- Lays settings of a project over the global ones, and the environment over both. -/
def layered (s : Surroundings) (globalPath : String) (project : Settings) :
    Except ConfigFailure Settings := do
  let global ← s.readGlobal globalPath
  s.applyEnvironment (global.merge project)

/-- The configuration of a directory. -/
def loadDirectory (s : Surroundings) (globalPath directory : String) :
    Except ConfigFailure Configuration := do
  let (projectRoot, project) ← s.findProject (directory.length + 2) directory
  pure { settings := ← s.layered globalPath project, projectRoot }

/-- The configuration of a project file. -/
def loadFile (s : Surroundings) (globalPath path : String) :
    Except ConfigFailure Configuration := do
  let project ← s.readFile path
  pure { settings := ← s.layered globalPath project, projectRoot := Path.parent path }

end Surroundings

end CInterop
