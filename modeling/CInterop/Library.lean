import CInterop.FileTree
import CInterop.Pointer
import CInterop.Text.Quoted

/-!
# Libraries

A library is looked for by its name: in the search paths under the name itself and under the file
names made of it, and then by the system. Libraries that were loaded are kept, by the path that they
were found at. Which libraries the system knows, and what they export, is up to its linker
(`Linker`).
-/

namespace CInterop

/-- A loaded library: the name that it was asked for, and the place that it was loaded from. The
place is a path, or one that stands for a name that the system knows. -/
structure Library where
  name : String
  place : String
  deriving DecidableEq, Repr

/-- The dynamic linker of a system. It takes names as they are given, and decides which of them it
can pass on. -/
structure Linker where
  /-- The name under which a file name is looked for; there is none for some texts. -/
  fileName? : String → Option String
  /-- Whether a library is found under a name without a slash. -/
  knows : String → Bool
  /-- The address of a symbol that a library exports. -/
  address? : Library → String → Option UInt64

/-- A symbol of a library. -/
structure Symbol where
  library : String
  name : String
  address : UInt64

namespace Library

/-- The running process. -/
def process : Library := ⟨"<process>", ""⟩

/-- A symbol that the library exports. -/
def symbol (linker : Linker) (library : Library) (name : String) : Except Failure Symbol :=
  match linker.address? library name with
  | some address => pure { library := library.name, name, address }
  | none => throw (.symbolNotFound library.name name)

/-- The text of a library in a report. -/
def report (library : Library) : String :=
  s!"NativeLibrary \x7b name: {Text.Quoted.quote library.name} \x7d"

end Library

namespace Symbol

/-- The address of a symbol as a pointer. -/
def pointer (symbol : Symbol) (target : CType) : Pointer := .foreign target symbol.address

/-- The text of a symbol in a report. -/
def report (symbol : Symbol) : String :=
  s!"Symbol \x7b library: {Text.Quoted.quote symbol.library}, "
    ++ s!"name: {Text.Quoted.quote symbol.name}, "
    ++ s!"address: {Failure.hexadecimal symbol.address.toNat} \x7d"

end Symbol

/-- The libraries that were loaded, by their places, and the directories that are searched. -/
structure LibraryLoader where
  loaded : List (String × Library)
  searchPaths : List String

namespace LibraryLoader

/-- The directories that are searched unless more are given. -/
def defaultPaths (current : String) : List String :=
  [current, "/usr/lib", "/usr/local/lib", "/lib", "/usr/lib64", "/lib64"]

/-- A loader that searches some directories before the default ones. -/
def ofPaths (current : String) (paths : List String) : LibraryLoader :=
  { loaded := [], searchPaths := paths ++ defaultPaths current }

/-- Puts a directory in front of those that are searched. -/
def addPath (loader : LibraryLoader) (path : String) : LibraryLoader :=
  { loader with searchPaths := path :: loader.searchPaths }

/-- The file names made of the name of a library. -/
def fileNames (name : String) : List String := [s!"lib{name}.so", s!"{name}.so"]

/-- The path at which a directory holds a library. -/
def findIn (files : FileTree) (current name directory : String) : Option String :=
  let direct := Path.join directory name
  if files.isFile current direct then some direct
  else ((fileNames name).map (Path.join directory)).find? (files.exists? current)

/-- The path of a library. -/
def findPath (files : FileTree) (current : String) (loader : LibraryLoader) (name : String) :
    Option String :=
  if Path.isAbsolute name then if files.exists? current name then some name else none
  else loader.searchPaths.findSome? (findIn files current name)

/-- The place that stands for a name that the system knows. -/
def systemPlace (name : String) : String := "os:" ++ name

/-- Whether the system loads a file name. One with a slash is the path of a file. -/
def systemLoads (linker : Linker) (files : FileTree) (current fileName : String) : Bool :=
  match linker.fileName? fileName with
  | none => false
  | some name =>
    if name.toList.contains '/' then files.find current name = .node .library
    else linker.knows name

/-- Keeps a library. -/
def keep (loader : LibraryLoader) (place name : String) : Library × LibraryLoader :=
  let library : Library := { name, place }
  (library, { loader with loaded := (place, library) :: loader.loaded })

/-- The library that was loaded from a place. -/
def kept? (loader : LibraryLoader) (place : String) : Option Library :=
  (loader.loaded.find? (Path.same place ·.1)).map (·.2)

/-- Loads a library that is not found in the search paths. -/
def loadFromSystem (linker : Linker) (files : FileTree) (current : String)
    (loader : LibraryLoader) (name : String) : Except Failure (Library × LibraryLoader) :=
  match loader.kept? (systemPlace name) with
  | some library => pure (library, loader)
  | none =>
    if [name, s!"lib{name}.so"].any (systemLoads linker files current) then
      pure (loader.keep (systemPlace name) name)
    else throw (.libraryNotFound name)

/-- Loads a library. -/
def load (linker : Linker) (files : FileTree) (current : String) (loader : LibraryLoader)
    (name : String) : Except Failure (Library × LibraryLoader) :=
  match loader.findPath files current name with
  | none => loadFromSystem linker files current loader name
  | some path =>
    match loader.kept? path with
    | some library => pure (library, loader)
    | none =>
      -- A file that is found is the one that counts, even if it cannot be loaded.
      match files.find current path with
      | .node .library => pure (loader.keep path name)
      | _ => throw (.libraryLoad name)

/-- The number of libraries that were loaded. -/
def loadedCount (loader : LibraryLoader) : Nat := loader.loaded.length

end LibraryLoader

end CInterop
