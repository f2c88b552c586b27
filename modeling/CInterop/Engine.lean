import CInterop.Call.Invoke
import CInterop.Config.Settings
import CInterop.Library

/-!
# Engines

An engine joins a configuration, the registry of the platform that it describes, and a library
loader. Declarations are resolved only while the registry describes the platform that calls are made
on.
-/

namespace CInterop

/-- A configured engine. -/
structure Engine where
  settings : Settings
  registry : Registry
  loader : LibraryLoader

namespace Engine

/-- The version of the engine. -/
def version : String := "0.1.0"

/-- An engine for some settings. -/
def ofSettings (current : String) (settings : Settings) : Except Failure Engine := do
  let platform ← settings.describedPlatform
  pure { settings
         registry := .ofPlatform platform
         loader := .ofPaths current settings.searchPaths }

/-- Loads a library. -/
def loadLibrary (linker : Linker) (files : FileTree) (current : String) (engine : Engine)
    (name : String) : Except Failure (Library × Engine) := do
  let (library, loader) ← engine.loader.load linker files current name
  pure (library, { engine with loader })

/-- The signature that a declaration stands for. Types of another platform are refused. -/
def resolveSignature (engine : Engine) (function : String) (declaration : Declaration) :
    Except Failure Signature :=
  if engine.registry.platform.isHost then declaration.resolve engine.registry
  else
    throw (.unsupportedConvention function declaration.convention.name
      (.otherPlatform engine.registry.platform.model.name))

/-- Finds a symbol, in a library if one is named and else in the running process. The engine that is
left holds the library, also when the symbol is not found. -/
def findSymbol (linker : Linker) (files : FileTree) (current : String) (engine : Engine)
    (library : Option String) (symbol : String) : Except Failure Symbol × Engine :=
  match library with
  | none => (Library.process.symbol linker symbol, engine)
  | some name =>
    match engine.loadLibrary linker files current name with
    | .error failure => (.error failure, engine)
    | .ok (library, engine) => (library.symbol linker symbol, engine)

/-- Binds a symbol to a signature. -/
def bindSymbol (settings : Settings) (symbol : Symbol) (signature : Signature) :
    Except Failure Binding := do
  let entry ← EntryPoint.prepare symbol.name (some symbol.library) symbol.address signature
  pure { entry with foreignReads := settings.allowForeignReads }

/-- Finds a symbol and binds it. -/
def bind (linker : Linker) (files : FileTree) (current : String) (engine : Engine)
    (library : Option String) (symbol : String) (signature : Signature) :
    Except Failure Binding × Engine :=
  match engine.findSymbol linker files current library symbol with
  | (.error failure, engine) => (.error failure, engine)
  | (.ok symbol, engine) => (bindSymbol engine.settings symbol signature, engine)

/-- Binds a declared function. -/
def bindDeclared (linker : Linker) (files : FileTree) (current : String) (engine : Engine)
    (name : String) : Except Failure Binding × Engine :=
  match engine.settings.functions.lookup name with
  | none => (.error (.symbolNotFound "<configuration>" name), engine)
  | some function =>
    match engine.resolveSignature name function.declaration with
    | .error failure => (.error failure, engine)
    | .ok signature =>
      engine.bind linker files current function.library (function.symbolName name) signature

/-- Binds declared functions one after the other, up to the first failure. -/
def bindNames (linker : Linker) (files : FileTree) (current : String) (engine : Engine) :
    List String → Except Failure (List (String × Binding)) × Engine
  | [] => (.ok [], engine)
  | name :: rest =>
    match engine.bindDeclared linker files current name with
    | (.error failure, engine) => (.error failure, engine)
    | (.ok binding, engine) =>
      match bindNames linker files current engine rest with
      | (.error failure, engine) => (.error failure, engine)
      | (.ok bindings, engine) => (.ok ((name, binding) :: bindings), engine)

/-- Binds all declared functions, in the order of their names. -/
def bindAll (linker : Linker) (files : FileTree) (current : String) (engine : Engine) :
    Except Failure (List (String × Binding)) × Engine :=
  engine.bindNames linker files current (engine.settings.functions.map (·.1))

end Engine

end CInterop
