import CInterop.CType
import CInterop.Word

/-!
# Platforms

A platform fixes the sizes and alignments that C leaves open. The host is the platform that calls
are made on; the other tables serve to compute layouts only.
-/

namespace CInterop

/-- Which of `int`, `long` and pointers take 64 bits. -/
inductive DataModel where
  /-- Both `long` and pointers. -/
  | lp64
  /-- Pointers alone. -/
  | llp64
  /-- None of them. -/
  | ilp32
  deriving DecidableEq, Repr

/-- The name of a data model in reports. -/
def DataModel.name : DataModel → String
  | lp64 => "Lp64"
  | llp64 => "Llp64"
  | ilp32 => "Ilp32"

/-- The sizes and alignments of a platform. Wide characters may take any number of bytes, as long as
their bits can be counted. -/
structure Platform where
  model : DataModel
  long : Width
  pointer : Width
  wchar : Nat
  int64Align : Nat
  doubleAlign : Nat
  counted : 8 * wchar < Word.modulus
  deriving DecidableEq

namespace Platform

/-- Wide characters are signed when they take four bytes. -/
def wcharSigned (platform : Platform) : Bool := platform.wchar = 4

/-- The table of a data model, with natural alignment throughout. -/
def ofModel (model : DataModel) : Platform :=
  let wchar := match model with
    | .llp64 => 2
    | _ => 4
  { model
    long := match model with
      | .lp64 => .w64
      | _ => .w32
    pointer := match model with
      | .ilp32 => .w32
      | _ => .w64
    wchar
    int64Align := 8
    doubleAlign := 8
    counted := by cases model <;> decide }

/-- The platform that calls are made on. -/
def host : Platform := ofModel .lp64

/-- Whether types of this platform have the shape of those of the host. -/
def isHost (platform : Platform) : Bool := platform = host

/-- A platform under a chosen size of wide characters. Where their bits cannot be counted, the
product overflows. -/
def withWchar (table : Platform) (size : Nat) : Except Failure Platform :=
  if counted : 8 * size < Word.modulus then
    pure { table with wchar := size, counted }
  else throw (.overflow "multiply")

/-- The table of the host, if this is a table that happens to describe it. -/
def orHost (table : Platform) : Platform :=
  if table.model = host.model && table.wchar = host.wchar && table.pointer = host.pointer then host
  else table

/-- The table of a data model (the host's when none is named) under a chosen size of wide
characters. -/
def configured (model : Option DataModel) (wchar : Option Nat) : Except Failure Platform :=
  let table := match model with
    | none => host
    | some model => ofModel model
  match wchar with
  | none => pure table.orHost
  | some size => do return (← table.withWchar size).orHost

/-- The text that describes a platform in a report. -/
def report (platform : Platform) : String :=
  s!"PlatformTable \x7b data_model: {platform.model.name}, long_size: {platform.long.bytes}, "
    ++ s!"pointer_size: {platform.pointer.bytes}, wchar_size: {platform.wchar}, "
    ++ s!"wchar_signed: {platform.wcharSigned}, int64_align: {platform.int64Align}, "
    ++ s!"double_align: {platform.doubleAlign} \x7d"

end Platform

end CInterop
