import CInterop.Number.Shortest
import CInterop.Text.Quoted
import CInterop.Value

/-!
# Texts of values

`Value.render` is the text for a reader of values, `Value.report` the one for a reader of programs:
it names the kind of every value, and numbers keep their point.
-/

namespace CInterop

open Number Text

/-- Texts with a separator between them. -/
def commaSeparated (texts : List String) : String := String.intercalate ", " texts

namespace Pointer

/-- The text of a pointer. -/
def render (p : Pointer) : Except Failure String := do
  if p.isNull then return s!"<{p.target.name}* NULL>"
  let address ← p.address
  pure s!"<{p.target.name}* {Failure.hexadecimal address.toNat}>"

/-- The text of a pointer in a report. -/
def report (p : Pointer) : Except Failure String := do
  let address ← p.address
  pure <| s!"TypedPointer \x7b target: {Quoted.quote p.target.name}, "
    ++ s!"address: {Failure.hexadecimal address.toNat}, foreign: {p.isForeign} \x7d"

end Pointer

namespace Instance

/-- The text of an instance. -/
def render (x : Instance) : String := s!"<{x.type.name} at {Failure.hexadecimal x.address.toNat}>"

/-- The text of an instance in a report. -/
def report (x : Instance) : String :=
  s!"CData \x7b type: {Quoted.quote x.type.name}, "
    ++ s!"address: {Failure.hexadecimal x.address.toNat} \x7d"

end Instance

/-- The text of a block in a report. -/
def Block.report (block : Block) : String :=
  s!"MemoryBlock \x7b address: {Failure.hexadecimal block.base}, len: {block.length}, "
    ++ s!"native: {block.native} \x7d"

namespace Value

mutual

/-- The text of a value. -/
def render : Value → Except Failure String
  | void => pure "void"
  | null => pure "NULL"
  | bool b => pure (toString b)
  | int i => pure (toString i.toInt)
  | uint u => pure (toString u.toNat)
  | single word => pure (Number.text .plain binary32 word.toNat)
  | double word => pure (Number.text .plain binary64 word.toNat)
  | text s => pure (Quoted.quote s)
  | pointer p => p.render
  | object x => pure x.render
  | record entries => do
    let texts ← renderEntries entries
    pure s!"\x7b{commaSeparated texts}\x7d"
  | list items => do
    let texts ← renderItems items
    pure s!"[{commaSeparated texts}]"
termination_by structural value => value

/-- The texts of the entries of a record. -/
def renderEntries : List (String × Value) → Except Failure (List String)
  | [] => pure []
  | (key, value) :: rest => do
    let text ← value.render
    pure (s!"{key}: {text}" :: (← renderEntries rest))
termination_by structural entries => entries

/-- The texts of the items of a list. -/
def renderItems : List Value → Except Failure (List String)
  | [] => pure []
  | item :: rest => do
    let text ← item.render
    pure (text :: (← renderItems rest))
termination_by structural items => items

end

mutual

/-- The text of a value in a report. -/
def report : Value → Except Failure String
  | void => pure "Void"
  | null => pure "Null"
  | bool b => pure s!"Bool({b})"
  | int i => pure s!"Int({i.toInt})"
  | uint u => pure s!"UInt({u.toNat})"
  | single word => pure s!"Float({Number.text .report binary32 word.toNat})"
  | double word => pure s!"Double({Number.text .report binary64 word.toNat})"
  | text s => pure s!"Str({Quoted.quote s})"
  | pointer p => do
    let text ← p.report
    pure s!"Pointer({text})"
  | object x => pure s!"CData({x.report})"
  | record entries => do
    let texts ← reportEntries entries
    pure s!"Record(\x7b{commaSeparated texts}\x7d)"
  | list items => do
    let texts ← reportItems items
    pure s!"List([{commaSeparated texts}])"
termination_by structural value => value

/-- The texts of the entries of a record in a report. -/
def reportEntries : List (String × Value) → Except Failure (List String)
  | [] => pure []
  | (key, value) :: rest => do
    let text ← value.report
    pure (s!"{Quoted.quote key}: {text}" :: (← reportEntries rest))
termination_by structural entries => entries

/-- The texts of the items of a list in a report. -/
def reportItems : List Value → Except Failure (List String)
  | [] => pure []
  | item :: rest => do
    let text ← item.report
    pure (text :: (← reportItems rest))
termination_by structural items => items

end

end Value

end CInterop
