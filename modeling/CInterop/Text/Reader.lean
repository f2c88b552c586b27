/-!
# Readers

A reader takes characters from the front of a text and gives what they stand for, or fails.
-/

namespace CInterop.Text

/-- Reads from the front of a text. -/
abbrev Reader := StateT (List Char) Option

namespace Reader

/-- The next character, which stays where it is. -/
def peek : Reader (Option Char) := do return (← get).head?

/-- Takes the next character. -/
def next : Reader Char := fun
  | [] => none
  | c :: rest => some (c, rest)

/-- Takes a text if it comes next. -/
def accept (expected : String) : Reader Bool := fun text =>
  if expected.toList.isPrefixOf text then some (true, text.drop expected.toList.length)
  else some (false, text)

/-- Takes a text that has to come next. -/
def expect (expected : String) : Reader Unit := do guard (← accept expected)

/-- Takes the characters up to the first that has not the property. -/
def takeWhile (p : Char → Bool) : Reader (List Char) := fun text => some (text.span p)

/-- Takes the characters up to the first that has not the property; there has to be one. -/
def takeWhile1 (p : Char → Bool) : Reader (List Char) := do
  let taken ← takeWhile p
  guard (!taken.isEmpty)
  return taken

/-- Takes what a reader takes, or nothing if it fails. -/
def optionally {α : Type} (reader : Reader α) : Reader (Option α) := fun text =>
  match reader text with
  | some (a, rest) => some (some a, rest)
  | none => some (none, text)

/-- Runs a reader on a whole text. -/
def runAll {α : Type} (reader : Reader α) (text : List Char) : Option α :=
  match reader text with
  | some (a, []) => some a
  | _ => none

end Reader

/-- The value of a hexadecimal digit. -/
def hexDigit? (c : Char) : Option Nat :=
  if c.isDigit then some (c.toNat - '0'.toNat)
  else if 'a' ≤ c && c ≤ 'f' then some (c.toNat - 'a'.toNat + 10)
  else if 'A' ≤ c && c ≤ 'F' then some (c.toNat - 'A'.toNat + 10)
  else none

/-- The number that some hexadecimal digits stand for. -/
def hexNumber? (digits : List Char) : Option Nat :=
  digits.foldlM (fun value c => (hexDigit? c).map (16 * value + ·)) 0

end CInterop.Text
