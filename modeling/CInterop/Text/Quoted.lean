import CInterop.Text.Combining
import CInterop.Text.Unprintable

/-!
# Quoted text

In reports a text stands between double quotes. Quotes and backslashes inside it follow a
backslash, as do the letters that stand for the common controls; other characters that cannot be
seen, or that would merge with the character before them, are given by their code point.
-/

namespace CInterop.Text.Quoted

/-- The character that follows a backslash in place of another. -/
def shortEscapes : List (Char × Char) :=
  [('\x00', '0'), ('\t', 't'), ('\r', 'r'), ('\n', 'n'), ('"', '"'), ('\\', '\\')]

/-- A character as it stands between quotes. -/
def escape (c : Char) : List Char :=
  match shortEscapes.lookup c with
  | some short => ['\\', short]
  | none =>
    if isCombining c || isUnprintable c then
      ['\\', 'u', '\x7b'] ++ Nat.toDigits 16 c.toNat ++ ['\x7d']
    else [c]

/-- A text between quotes. -/
def quote (text : String) : String :=
  String.ofList (['"'] ++ text.toList.flatMap escape ++ ['"'])

end CInterop.Text.Quoted
