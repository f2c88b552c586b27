import CInterop.Text.Reader
import CInterop.Text.Wide

/-!
# JSON

A strict reader of JSON texts. Objects keep their entries in the order of the text, names that
occur twice included; of numbers only the spelling is kept.
-/

namespace CInterop

/-- A JSON value. -/
inductive Json where
  | null
  | bool (b : Bool)
  | number (spelling : String)
  | text (s : String)
  | list (items : List Json)
  | object (entries : List (String × Json))

namespace Json

open Text Text.Reader

/-- White space between tokens. -/
def isBlank (c : Char) : Bool := c == ' ' || c == '\t' || c == '\n' || c == '\r'

/-- Takes white space. -/
def blank : Reader Unit := do let _ ← takeWhile isBlank

/-- The characters that a single letter after a backslash stands for. -/
def shortEscapes : List (Char × Char) :=
  [('"', '"'), ('\\', '\\'), ('/', '/'), ('b', '\x08'), ('f', '\x0C'), ('n', '\n'), ('r', '\r'),
    ('t', '\t')]

/-- What stands in a string: a character, or a unit of UTF-16. -/
inductive Piece where
  | char (c : Char)
  | unit (n : Nat)

/-- The pieces up to the closing quote, and what follows it. -/
def pieces : List Char → Option (List Piece × List Char)
  | [] => none
  | '"' :: rest => some ([], rest)
  | '\\' :: 'u' :: a :: b :: c :: d :: rest => do
    let unit ← hexNumber? [a, b, c, d]
    let (following, rest) ← pieces rest
    pure (.unit unit :: following, rest)
  | '\\' :: c :: rest => do
    let char ← shortEscapes.lookup c
    let (following, rest) ← pieces rest
    pure (.char char :: following, rest)
  | c :: rest => do
    guard ('\x20' ≤ c)
    let (following, rest) ← pieces rest
    pure (.char c :: following, rest)

/-- The text of some pieces; surrogates have to be paired. -/
def joinPieces : List Piece → Option (List Char)
  | [] => some []
  | .char c :: rest => do return c :: (← joinPieces rest)
  | .unit high :: .unit low :: rest =>
    if Wide.isHighSurrogate high && Wide.isLowSurrogate low then do
      return Wide.joined high low :: (← joinPieces rest)
    else if high.isValidChar then do
      return Char.ofNat high :: (← joinPieces (.unit low :: rest))
    else none
  | .unit n :: rest =>
    if n.isValidChar then do return Char.ofNat n :: (← joinPieces rest) else none

/-- Takes a string behind its opening quote. -/
def stringBody : Reader String := fun text => do
  let (found, rest) ← pieces text
  pure (String.ofList (← joinPieces found), rest)

/-- Takes the digits of a number; there has to be one. -/
def digits : Reader (List Char) := takeWhile1 Char.isDigit

/-- Takes a number. -/
def numeral : Reader String := do
  let sign := if ← accept "-" then ['-'] else []
  let whole ← digits
  guard (whole.length = 1 || whole.head? != some '0')
  let fraction ← do if ← accept "." then pure ('.' :: (← digits)) else pure []
  let exponent ← do
    let marked ← do if ← accept "e" then pure true else accept "E"
    if marked then
      let sign ← do if ← accept "-" then pure ['-'] else (do let _ ← accept "+"; pure [])
      pure ('e' :: sign ++ (← digits))
    else pure []
  return String.ofList (sign ++ whole ++ fraction ++ exponent)

mutual

/-- Takes a value. Values nest to a depth below `fuel`. -/
def value : Nat → Reader Json
  | 0 => failure
  | fuel + 1 => do
    blank
    if ← accept "null" then return .null
    if ← accept "true" then return .bool true
    if ← accept "false" then return .bool false
    if ← accept "\"" then return .text (← stringBody)
    if ← accept "[" then
      blank
      if ← accept "]" then return .list []
      return .list (← items fuel)
    if ← accept "\x7b" then
      blank
      if ← accept "\x7d" then return .object []
      return .object (← entries fuel)
    return .number (← numeral)

/-- Takes the items of a list, at least one, and the bracket behind them. -/
def items : Nat → Reader (List Json)
  | 0 => failure
  | fuel + 1 => do
    let item ← value fuel
    blank
    if ← accept "," then return item :: (← items fuel)
    expect "]"
    return [item]

/-- Takes the entries of an object, at least one, and the brace behind them. -/
def entries : Nat → Reader (List (String × Json))
  | 0 => failure
  | fuel + 1 => do
    blank
    expect "\""
    let name ← stringBody
    blank
    expect ":"
    let item ← value fuel
    blank
    if ← accept "," then return (name, item) :: (← entries fuel)
    expect "\x7d"
    return [(name, item)]

end

/-- The value of a JSON text. Every value takes a character, so the fuel suffices. -/
def parse (text : String) : Option Json :=
  let chars := text.toList
  runAll (do let found ← value (2 * chars.length + 2); blank; pure found) chars

end Json

end CInterop
