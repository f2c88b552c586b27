import CInterop.Text.Reader
import CInterop.Word

/-!
# TOML

A reader of TOML documents. Texts, integers, truth values, arrays and tables are kept;
floating-point numbers, dates and times have no use in a configuration, and are only checked.

A document is a run of lines. A key line sets a value in the table that the last header opened; a
header opens a table, or adds one to an array of tables. Every name is set once: what may still be
added to a table follows from how it came about (`Origin`).
-/

namespace CInterop

/-- How a table came about. -/
inductive Origin where
  /-- It was opened by a header. -/
  | header
  /-- A header inside of it was opened. -/
  | implied
  /-- A dotted key goes through it. -/
  | dotted
  /-- It is a value between braces, and complete. -/
  | inline
  deriving DecidableEq, Repr

/-- A TOML value. The tables of an array of tables are in reverse order. -/
inductive Toml where
  | text (s : String)
  | integer (i : Int)
  | boolean (b : Bool)
  /-- A floating-point number, a date or a time, of which nothing is kept. -/
  | unkept
  | array (items : List Toml)
  | table (origin : Origin) (entries : List (String × Toml))
  | tables (elements : List (List (String × Toml)))

namespace Toml

/-- The entries of a table. -/
abbrev Entries := List (String × Toml)

/-! ## Adding to tables -/

/-- Replaces the value of a key, or adds it, by what `change` makes of it. -/
def alter (change : Option Toml → Option Toml) (key : String) : Entries → Option Entries
  | [] => do return [(key, ← change none)]
  | (other, value) :: rest =>
    if other == key then do return (key, ← change (some value)) :: rest
    else do return (other, value) :: (← alter change key rest)

/-- Sets the value of a dotted key. A table that the key goes through must not have been opened by a
header, and the last one has to be there for the sake of dotted keys only. -/
def setDotted (value : Toml) : List String → Entries → Option Entries
  | [], _ => none
  | [key], entries => alter (fun | none => some value | some _ => none) key entries
  | key :: next :: rest, entries =>
    let inside := setDotted value (next :: rest)
    let change : Option Toml → Option Toml := fun
      | none => (inside []).map (.table .dotted)
      | some (.table .dotted nested) => (inside nested).map (.table .dotted)
      | some (.table .implied nested) =>
        -- A header that names the table itself may still follow, so its own entries are not set
        -- from here; those of tables further inside are.
        if rest.isEmpty then none else (inside nested).map (.table .implied)
      | some (.tables (last :: others)) =>
        if rest.isEmpty then none else (inside last).map fun last => .tables (last :: others)
      | some _ => none
    alter change key entries

/-- Works on the table that a path of names leads to. `change` sees what the last name stands for;
tables on the way are implied. -/
def atPath (change : Option Toml → Option Toml) : List String → Entries → Option Entries
  | [], _ => none
  | [key], entries => alter change key entries
  | key :: next :: rest, entries =>
    let inside := atPath change (next :: rest)
    let descend : Option Toml → Option Toml := fun
      | none => (inside []).map (.table .implied)
      | some (.table .inline _) => none
      | some (.table origin nested) => (inside nested).map (.table origin)
      | some (.tables (last :: others)) => (inside last).map fun last => .tables (last :: others)
      | some _ => none
    alter descend key entries

/-- Opens the table of a header. -/
def openTable : Option Toml → Option Toml
  | none => some (.table .header [])
  | some (.table .implied nested) => some (.table .header nested)
  | some _ => none

/-- Adds a table to an array of tables. -/
def openElement : Option Toml → Option Toml
  | none => some (.tables [[]])
  | some (.tables elements) => some (.tables ([] :: elements))
  | some _ => none

/-- Sets the value of a dotted key in the table of a header. -/
def setUnder (key : List String) (value : Toml) : Option Toml → Option Toml
  | some (.table origin nested) => (setDotted value key nested).map (.table origin)
  | some (.tables (last :: others)) =>
    (setDotted value key last).map fun last => .tables (last :: others)
  | _ => none

/-! ## Tokens -/

open Text Text.Reader

/-- White space inside a line. -/
def isSpace (c : Char) : Bool := c == ' ' || c == '\t'

/-- Takes white space. -/
def space : Reader Unit := do let _ ← takeWhile isSpace

/-- Takes the end of a line if it comes next. -/
def lineEnd : Reader Bool := do
  if ← accept "\n" then return true
  accept "\r\n"

/-- Control characters have no place in texts and comments, the tab apart. -/
def isPlain (c : Char) : Bool := c == '\t' || ('\x20' ≤ c && c != '\x7F')

/-- Takes a comment if one comes next. -/
def comment : Reader Unit := do
  if ← accept "#" then let _ ← takeWhile isPlain

/-- Takes white space, comments and the ends of lines. -/
def gap : Nat → Reader Unit
  | 0 => pure ()
  | fuel + 1 => do
    space
    comment
    if ← lineEnd then gap fuel

/-- The characters that a single letter after a backslash stands for. -/
def shortEscapes : List (Char × Char) :=
  [('b', '\x08'), ('t', '\t'), ('n', '\n'), ('f', '\x0C'), ('r', '\r'), ('"', '"'), ('\\', '\\')]

/-- The character with a code point in hexadecimal digits. -/
def charOfHex (digits : List Char) : Option Char := do
  let n ← hexNumber? digits
  guard n.isValidChar
  return Char.ofNat n

/-- Takes a number of characters. -/
def takeCount : Nat → Reader (List Char)
  | 0 => pure []
  | count + 1 => do return (← next) :: (← takeCount count)

/-- Takes what follows a backslash. -/
def escape : Reader Char := do
  match ← next with
  | 'u' => liftM (charOfHex (← takeCount 4))
  | 'U' => liftM (charOfHex (← takeCount 8))
  | c => liftM (shortEscapes.lookup c)

/-- Takes the rest of a text in double quotes. -/
def basicText : Nat → Reader (List Char)
  | 0 => failure
  | fuel + 1 => do
    match ← next with
    | '"' => return []
    | '\\' => return (← escape) :: (← basicText fuel)
    | c =>
      guard (isPlain c)
      return c :: (← basicText fuel)

/-- Takes the rest of a text in single quotes. -/
def literalText : Reader (List Char) := do
  let text ← takeWhile fun c => isPlain c && c != '\''
  expect "'"
  return text

/-- Takes the quotes at the end of a text of several lines; up to two quotes before the closing ones
belong to the text. -/
def closingQuotes (quote : Char) : Reader (Option (List Char)) := do
  let quotes ← takeWhile (· == quote)
  if quotes.length < 3 then return none
  guard (quotes.length ≤ 5)
  return some (quotes.drop 3)

/-- Takes white space and the ends of lines. -/
def blankLines : Nat → Reader Unit
  | 0 => pure ()
  | fuel + 1 => do
    space
    if ← lineEnd then blankLines fuel

/-- Takes a backslash that ends a line, with the white space up to the next text, if one comes
next. -/
def lineJoin (fuel : Nat) : Reader Bool := do
  let join : Reader Unit := do
    space
    guard (← lineEnd)
    blankLines fuel
  return (← optionally join).isSome

/-- Takes the rest of a text of several lines. -/
def longText (quote : Char) (escapes : Bool) : Nat → Reader (List Char)
  | 0 => failure
  | fuel + 1 => do
    if (← peek) = some quote then
      let before ← get
      match ← closingQuotes quote with
      | some quotes => return quotes
      | none =>
        -- Fewer than three quotes belong to the text: the first of them is its next character.
        set before
        return (← next) :: (← longText quote escapes fuel)
    else if ← lineEnd then return '\n' :: (← longText quote escapes fuel)
    else
      let c ← next
      if c == '\\' && escapes then
        if ← lineJoin fuel then longText quote escapes fuel
        else return (← escape) :: (← longText quote escapes fuel)
      else
        guard (isPlain c)
        return c :: (← longText quote escapes fuel)

/-- Takes a text of one line if one comes next. -/
def shortText (fuel : Nat) : Reader (Option String) := do
  if ← accept "\"" then return some (String.ofList (← basicText fuel))
  if ← accept "'" then return some (String.ofList (← literalText))
  return none

/-- Takes a text if one comes next. -/
def anyText (fuel : Nat) : Reader (Option String) := do
  let long (quote : Char) (escapes : Bool) : Reader (Option String) := do
    let _ ← lineEnd
    return some (String.ofList (← longText quote escapes fuel))
  if ← accept "\"\"\"" then return ← long '"' true
  if ← accept "'''" then return ← long '\'' false
  shortText fuel

/-! ## Keys and numbers -/

/-- The characters of a key that needs no quotes. -/
def isBareKey (c : Char) : Bool := c.isAlphanum || c == '_' || c == '-'

/-- Takes one name of a key. -/
def simpleKey (fuel : Nat) : Reader String := do
  match ← shortText fuel with
  | some name => return name
  | none => return String.ofList (← takeWhile1 isBareKey)

/-- Takes the names of a dotted key. -/
def keyNames : Nat → Reader (List String)
  | 0 => failure
  | fuel + 1 => do
    space
    let name ← simpleKey fuel
    space
    if ← accept "." then return name :: (← keyNames fuel)
    return [name]

/-- How many names a dotted key may have, and how many arrays and tables between braces may lie
inside of one another. -/
def deepest : Nat := 79

/-- Takes a dotted key. -/
def dottedKey (fuel : Nat) : Reader (List String) := do
  let names ← keyNames fuel
  guard (names.length ≤ deepest)
  return names

/-- Digits with single underscores between them, the underscores taken out. -/
def joinDigits (isDigit : Char → Bool) : List Char → Option (List Char)
  | [] => none
  | [c] => if isDigit c then some [c] else none
  | c :: '_' :: d :: rest =>
    if isDigit c then (joinDigits isDigit (d :: rest)).map (c :: ·) else none
  | c :: rest => if isDigit c then (joinDigits isDigit rest).map (c :: ·) else none

/-- The number that digits of a base stand for. -/
def ofDigits (base : Nat) (digits : List Char) : Option Nat :=
  digits.foldlM (fun value c => (hexDigit? c).map (base * value + ·)) 0

/-- The number of digits of a base with underscores between them. -/
def magnitude (base : Nat) (digits : List Char) : Option Nat := do
  let isDigit (c : Char) := (hexDigit? c).any (· < base)
  ofDigits base (← joinDigits isDigit digits)

/-- The integer of a spelling. A decimal number has no leading zero, and every number fits a signed
word. -/
def integerOf (spelling : List Char) : Option Int := do
  let value ← match spelling with
    | '0' :: 'x' :: digits => (magnitude 16 digits).map Int.ofNat
    | '0' :: 'o' :: digits => (magnitude 8 digits).map Int.ofNat
    | '0' :: 'b' :: digits => (magnitude 2 digits).map Int.ofNat
    | '-' :: digits => (decimal digits).map fun n => -(n : Int)
    | '+' :: digits => (decimal digits).map Int.ofNat
    | digits => (decimal digits).map Int.ofNat
  Word.checked value
where
  /-- The number of decimal digits. -/
  decimal (digits : List Char) : Option Nat := do
    guard (digits.length = 1 || digits.head? != some '0')
    magnitude 10 digits

/-- The characters of a word that is not quoted. -/
def isWord (c : Char) : Bool := c.isAlphanum || c == '_' || c == '+' || c == '-' || c == '.'

/-! ## Floating-point numbers -/

/-- Takes digits with single underscores between them, and gives the digits. -/
def digitRun : Reader (List Char) := do
  liftM (joinDigits Char.isDigit (← takeWhile1 fun c => c.isDigit || c == '_'))

/-- Whether the number of some decimal digits times `10 ^ exponent` is nearer to a double than to
the power of two behind the largest one. -/
def fitsDouble (digits : List Char) (exponent : Int) : Bool :=
  let limit := 0x3FFFFFFFFFFFFF <<< 970
  match ofDigits 10 digits, exponent with
  | some 0, _ => true
  | some n, .ofNat e => e ≤ 308 && n * Nat.pow 10 e < limit
  -- With no more digits than places behind the point the number is below 1.
  | some n, .negSucc e => digits.length ≤ e + 1 || n < limit * Nat.pow 10 (e + 1)
  | none, _ => false

/-- Takes the exponent of a number if one comes next. -/
def exponent : Reader (Option Int) := do
  unless (← accept "e") || (← accept "E") do return none
  let negative ← accept "-"
  unless negative do let _ ← accept "+"
  let size ← liftM (ofDigits 10 (← digitRun))
  return some (if negative then -size else size)

/-- Takes a floating-point number. It has a fraction or an exponent, or is one of the numbers that
are named; one that is positive and larger than all doubles is refused. -/
def floating : Reader Unit := do
  let negative ← accept "-"
  unless negative do let _ ← accept "+"
  if (← accept "inf") || (← accept "nan") then return
  let whole ← digitRun
  guard (whole.length = 1 || whole.head? != some '0')
  let fraction ← do if ← accept "." then digitRun else pure []
  let exponent ← exponent
  guard (!fraction.isEmpty || exponent.isSome)
  guard (negative || fitsDouble (whole ++ fraction) (exponent.getD 0 - fraction.length))

/-! ## Dates and times -/

/-- Takes a number of some digits between two bounds. -/
def bounded (count low high : Nat) : Reader Nat := do
  let digits ← takeCount count
  guard (digits.all Char.isDigit)
  let n ← liftM (ofDigits 10 digits)
  guard (low ≤ n && n ≤ high)
  return n

/-- The number of days of a month. -/
def daysIn (year month : Nat) : Nat :=
  if month = 2 then
    if year % 4 = 0 && (year % 100 != 0 || year % 400 = 0) then 29 else 28
  else if [4, 6, 9, 11].contains month then 30
  else 31

/-- Takes a date. -/
def date : Reader Unit := do
  let year ← bounded 4 0 9999
  expect "-"
  let month ← bounded 2 1 12
  expect "-"
  let _ ← bounded 2 1 (daysIn year month)

/-- Takes a time of the day, which may be a leap second. -/
def time : Reader Unit := do
  let _ ← bounded 2 0 23
  expect ":"
  let _ ← bounded 2 0 59
  expect ":"
  let _ ← bounded 2 0 60
  if ← accept "." then let _ ← takeWhile1 Char.isDigit

/-- Takes what a time differs by from universal time. -/
def zone : Reader Unit := do
  if (← accept "Z") || (← accept "z") then return
  unless ← accept "-" do expect "+"
  let _ ← bounded 2 0 23
  expect ":"
  let _ ← bounded 2 0 59

/-- Takes a date, a time, or a date with a time. -/
def moment : Reader Unit := do
  let timeOfDate : Reader Unit := do
    guard (['T', 't', ' '].contains (← next))
    time
    let _ ← optionally zone
  let dated : Reader Unit := do
    date
    let _ ← optionally timeOfDate
  dated <|> time

/-! ## Values -/

/-- Takes a value that is no text and has no values inside. -/
def plain : Reader Toml := do
  if (← optionally (moment <|> floating)).isSome then return .unkept
  match ← takeWhile1 isWord with
  | ['t', 'r', 'u', 'e'] => return .boolean true
  | ['f', 'a', 'l', 's', 'e'] => return .boolean false
  | word => return .integer (← liftM (integerOf word))

mutual

/-- Takes a value. At most `depth` arrays and tables between braces lie inside of one another, and
the fuel is above the number of characters. -/
def value (depth : Nat) : Nat → Reader Toml
  | 0 => failure
  | fuel + 1 => do
    match ← anyText fuel with
    | some s => return .text s
    | none =>
      if ← accept "[" then
        guard (0 < depth)
        return .array (← items (depth - 1) fuel)
      if ← accept "\x7b" then
        guard (0 < depth)
        space
        if ← accept "\x7d" then return .table .inline []
        return .table .inline (← inlineEntries (depth - 1) [] fuel)
      plain

/-- Takes the items of an array and the bracket behind them. -/
def items (depth : Nat) : Nat → Reader (List Toml)
  | 0 => failure
  | fuel + 1 => do
    gap fuel
    if ← accept "]" then return []
    let item ← value depth fuel
    gap fuel
    if ← accept "," then return item :: (← items depth fuel)
    expect "]"
    return [item]

/-- Takes the entries of a table between braces, at least one, and the brace behind them. -/
def inlineEntries (depth : Nat) (entries : Entries) : Nat → Reader Entries
  | 0 => failure
  | fuel + 1 => do
    let key ← dottedKey fuel
    expect "="
    space
    let item ← value depth fuel
    space
    let entries ← liftM (setDotted item key entries)
    if ← accept "," then return ← inlineEntries depth entries fuel
    expect "\x7d"
    return entries

end

/-! ## Documents -/

/-- What was read of a document: its entries, and the path of the table that is open. -/
structure Document where
  entries : Entries
  path : List String

/-- Takes the rest of a header. -/
def header (document : Document) (fuel : Nat) : Reader Document := do
  let element ← accept "["
  let path ← dottedKey fuel
  expect (if element then "]]" else "]")
  let change := if element then openElement else openTable
  return { entries := ← liftM (atPath change path document.entries), path }

/-- Takes a key and its value. -/
def keyLine (document : Document) (fuel : Nat) : Reader Document := do
  let key ← dottedKey fuel
  expect "="
  space
  let item ← value deepest fuel
  let entries ← liftM <|
    if document.path.isEmpty then setDotted item key document.entries
    else atPath (setUnder key item) document.path document.entries
  return { document with entries }

/-- Takes the lines of a document. -/
def lines (document : Document) : Nat → Reader Document
  | 0 => failure
  | fuel + 1 => do
    space
    let next ← peek
    let document ←
      if next.all fun c => c == '#' || c == '\n' || c == '\r' then pure document
      else if ← accept "[" then header document fuel
      else keyLine document fuel
    space
    comment
    -- A line holds one key or header; only the end of the text may follow it otherwise.
    if ← lineEnd then lines document fuel
    else
      guard (← get).isEmpty
      return document

/-- The entries of a document. A byte order mark may stand in front. Every step takes a character,
so the fuel suffices. -/
def parse (text : String) : Option Entries :=
  let chars := match text.toList with
    | '\uFEFF' :: rest => rest
    | chars => chars
  (runAll (lines ⟨[], []⟩ (3 * chars.length + 3)) chars).map (·.entries)

end Toml

end CInterop
