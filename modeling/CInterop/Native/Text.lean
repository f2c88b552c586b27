import CInterop.Native

/-!
# Native functions on text and arrays
-/

namespace CInterop.Native

/-- A letter of the alphabet without its case. -/
def upper (byte : UInt8) : UInt8 := if 97 ≤ byte && byte ≤ 122 then byte - 32 else byte

/-- The number of wide characters before the terminator. -/
def wideLength (heap : Heap) (address : UInt64) : Nat := (heap.wideTextAt 4 address).length / 4

/-- Whether a byte is white space in plain text. -/
def isSpace (byte : UInt8) : Bool := byte == 32 || (9 ≤ byte && byte ≤ 13)

def isDigit (byte : UInt8) : Bool := 48 ≤ byte && byte ≤ 57

/-- The number that a text begins with, after white space and a sign; it is cut to the signed words.
-/
def leadingInt (text : Bytes) : Int64 :=
  let text := text.dropWhile isSpace
  let (negative, digits) := match text with
    | 45 :: rest => (true, rest)
    | 43 :: rest => (false, rest)
    | _ => (false, text)
  let magnitude : Int :=
    (digits.takeWhile isDigit).foldl (fun value digit => 10 * value + (digit.toNat - 48)) 0
  let value := if negative then -magnitude else magnitude
  .ofInt (max Word.minSigned (min value Word.maxSigned))

/-- The upper case of a character code. Codes below -1 stand for bytes with the highest bit set. -/
def upperCode (c : Int64) : Int64 :=
  if 97 ≤ c && c ≤ 122 then c - 32
  else if -128 ≤ c && c < -1 then c + 256
  else c

/-- The bytes of a text of characters below 128. -/
def ascii (text : String) : Bytes := text.toList.map fun c => .ofNat c.toNat

/-- A word in sixteen hexadecimal digits. -/
def hexWord (word : UInt64) : Bytes :=
  let digits := Nat.toDigits 16 word.toNat
  ascii (String.ofList (List.replicate (16 - digits.length) '0' ++ digits))

/-- The text of an argument of some kind. -/
def formatted (heap : Heap) (kind : Char) (word : UInt64) : Bytes :=
  match kind with
  | 'i' => ascii s!"{(signedOf 32 word).toInt};"
  | 'u' => ascii s!"{(word &&& Bits.mask 32).toNat};"
  | 'I' => ascii s!"{word.toInt64.toInt};"
  | 'U' => ascii s!"{word.toNat};"
  | 'd' => hexWord word ++ ascii ";"
  | 's' =>
    if word = 0 then ascii "[NULL];" else ascii "[" ++ heap.textAt word ++ ascii "];"
  | _ => ascii (if word = 0 then "null;" else "ptr;")

/-- The kinds of arguments that are known. -/
def kinds : List Char := ['i', 'u', 'I', 'U', 'd', 's', 'p']

/-- The text of arguments, each of the kind that is written for it; a kind that is not known takes
no argument. -/
def format (heap : Heap) : List Char → List Bytes → Bytes
  | [], _ => []
  | kind :: rest, args =>
    if kinds.contains kind then formatted heap kind (word args 0) ++ format heap rest (args.drop 1)
    else ascii "?;" ++ format heap rest args

/-- Writes as much of a text as fits into a buffer with its terminator. -/
def writeBounded (buffer : UInt64) (capacity : Nat) (text : Bytes) : StateM Heap Unit := do
  unless capacity = 0 do
    onMemory (·.store buffer.toNat (text.take (capacity - 1) ++ [0]))

/-- The sum of signed integers of 32 bits in memory. -/
def sumAt (heap : Heap) (address : UInt64) (count : Nat) : UInt64 :=
  (List.range count).foldl
    (fun sum i => sum + heap.memory.loadWord (address.toNat + 4 * i) 4) 0

/-- Functions on text. -/
def texts : List (String × Native) :=
  [("n_len", leaf fun args => do return result64 (.ofNat ((← get).textAt (word args 0)).length)),
    ("strlen", leaf fun args => do return result64 (.ofNat ((← get).textAt (word args 0)).length)),
    ("n_wlen", leaf fun args => do return result64 (.ofNat (wideLength (← get) (word args 0)))),
    ("atoi", leaf fun args => do return resultInt (leadingInt ((← get).textAt (word args 0)))),
    ("toupper", ofPure fun args => resultInt (upperCode (int32 args 0))),
    ("n_greeting", leaf fun _ => do return result64 (← static 0 (ascii "hi there" ++ [0]))),
    ("n_nothing", ofPure fun _ => result64 0),
    ("n_wnothing", ofPure fun _ => result64 0),
    ("n_bad_utf8", leaf fun _ => do
      return result64 (← static 1 [0x61, 0xFF, 0xFE, 0xE2, 0x82, 0x7A, 0])),
    ("n_wgreeting", leaf fun _ => do
      let units := [0x77, 0xED, 0x64, 0x1F600, 0x110000, 0xD800, 0x21, 0]
      return result64 (← static 2 (units.flatMap (Text.Wide.unitBytes 4)))),
    ("n_echo_str", ofPure fun args => result64 (word args 0)),
    ("n_upcase", leaf fun args => do
      let text := (← get).textAt (word args 0)
      onMemory (·.store (word args 0).toNat (text.map upper))
      return []),
    ("n_vfmt", leaf fun args => do
      let heap ← get
      let kinds := (heap.textAt (word args 2)).map fun byte => Char.ofNat byte.toNat
      let text := format heap kinds (args.drop 3)
      writeBounded (word args 0) (count args 1) text
      return result32 (.ofNat text.length))]

/-- Functions on arrays and addresses. -/
def arrays : List (String × Native) :=
  [("n_double_into", leaf fun args => do
      onMemory (·.store (word args 0).toNat (resultInt (2 * int32 args 1)))
      return []),
    ("n_sum3", leaf fun args => do return result32 (sumAt (← get) (word args 0) 3)),
    ("n_sumn", leaf fun args => do return result32 (sumAt (← get) (word args 0) (count args 1))),
    ("n_vsum", ofPure fun args =>
      let items := (args.drop 1).take (int32 args 0).toInt.toNat
      result32 (items.foldl (fun sum item => sum + Bytes.toWord (item.take 8)) 0)),
    ("n_echo_ptr", ofPure fun args => result64 (word args 0)),
    ("n_is_null", ofPure fun args => result32 (if word args 0 = 0 then 1 else 0)),
    ("n_table", leaf fun _ => do return result64 (← static 3 (int32s [41, 42, 43, 44]))),
    ("n_pt_table", leaf fun _ => do return result64 (← static 4 (int32s [1, 2, 3, 4]))),
    ("n_fill", leaf fun args => do
      onMemory (·.fill (word args 0).toNat (count args 1) (word args 2).toUInt8)
      return [])]

end CInterop.Native
