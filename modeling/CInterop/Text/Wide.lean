import CInterop.Text.Utf8

/-!
# Wide text

Wide text is a run of units of two or four bytes that ends at a zero unit. Units of two bytes hold
UTF-16; units of any other size are read as UTF-32 in four bytes. Units that are no character are
read as the replacement character.
-/

namespace CInterop.Text.Wide

/-- The units of a character in UTF-16. -/
def utf16 (c : Char) : List Nat :=
  let n := c.toNat
  if n < 0x10000 then [n]
  else [0xD800 + (n - 0x10000) / 0x400, 0xDC00 + (n - 0x10000) % 0x400]

/-- The bytes of a unit. -/
def unitBytes (size : Nat) (unit : Nat) : Bytes :=
  Bytes.ofWord (if size = 2 then 2 else 4) (.ofNat unit)

/-- The units of a text, without a terminator. -/
def units (size : Nat) (text : String) : List Nat :=
  if size = 2 then text.toList.flatMap utf16 else text.toList.map Char.toNat

/-- The bytes of a text and of the zero unit that ends it. -/
def encode (size : Nat) (text : String) : Bytes :=
  (units size text ++ [0]).flatMap (unitBytes size)

/-- The units of two bytes that some bytes hold; a last odd byte is dropped. -/
def pairs : Bytes → List Nat
  | a :: b :: rest => (Bytes.toWord [a, b]).toNat :: pairs rest
  | _ => []

/-- The units of four bytes that some bytes hold; what is left over is dropped. -/
def quads : Bytes → List Nat
  | a :: b :: c :: d :: rest => (Bytes.toWord [a, b, c, d]).toNat :: quads rest
  | _ => []

def isHighSurrogate (unit : Nat) : Bool := 0xD800 ≤ unit && unit < 0xDC00

def isLowSurrogate (unit : Nat) : Bool := 0xDC00 ≤ unit && unit < 0xE000

/-- The character with this code point. -/
def scalar (n : Nat) : Char := if n.isValidChar then Char.ofNat n else Utf8.replacement

/-- The character of two surrogates. -/
def joined (high low : Nat) : Char :=
  Char.ofNat (0x10000 + (high - 0xD800) * 0x400 + (low - 0xDC00))

/-- Reads UTF-16; surrogates that are not paired are no character. -/
def decodeUtf16 : List Nat → List Char
  | [] => []
  | [unit] => [scalar unit]
  | high :: low :: rest =>
    if isHighSurrogate high && isLowSurrogate low then joined high low :: decodeUtf16 rest
    else scalar high :: decodeUtf16 (low :: rest)

/-- The text up to the first zero unit, or to the end of the bytes. -/
def decode (size : Nat) (bytes : Bytes) : String :=
  String.ofList <|
    if size = 2 then decodeUtf16 ((pairs bytes).takeWhile (· != 0))
    else ((quads bytes).takeWhile (· != 0)).map scalar

end CInterop.Text.Wide
