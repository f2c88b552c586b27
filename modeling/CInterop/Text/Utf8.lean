import CInterop.Memory

/-!
# UTF-8

Text is stored in UTF-8. Bytes that were written by someone else need not be UTF-8; they are read
leniently: every longest run of bytes that begins a character but does not complete it is read as
one replacement character.
-/

namespace CInterop.Text.Utf8

/-- What stands for bytes that are not a character. -/
def replacement : Char := '\uFFFD'

/-- The bytes of a text. -/
def encode (text : String) : Bytes := text.toList.flatMap String.utf8EncodeChar

/-- A character of which some bytes were read: the bits so far, the number of bytes that are
missing, and the bounds of the next one. -/
structure Partial where
  bits : Nat
  missing : Nat
  low : UInt8
  high : UInt8
  deriving DecidableEq, Repr

/-- How a character begins. -/
inductive Start where
  | whole (c : Char)
  | lead (rest : Partial)
  | bad
  deriving DecidableEq, Repr

/-- Reads the first byte of a character. The bounds of the second byte leave out surrogates, code
points that are too large, and spellings that are longer than needed. -/
def start (byte : UInt8) : Start :=
  let n := byte.toNat
  if n < 0x80 then .whole (Char.ofNat n)
  else if n < 0xC2 then .bad
  else if n < 0xE0 then .lead ⟨n - 0xC0, 1, 0x80, 0xBF⟩
  else if n = 0xE0 then .lead ⟨0, 2, 0xA0, 0xBF⟩
  else if n = 0xED then .lead ⟨n - 0xE0, 2, 0x80, 0x9F⟩
  else if n < 0xF0 then .lead ⟨n - 0xE0, 2, 0x80, 0xBF⟩
  else if n = 0xF0 then .lead ⟨0, 3, 0x90, 0xBF⟩
  else if n < 0xF4 then .lead ⟨n - 0xF0, 3, 0x80, 0xBF⟩
  else if n = 0xF4 then .lead ⟨n - 0xF0, 3, 0x80, 0x8F⟩
  else .bad

/-- Whether a byte continues a character. -/
def Partial.admits (p : Partial) (byte : UInt8) : Bool := p.low ≤ byte && byte ≤ p.high

/-- A character with one more byte read. -/
def Partial.extend (p : Partial) (byte : UInt8) : Partial :=
  ⟨64 * p.bits + byte.toNat % 64, p.missing - 1, 0x80, 0xBF⟩

/-- What is read for a character that was begun and is not completed. -/
def abandoned (begun : Option Partial) : List Char := if begun.isSome then [replacement] else []

/-- Reads bytes, in the middle of a character if one was begun. -/
def decodeFrom : Option Partial → Bytes → List Char
  | begun, [] => abandoned begun
  | begun, byte :: rest =>
    match begun.filter (·.admits byte) with
    | some p =>
      let p' := p.extend byte
      if p'.missing = 0 then Char.ofNat p'.bits :: decodeFrom none rest
      else decodeFrom (some p') rest
    | none =>
      abandoned begun ++ match start byte with
        | .whole c => c :: decodeFrom none rest
        | .lead p => decodeFrom (some p) rest
        | .bad => replacement :: decodeFrom none rest

/-- The text that some bytes stand for. -/
def decode (bytes : Bytes) : String := String.ofList (decodeFrom none bytes)

end CInterop.Text.Utf8
