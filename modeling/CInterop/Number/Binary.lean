/-!
# Binary floating-point numbers

A floating-point number is held as its word, in one of two formats. `Format.datum` reads a word;
`Format.round` gives the word nearest to a number, with ties to the even neighbour, and every
operation is exact arithmetic on integers followed by one rounding.
-/

namespace CInterop.Number

/-- A binary interchange format: the bits of the significand, the leading one included, and the
bits of the exponent. -/
structure Format where
  precision : Nat
  exponentBits : Nat
  deriving DecidableEq, Repr

/-- The format of 32 bits. -/
def binary32 : Format := ⟨24, 8⟩

/-- The format of 64 bits. -/
def binary64 : Format := ⟨53, 11⟩

/-- What a word stands for: not a number, an infinity, or the number `significand * 2 ^ exponent`
with its sign, so that there are two zeros. -/
inductive Datum where
  | nan
  | infinity (negative : Bool)
  | finite (negative : Bool) (significand : Nat) (exponent : Int)
  deriving DecidableEq, Repr

namespace Format

/-- The number of fraction bits, which lie lowest in a word. -/
def fractionBits (f : Format) : Nat := f.precision - 1

/-- The exponent field of infinities and of what is not a number. -/
def specialField (f : Format) : Nat := (1 <<< f.exponentBits) - 1

/-- The exponent of the least positive number. -/
def leastExponent (f : Format) : Int :=
  3 - (1 <<< (f.exponentBits - 1) : Nat) - f.precision

/-- The word of the positive infinity. -/
def infinityWord (f : Format) : Nat := f.specialField <<< f.fractionBits

/-- The word in which only the sign is set. -/
def signWord (f : Format) : Nat := 1 <<< (f.fractionBits + f.exponentBits)

/-- The word of what is not a number when an operation has no better one. -/
def nanWord (f : Format) : Nat := f.infinityWord + (1 <<< (f.fractionBits - 1))

def isNegative (f : Format) (word : Nat) : Bool := word / f.signWord % 2 = 1

def exponentField (f : Format) (word : Nat) : Nat :=
  (word >>> f.fractionBits) % (1 <<< f.exponentBits)

def fraction (f : Format) (word : Nat) : Nat := word % (1 <<< f.fractionBits)

/-- What a word stands for. -/
def datum (f : Format) (word : Nat) : Datum :=
  let field := f.exponentField word
  let fraction := f.fraction word
  let negative := f.isNegative word
  if field = f.specialField then
    if fraction = 0 then .infinity negative else .nan
  else if field = 0 then .finite negative fraction f.leastExponent
  else .finite negative ((1 <<< f.fractionBits) + fraction) (f.leastExponent + (field - 1))

/-- A quotient rounded to the nearest integer, ties to the even one. -/
def roundHalfEven (dividend divisor : Nat) : Nat :=
  let quotient := dividend / divisor
  let twice := 2 * (dividend % divisor)
  if twice < divisor then quotient
  else if divisor < twice then quotient + 1
  else quotient + quotient % 2

/-- The word of the number nearest to `significand * 2 ^ exponent`. A significand that rounds up to
the next power of two carries into the exponent field, up to the infinity. -/
def roundMagnitude (f : Format) (significand : Nat) (exponent : Int) : Nat :=
  if significand = 0 then 0
  else
    -- The unit in the last place: the bits below it are rounded away.
    let length : Int := significand.log2 + 1
    let unit := max (exponent + length - f.precision) f.leastExponent
    let kept :=
      if unit ≤ exponent then significand <<< (exponent - unit).toNat
      else roundHalfEven significand (1 <<< (unit - exponent).toNat)
    -- The leading bit of a normal number adds one to the exponent field.
    let word := ((unit - f.leastExponent).toNat <<< f.fractionBits) + kept
    min word f.infinityWord

/-- The word of a signed number. -/
def round (f : Format) (negative : Bool) (significand : Nat) (exponent : Int) : Nat :=
  (if negative then f.signWord else 0) + f.roundMagnitude significand exponent

/-- The word nearest to an integer. -/
def ofInt (f : Format) (i : Int) : Nat := f.round (i < 0) i.natAbs 0

/-- The word that stands for a datum. -/
def ofDatum (f : Format) : Datum → Nat
  | .nan => f.nanWord
  | .infinity negative => (if negative then f.signWord else 0) + f.infinityWord
  | .finite negative significand exponent => f.round negative significand exponent

/-- The word in format `g` nearest to the number of a word in format `f`. What is not a number
keeps its sign and the leading bits of its fraction, and is made quiet. -/
def convert (f g : Format) (word : Nat) : Nat :=
  match f.datum word with
  | .nan =>
    let sign := if f.isNegative word then g.signWord else 0
    let payload := (f.fraction word <<< g.fractionBits) >>> f.fractionBits
    sign + g.infinityWord + (payload ||| 1 <<< (g.fractionBits - 1))
  | datum => g.ofDatum datum

/-- What is not a number, made quiet. -/
def quiet (f : Format) (word : Nat) : Nat := f.convert f word

/-- The word that stands for the result of an operation that has none. -/
def invalidWord (f : Format) : Nat := f.signWord + f.nanWord

/-- Whether two words stand for equal numbers: the zeros are equal, and what is not a number equals
nothing. -/
def equal (f : Format) (a b : Nat) : Bool :=
  match f.datum a, f.datum b with
  | .nan, _ => false
  | _, .nan => false
  | .finite _ 0 _, .finite _ 0 _ => true
  | _, _ => a = b

/-- The exact number `significand * 2 ^ exponent` as an integer multiple of a smaller power. -/
def scaled (negative : Bool) (significand : Nat) (exponent unit : Int) : Int :=
  let magnitude : Nat := significand <<< (exponent - unit).toNat
  if negative then -magnitude else magnitude

/-- The sum of two numbers, rounded. A sum of zero is negative only if both numbers are. The first
operand that is not a number is the result. -/
def add (f : Format) (a b : Nat) : Nat :=
  match f.datum a, f.datum b with
  | .nan, _ => f.quiet a
  | _, .nan => f.quiet b
  | .infinity s, .infinity t => if s = t then a else f.invalidWord
  | .infinity _, _ => a
  | _, .infinity _ => b
  | .finite s m e, .finite t n d =>
    let unit := min e d
    let sum := scaled s m e unit + scaled t n d unit
    if sum = 0 then f.round (s && t) 0 0 else f.round (sum < 0) sum.natAbs unit

/-- The product of two numbers, rounded. The first operand that is not a number is the result. -/
def multiply (f : Format) (a b : Nat) : Nat :=
  match f.datum a, f.datum b with
  | .nan, _ => f.quiet a
  | _, .nan => f.quiet b
  | .infinity s, .infinity t => f.ofDatum (.infinity (s != t))
  | .infinity s, .finite t n _ => if n = 0 then f.invalidWord else f.ofDatum (.infinity (s != t))
  | .finite s m _, .infinity t => if m = 0 then f.invalidWord else f.ofDatum (.infinity (s != t))
  | .finite s m e, .finite t n d => f.round (s != t) (m * n) (e + d)

/-- The integer part of a number; nothing when it is not finite. -/
def truncate? (f : Format) (word : Nat) : Option Int :=
  match f.datum word with
  | .finite negative significand exponent =>
    let magnitude : Nat :=
      if 0 ≤ exponent then significand <<< exponent.toNat
      else significand >>> (-exponent).toNat
    some (if negative then -magnitude else magnitude)
  | _ => none

end Format

end CInterop.Number
