import CInterop.Number.Binary

/-!
# Shortest decimal text

A binary number is written with the fewest decimal digits that read back as the same number. Of two
candidates with that many digits the nearer one is taken, and of two that are equally near the
larger.
-/

namespace CInterop.Number

/-- The decimal number `digits * 10 ^ exponent`. -/
structure Decimal where
  digits : Nat
  exponent : Int
  deriving DecidableEq, Repr

/-- The numbers that round to a binary number: those between `low / denominator` and
`high / denominator`, with the ends when `closed`. -/
structure Interval where
  low : Nat
  value : Nat
  high : Nat
  denominator : Nat
  closed : Bool

namespace Interval

/-- The interval of `significand * 2 ^ exponent`. The ends lie halfway to the neighbours; the lower
neighbour is nearer when the significand is a power of two that is not the least one. The ends
round to the number itself when its significand is even. -/
def around (f : Format) (significand : Nat) (exponent : Int) : Interval :=
  let below :=
    if significand = 1 <<< f.fractionBits && f.leastExponent < exponent then 1 else 2
  let shift := exponent - 2
  let scale := 1 <<< shift.toNat
  { low := (4 * significand - below) * scale
    value := 4 * significand * scale
    high := (4 * significand + 2) * scale
    denominator := 1 <<< (-shift).toNat
    closed := significand % 2 = 0 }

/-- Whether `numerator / divisor` lies in the interval. -/
def holds (i : Interval) (numerator divisor : Nat) : Bool :=
  let number := numerator * i.denominator
  if i.closed then i.low * divisor ≤ number && number ≤ i.high * divisor
  else i.low * divisor < number && number < i.high * divisor

/-- The multiple of `10 ^ exponent` that stands for the interval: of the two that are next to the
value, the nearer that lies inside. -/
def onGrid (i : Interval) (exponent : Int) : Option Decimal :=
  let up := Nat.pow 10 exponent.toNat
  let down := Nat.pow 10 (-exponent).toNat
  let dividend := i.value * down
  let divisor := i.denominator * up
  let quotient := dividend / divisor
  let inside (digits : Nat) := i.holds (digits * up) down
  -- A tie goes to the larger neighbour.
  let nearestFirst :=
    if 2 * (dividend % divisor) < divisor then [quotient, quotient + 1]
    else [quotient + 1, quotient]
  (nearestFirst.find? inside).map (⟨·, exponent⟩)

end Interval

/-- The number of decimal digits of a number, at least one. -/
def digitCount (n : Nat) : Nat := (Nat.toDigits 10 n).length

/-- The decimal exponent of the first digit of `value / denominator`. -/
def leadingExponent (value denominator : Nat) : Int :=
  if denominator ≤ value then (digitCount (value / denominator) : Int) - 1
  else
    let guess := digitCount (denominator / value)
    if denominator ≤ value * Nat.pow 10 (guess - 1) then 1 - (guess : Int) else -(guess : Int)

/-- Tries grids with ever more digits after the leading one. -/
def onGrids (i : Interval) (leading : Int) : Nat → Nat → Option Decimal
  | 0, _ => none
  | tries + 1, digits =>
    match i.onGrid (leading - digits) with
    | some decimal => some decimal
    | none => onGrids i leading tries (digits + 1)

/-- The shortest decimal for `significand * 2 ^ exponent`. Seventeen digits always suffice. -/
def shortest (f : Format) (significand : Nat) (exponent : Int) : Decimal :=
  let i := Interval.around f significand exponent
  (onGrids i (leadingExponent i.value i.denominator) 20 0).getD ⟨significand, 0⟩

namespace Decimal

/-- The digits of a decimal without the zeros at its end, and the exponent of the first digit. -/
def normal (d : Decimal) : List Char × Int :=
  let digits := Nat.toDigits 10 d.digits
  let kept := (digits.reverse.dropWhile (· = '0')).reverse
  (kept, d.exponent + digits.length - 1)

end Decimal

/-- Digits with the point after the digit of exponent 0. `whole` is what is written after a number
that has no digits behind the point. -/
def positional (digits : List Char) (leading : Int) (whole : String) : String :=
  if leading < 0 then
    "0." ++ String.ofList (List.replicate (-leading - 1).toNat '0' ++ digits)
  else
    let before := leading.toNat + 1
    let integer := digits.take before ++ List.replicate (before - digits.length) '0'
    let behind := digits.drop before
    String.ofList integer ++ if behind.isEmpty then whole else "." ++ String.ofList behind

/-- Digits with the point after the first one, and the exponent after `e`. -/
def scientific (digits : List Char) (leading : Int) : String :=
  let behind := digits.drop 1
  let mantissa :=
    String.ofList (digits.take 1) ++ if behind.isEmpty then "" else "." ++ String.ofList behind
  s!"{mantissa}e{leading}"

/-- How a floating-point number is written. -/
structure TextStyle where
  /-- What is written after a number without digits behind the point. -/
  whole : String
  /-- The leading exponents that are written positionally; all of them when there is no range. -/
  positionalRange : Option (Int × Int)

/-- The style of a value on its own: always positional, and whole numbers without a point. -/
def TextStyle.plain : TextStyle := ⟨"", none⟩

/-- The style of a value in a report: whole numbers end in `.0`, and numbers below `10 ^ -4` or
from `10 ^ 16` on have an exponent. -/
def TextStyle.report : TextStyle := ⟨".0", some (-4, 15)⟩

/-- The text of a floating-point number. -/
def text (style : TextStyle) (f : Format) (word : Nat) : String :=
  match f.datum word with
  | .nan => "NaN"
  | .infinity negative => if negative then "-inf" else "inf"
  | .finite negative significand exponent =>
    let sign := if negative then "-" else ""
    if significand = 0 then sign ++ "0" ++ style.whole
    else
      let (digits, leading) := (shortest f significand exponent).normal
      let fixed := match style.positionalRange with
        | none => true
        | some (first, last) => first ≤ leading && leading ≤ last
      sign ++ if fixed then positional digits leading style.whole else scientific digits leading

end CInterop.Number
