/-!
# Ranges of bits

The lowest bits of a word, as an unsigned number or in two's complement, and fields of bits inside a
storage unit.
-/

namespace CInterop.Bits

/-- The bytes of the storage unit of a type of some size. Sizes that no integer has get the largest
unit. -/
def unitBytes (size : Nat) : Nat := if size = 1 || size = 2 || size = 4 then size else 8

/-- A word whose lowest `width` bits are set. -/
def mask (width : Nat) : UInt64 :=
  if 64 ≤ width then -1 else ((1 : UInt64) <<< UInt64.ofNat width) - 1

/-- The lowest `width` bits of a word in two's complement. -/
def signExtend (bits : UInt64) (width : Nat) : Int64 :=
  if 64 ≤ width || width = 0 then bits.toInt64
  else
    let shift : UInt64 := .ofNat (64 - width)
    (bits <<< shift).toInt64 >>> shift.toInt64

/-- The field of `width` bits from bit `offset` on. -/
def extract (unit : UInt64) (offset width : Nat) : UInt64 :=
  (unit >>> UInt64.ofNat offset) &&& mask width

/-- The unit with new bits in the field; those that do not fit the field are dropped. -/
def replace (unit : UInt64) (offset width : Nat) (bits : UInt64) : UInt64 :=
  let field := mask width <<< UInt64.ofNat offset
  (unit &&& ~~~field) ||| ((bits <<< UInt64.ofNat offset) &&& field)

end CInterop.Bits
