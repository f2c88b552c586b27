import CInterop.Native

/-!
# Native functions on numbers and small structs

Integer arithmetic wraps around at the width of the type.
-/

namespace CInterop.Native

open Number

/-- A floating-point number without its fraction, as a signed word; the least one when it does not
fit. -/
def truncated (format : Format) (word : UInt64) : Int64 :=
  match format.truncate? word.toNat with
  | some i => if Word.fitsSigned i then .ofInt i else .minValue
  | none => .minValue

/-- The weighted sum of arguments of all widths. -/
def mix (args : List Bytes) : Int64 :=
  let signed (width i : Nat) := signedOf width (word args i)
  let unsigned (width i : Nat) := (word args i &&& Bits.mask width).toInt64
  signed 8 0 + 2 * unsigned 8 1 + 3 * signed 16 2 + 4 * unsigned 16 3 + 5 * signed 32 4
    + 6 * unsigned 32 5 + 7 * (word args 6).toInt64 + 8 * (word args 7).toInt64
    + 9 * truncated binary32 (word args 8 &&& Bits.mask 32) + 10 * truncated binary64 (word args 9)

/-- The half of a number. -/
def half (word : UInt64) : UInt64 :=
  .ofNat (binary32.multiply word.toNat (binary32.round false 1 (-1)))

/-- The product of a double and a narrower number. -/
def scaled (x f : UInt64) : UInt64 :=
  .ofNat (binary64.multiply x.toNat (binary32.convert binary64 f.toNat))

/-- Sums, negations and other functions of numbers. -/
def arithmetic : List (String × Native) :=
  [("n_add", ofPure fun args => result32 (word args 0 + word args 1)),
    ("n_add64", ofPure fun args => result64 (word args 0 + word args 1)),
    ("n_addu", ofPure fun args => result32 (word args 0 + word args 1)),
    ("n_big", ofPure fun _ => result64 (-2)),
    ("n_neg8", ofPure fun args => Bytes.ofWord 1 (-(word args 0))),
    ("n_neg16", ofPure fun args => Bytes.ofWord 2 (-(word args 0))),
    ("n_inc8", ofPure fun args => Bytes.ofWord 1 (word args 0 + 1)),
    ("n_inc16", ofPure fun args => Bytes.ofWord 2 (word args 0 + 1)),
    ("n_is_even", ofPure fun args => resultBool (word args 0 % 2 = 0)),
    ("n_not", ofPure fun args => resultBool (word args 0 &&& 0xFF = 0)),
    ("n_scale", ofPure fun args =>
      result64 (scaled (word args 0) (word args 1 &&& Bits.mask 32))),
    ("n_halff", ofPure fun args => result32 (half (word args 0 &&& Bits.mask 32))),
    ("n_neg", ofPure fun args => result64 (word args 0 ^^^ 0x8000000000000000)),
    ("n_void", ofPure fun _ => []),
    ("n_mix", ofPure fun args => result64 (mix args).toUInt64),
    ("abs", ofPure fun args =>
      let x := int32 args 0
      resultInt (if x < 0 then -x else x)),
    ("labs", ofPure fun args =>
      let x := (word args 0).toInt64
      result64 (if x < 0 then -x else x).toUInt64)]

/-! ## Structs -/

/-- The bytes of a struct of two bit-field units, an integer and two nibbles, after the fields were
exchanged. -/
def exchangeBits (v : Bytes) (x : Int64) : Bytes :=
  let a := part v 0 4
  let b := part v 4 4
  let n := signedOf 32 (part v 8 4) + x
  let nibbles := part v 12 1
  let r := part v 13 1
  Bytes.ofWord 4 (Bits.replace a 0 3 b)
    ++ Bytes.ofWord 4 (Bits.replace b 0 30 (Bits.extract a 0 3))
    ++ Bytes.ofWord 4 n.toUInt64
    ++ Bytes.ofWord 1 (nibbles >>> 4 ||| nibbles <<< 4)
    ++ Bytes.ofWord 1 (r + 1) ++ (v.drop 14).take 2

/-- Functions that take or give small structs. -/
def structs : List (String × Native) :=
  [("n_pt_sum", ofPure fun args =>
      result32 (part (bytes args 0) 0 4 + part (bytes args 0) 4 4)),
    ("n_pt_make", ofPure fun args => result32 (word args 0) ++ result32 (word args 1)),
    ("n_pt_swap", ofPure fun args =>
      (bytes args 0).drop 4 ++ (bytes args 0).take 4),
    ("n_mixed", ofPure fun args =>
      let v := bytes args 0
      Bytes.ofWord 1 (part v 0 1 + 1) ++ (v.drop 1).take 7
        ++ result64 (.ofNat (binary64.add (part v 8 8).toNat (part v 8 8).toNat))),
    ("n_big_rot", ofPure fun args => (bytes args 0).drop 8 ++ (bytes args 0).take 8),
    ("n_line_rev", ofPure fun args => (bytes args 0).drop 8 ++ (bytes args 0).take 8),
    ("n_arr_rev", ofPure fun args =>
      let v := bytes args 0
      (v.drop 4).take 2 ++ (v.drop 2).take 2 ++ v.take 2),
    ("n_fl_neg", ofPure fun args =>
      [0, 4, 8].flatMap fun offset => result32 (part (bytes args 0) offset 4 ^^^ 0x80000000)),
    ("n_bits_sum", ofPure fun args =>
      let v := word args 0
      result32 (Bits.extract v 0 3 + Bits.extract v 3 5 + Bits.extract v 8 24)),
    ("n_bits_arg", ofPure fun args =>
      let c := (Bits.extract (word args 0) 8 24).toInt64
      result64 (c * 1000000 + int32 args 1 * 1000 + int32 args 2).toUInt64),
    ("n_bits2", ofPure fun args => exchangeBits (bytes args 0) (int32 args 1))]

end CInterop.Native
