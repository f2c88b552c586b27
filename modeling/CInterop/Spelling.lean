import CInterop.CType
import CInterop.Platform
import CInterop.Text.Blank
import CInterop.Word

/-!
# Names of types

A name is read in two steps. `TypeExpr.ofString` finds the form that is written, which needs no
knowledge of the types that exist: a primitive, a pointer (`T*` or `POINTER(T)`), an array (`T[N]`)
or a name that someone has to have defined. A registry then gives each form its type.

White space is not significant beyond separating words: runs of it count as one space, and none
is left in front of `*`.
-/

namespace CInterop

/-- The primitive C types. -/
inductive Primitive where
  | void
  | bool
  | int8
  | uint8
  | int16
  | uint16
  | int32
  | uint32
  | int64
  | uint64
  | int128
  | uint128
  | long
  | ulong
  | sizeT
  | ssizeT
  | float
  | double
  | wchar
  | pointer
  | cstring
  | wstring
  deriving DecidableEq, Repr

namespace Primitive

/-- The name that a primitive is known by. -/
def canonicalName : Primitive → String
  | void => "void"
  | bool => "bool"
  | int8 => "int8"
  | uint8 => "uint8"
  | int16 => "int16"
  | uint16 => "uint16"
  | int32 => "int32"
  | uint32 => "uint32"
  | int64 => "int64"
  | uint64 => "uint64"
  | int128 => "int128"
  | uint128 => "uint128"
  | long => "long"
  | ulong => "ulong"
  | sizeT => "size_t"
  | ssizeT => "ssize_t"
  | float => "float"
  | double => "double"
  | wchar => "wchar_t"
  | pointer => "void*"
  | cstring => "char*"
  | wstring => "wchar_t*"

/-- Every spelling of a primitive, in the form that names are brought to before they are looked
up. -/
def spellings : List (String × Primitive) :=
  [("void", void), ("bool", bool), ("_Bool", bool),
    ("int8", int8), ("int8_t", int8), ("char", int8), ("signed char", int8),
    ("uint8", uint8), ("uint8_t", uint8), ("uchar", uint8), ("unsigned char", uint8),
    ("byte", uint8),
    ("int16", int16), ("int16_t", int16), ("short", int16),
    ("uint16", uint16), ("uint16_t", uint16), ("ushort", uint16), ("unsigned short", uint16),
    ("int32", int32), ("int32_t", int32), ("int", int32),
    ("uint32", uint32), ("uint32_t", uint32), ("uint", uint32), ("unsigned int", uint32),
    ("unsigned", uint32),
    ("int64", int64), ("int64_t", int64), ("long long", int64), ("longlong", int64),
    ("uint64", uint64), ("uint64_t", uint64), ("unsigned long long", uint64),
    ("ulonglong", uint64),
    ("int128", int128), ("int128_t", int128), ("__int128", int128),
    ("uint128", uint128), ("uint128_t", uint128), ("unsigned __int128", uint128),
    ("long", long), ("c_long", long),
    ("ulong", ulong), ("unsigned long", ulong), ("c_ulong", ulong),
    ("size_t", sizeT), ("ssize_t", ssizeT), ("float", float), ("double", double),
    ("wchar", wchar), ("wchar_t", wchar),
    ("pointer", pointer), ("void*", pointer), ("ptr", pointer),
    ("string", cstring), ("char*", cstring), ("cstring", cstring),
    ("wstring", wstring), ("wchar_t*", wstring)]

/-- The type of a primitive on a platform; integers of 128 bits have none. No alignment is less than
one, whatever the platform says. -/
def type? (platform : Platform) (primitive : Primitive) : Option CType :=
  let name := primitive.canonicalName
  let long (signed : Bool) :=
    CType.int name platform.long signed
      (if platform.long = .w64 then max 1 platform.int64Align else platform.long.bytes)
  match primitive with
  | void => some .void
  | bool => some .bool
  | int8 => some (.natural name .w8 true)
  | uint8 => some (.natural name .w8 false)
  | int16 => some (.natural name .w16 true)
  | uint16 => some (.natural name .w16 false)
  | int32 => some (.natural name .w32 true)
  | uint32 => some (.natural name .w32 false)
  | int64 => some (.int name .w64 true (max 1 platform.int64Align))
  | uint64 => some (.int name .w64 false (max 1 platform.int64Align))
  | int128 | uint128 => none
  | .long => some (long true)
  | ulong => some (long false)
  | sizeT => some (.natural name platform.pointer false)
  | ssizeT => some (.natural name platform.pointer true)
  | float => some (.float .single 4)
  | double => some (.float .double (max 1 platform.doubleAlign))
  | wchar => some (.wide platform.wchar)
  | pointer => some (.pointer .untyped platform.pointer)
  | cstring => some (.pointer .cstring platform.pointer)
  | wstring => some (.pointer (.wstring platform.wchar) platform.pointer)

end Primitive

namespace Spelling

/-- Drops each space that stands right before a `*`. -/
def glueStars : List Char → List Char
  | [] => []
  | ' ' :: '*' :: rest => '*' :: glueStars rest
  | c :: rest => c :: glueStars rest

/-- The form in which names are compared: words separated by one space, stars glued to what they
follow. -/
def normalize (name : List Char) : List Char :=
  glueStars (List.intercalate [' '] (Text.words name))

/-- What follows a leading text, if it is there. -/
def afterLead (lead text : List Char) : Option (List Char) :=
  if lead.isPrefixOf text then some (text.drop lead.length) else none

/-- What precedes a last character, if it is there. -/
def beforeLast (last : Char) (text : List Char) : Option (List Char) :=
  if text.getLast? = some last then some text.dropLast else none

/-- The parts of a text before and after the last occurrence of a character. -/
def splitAtLast (c : Char) (text : List Char) : Option (List Char × List Char) :=
  match text.reverse.span (· != c) with
  | (_, []) => none
  | (after, _ :: before) => some (before.reverse, after.reverse)

/-- A count in decimal digits, after an optional sign; it has to fit a word. -/
def count? (text : List Char) : Option Nat :=
  let digits := match text with
    | '+' :: rest => rest
    | _ => text
  if digits.isEmpty || !digits.all Char.isDigit then none
  else
    let value := digits.foldl (fun value digit => 10 * value + (digit.toNat - '0'.toNat)) 0
    if value < Word.modulus then some value else none

/-- The element name and the count of an array spelling. -/
def array? (text : List Char) : Option (List Char × Nat) := do
  let (element, rest) ← splitAtLast '[' text
  let inside ← beforeLast ']' rest
  let count ← count? (Text.trim inside)
  pure (element, count)

end Spelling

/-- The form of a type name. -/
inductive TypeExpr where
  | primitive (primitive : Primitive)
  | pointer (target : TypeExpr)
  | array (element : TypeExpr) (count : Nat)
  /-- A name to be looked up under its normal form; failures show it as it was written. -/
  | named (written normal : String)
  deriving DecidableEq, Repr

namespace TypeExpr

open Spelling

/-- The primitive with this spelling, given in normal form. -/
def primitive? (normal : List Char) : Option Primitive :=
  Primitive.spellings.lookup (String.ofList normal)

/-- The form of a name. Each step reads a shorter name, so `fuel` above the length of the name is
never used up. -/
def read : Nat → List Char → TypeExpr
  | 0, written => named (String.ofList written) (String.ofList (normalize written))
  | fuel + 1, written =>
    let normal := normalize written
    match primitive? normal with
    | some found => primitive found
    | none =>
      match afterLead "POINTER(".toList normal |>.bind (beforeLast ')') with
      | some target => pointer (read fuel target)
      | none =>
        match beforeLast '*' normal with
        | some target => pointer (read fuel target)
        | none =>
          match array? normal with
          | some (element, count) => array (read fuel element) count
          | none => named (String.ofList written) (String.ofList normal)

/-- The form of a name. -/
def ofString (name : String) : TypeExpr := read (name.length + 1) name.toList

end TypeExpr

/-- The primitive with this name, whatever its spacing. -/
def Primitive.ofName? (name : String) : Option Primitive :=
  TypeExpr.primitive? (Spelling.normalize name.toList)

end CInterop
