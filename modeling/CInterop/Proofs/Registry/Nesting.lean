import CInterop.Proofs.Built
import CInterop.Proofs.Layout.WellPlaced
import CInterop.Proofs.Outcome
import CInterop.Proofs.Sameness
import CInterop.Proofs.Spelling.Forms

/-!
# Names of nested types

The name of a pointer is that of its target with a star, the name of an array that of its element
with a count in brackets. Where the name of a type stands for the type (`Registry.Resolves`), so do
the names of the pointers to it and of the arrays of it, however they are nested
(`Registry.resolves_of_nested`). Pointers to characters are the exception: their name is that of the
string type (`resolves_pointerTo_iff`).
-/

namespace CInterop

open Spelling

namespace CType

variable {type other : CType}

theorem isVoid_iff : type.isVoid = true ↔ type = void := by
  cases type with
  | void => exact iff_of_true rfl rfl
  | _ => exact iff_of_false nofun nofun

theorem eq_of_same_void (same : (other == void) = true) : other = void := by
  cases other with
  | void => rfl
  | pointer target => cases target <;> cases same
  | _ => cases same

theorem eq_void_of_same (same : (void == type) = true) : type = void := by
  cases type with
  | void => rfl
  | _ => cases same

theorem isVoid_eq_of_same (same : (other == type) = true) : other.isVoid = type.isVoid := by
  rw [Bool.eq_iff_iff, isVoid_iff, isVoid_iff]
  exact ⟨fun void => eq_void_of_same (void ▸ same), fun void => eq_of_same_void (void ▸ same)⟩

/-- The integer types, which a truth value has none of. -/
def isInteger : CType → Bool
  | int .. | stray .. => true
  | _ => false

theorem isInteger_of_same (same : (other == type) = true) (integer : other.isInteger = true) :
    type.isInteger = true := by
  cases other with
  | int => cases type <;> first | rfl | cases same
  | stray => cases type <;> first | rfl | cases same
  | _ => cases integer

/-- An integer type for the characters of text, by its name. Spacing makes no difference to what a
name stands for. -/
def IsCharacter (type : CType) : Prop :=
  type.isInteger = true
    ∧ (normalize type.name.toList = "char".toList ∨ normalize type.name.toList = "wchar_t".toList)

theorem isInteger_wide (bytes : Nat) : (wide bytes).isInteger = true := by
  rcases wide_cases bytes with ⟨width, -, own⟩ | own <;> rw [own] <;> rfl

theorem name_wide (bytes : Nat) : (wide bytes).name = "wchar_t" := by
  rcases wide_cases bytes with ⟨width, -, own⟩ | own <;> rw [own] <;> rfl

theorem toList_name_array (element : CType) (count : Nat) :
    (array element count).name.toList
      = element.name.toList ++ '[' :: (Nat.toDigits 10 count ++ [']']) := by
  have written : (array element count).name = element.name ++ "[" ++ toString count ++ "]" := by
    rw [name]
    rfl
  rw [written]
  simp [String.toList_append, Nat.toString_eq_repr, Nat.toList_repr]

end CType

namespace Registry

variable {registry : Registry} {type target : CType}

/-! ## Names of primitives -/

theorem byName_of_primitive? {name : String} {primitive : Primitive}
    (spelled : TypeExpr.primitive? (normalize name.toList) = some primitive) :
    registry.byName name = registry.describe primitive := by
  rw [byName, TypeExpr.ofString_eq, TypeExpr.ofChars_eq, TypeExpr.step]
  simp only [spelled]
  rfl

theorem primitive?_canonicalName (primitive : Primitive) :
    TypeExpr.primitive? (normalize primitive.canonicalName.toList) = some primitive := by
  cases primitive <;> decide

theorem name_of_describe {primitive : Primitive}
    (described : registry.describe primitive = .ok type) : type.name = primitive.canonicalName := by
  unfold describe at described
  split at described
  case h_1 known =>
    cases described
    cases primitive <;> cases known <;> first | rfl | exact CType.name_wide _
  case h_2 => cases described

/-! ## Names that resolve -/

/-- The name of a type stands for the type, or for one that is the same. -/
def Resolves (registry : Registry) (type : CType) : Prop :=
  ∃ found, registry.byName type.name = .ok found ∧ (found == type) = true

theorem resolves_of_describe {primitive : Primitive}
    (described : registry.describe primitive = .ok type) : registry.Resolves type := by
  refine ⟨type, ?_, CType.same_refl type⟩
  rw [name_of_describe described, byName_of_primitive? (primitive?_canonicalName primitive)]
  exact described

/-- What a name stands for depends on its normal form alone. -/
theorem resolve_ofChars_congr {text other : List Char} (same : normalize text = normalize other)
    (found : registry.resolve (.ofChars text) = .ok type) :
    registry.resolve (.ofChars other) = .ok type := by
  rw [TypeExpr.ofChars_eq, TypeExpr.step, same] at found
  rw [TypeExpr.ofChars_eq, TypeExpr.step]
  split at found
  case h_1 => exact found
  split at found
  case h_1 => exact found
  split at found
  case h_1 => exact found
  split at found
  case h_1 => exact found
  -- Failures show the name as it was written, so that only what is found is the same.
  case h_2 =>
    unfold resolve at found ⊢
    split at found
    case h_1 => exact found
    case h_2 => cases found

/-! ## Stars and brackets -/

theorem byName_star {name : String} {found : CType} (known : registry.byName name = .ok found)
    (free : TypeExpr.primitive? (normalize name.toList ++ ['*']) = none) :
    registry.byName (name ++ "*") = .ok (registry.pointerTo found) := by
  have same : normalize (name ++ "*").toList = normalize name.toList ++ ['*'] := by
    rw [String.toList_append]
    exact normalize_append_star _
  have own := resolve_ofChars_congr (normalize_normalize _).symm known
  rw [byName, TypeExpr.ofString_eq, TypeExpr.ofChars_star same free, resolve, own]
  rfl

theorem byName_brackets {name : String} {found : CType} {count : Nat}
    (known : registry.byName name = .ok found) (word : count < Word.modulus) {written : String}
    (behind : written.toList = name.toList ++ '[' :: (Nat.toDigits 10 count ++ [']'])) :
    registry.byName written = array found count := by
  have digits : ∀ c ∈ Nat.toDigits 10 count, c.isDigit = true := fun c mem =>
    Nat.isDigit_of_mem_toDigits (by decide) (by decide) mem
  have solid : Text.IsWord ('[' :: (Nat.toDigits 10 count ++ [']'])) := by
    refine ⟨List.cons_ne_nil _ _, List.forall_mem_cons.mpr ⟨by decide, ?_⟩⟩
    exact List.forall_mem_append.mpr ⟨fun c mem => isBlank_of_isDigit (digits c mem),
      List.forall_mem_singleton.mpr (by decide)⟩
  obtain ⟨gap, free, same⟩ := exists_normalize_append name.toList solid (by simp)
  have last : '[' ∉ Nat.toDigits 10 count := fun mem => absurd (digits '[' mem) (by decide)
  have element : normalize name.toList = normalize (normalize name.toList ++ gap) := by
    rw [normalize_append_gap _ free, normalize_normalize]
  rw [byName, TypeExpr.ofString_eq,
    TypeExpr.ofChars_brackets (behind ▸ same) last (count?_trim_toDigits word), resolve,
    resolve_ofChars_congr element known]
  rfl

/-! ## Nested types -/

theorem name_pointerTo (registry : Registry) (target : CType) :
    (registry.pointerTo target).name = target.name ++ "*" := by
  unfold pointerTo
  split
  case isTrue void =>
    rw [CType.isVoid_iff.mp void]
    rfl
  case isFalse => rw [CType.name]

theorem same_pointerTo {found : CType} (same : (found == target) = true) :
    (registry.pointerTo found == registry.pointerTo target) = true := by
  rw [pointerTo, pointerTo, CType.isVoid_eq_of_same same]
  split
  case isTrue => exact CType.same_refl _
  case isFalse =>
    replace same : found.same target = true := same
    show CType.same _ _ = true
    rw [CType.same, same]
    simp

/-- A string type is no pointer to an integer. -/
theorem not_resolves_of_text {primitive : Primitive}
    (text : primitive = .cstring ∨ primitive = .wstring) (integer : target.isInteger = true)
    (own : registry.byName (registry.pointerTo target).name = registry.describe primitive) :
    ¬ registry.Resolves (registry.pointerTo target) := by
  rintro ⟨found, known, same⟩
  rw [own] at known
  have typed : registry.pointerTo target = .pointer (.typed target) registry.platform.pointer := by
    cases target <;> first | rfl | cases integer
  rw [typed] at same
  rcases text with rfl | rfl <;> cases known <;> cases same

/-- A pointer to a type whose name resolves has a name that does, except for pointers to characters.
Their names are those of the string types. -/
theorem resolves_pointerTo_iff (resolves : registry.Resolves target) :
    registry.Resolves (registry.pointerTo target) ↔ ¬ target.IsCharacter := by
  obtain ⟨found, known, same⟩ := resolves
  have starred : normalize (target.name ++ "*").toList = normalize target.name.toList ++ ['*'] := by
    rw [String.toList_append]
    exact normalize_append_star _
  cases spelled : TypeExpr.primitive? (normalize target.name.toList ++ ['*']) with
  | none =>
    refine iff_of_true ⟨_, name_pointerTo registry target ▸ byName_star known spelled,
      same_pointerTo same⟩ ?_
    rintro ⟨-, char | char⟩
    · rw [char] at spelled
      cases spelled
    · rw [char] at spelled
      cases spelled
  | some primitive =>
    have own : registry.byName (registry.pointerTo target).name = registry.describe primitive := by
      rw [name_pointerTo]
      exact byName_of_primitive? (starred ▸ spelled)
    rcases TypeExpr.primitive?_star spelled with ⟨void, rfl⟩ | ⟨char, rfl⟩ | ⟨wchar, rfl⟩
    · have described : registry.describe .void = .ok found :=
        (byName_of_primitive? (by rw [void]; decide)).symm.trans known
      cases described
      obtain rfl := CType.eq_void_of_same same
      refine iff_of_true ⟨_, own, CType.same_refl _⟩ ?_
      rintro ⟨integer, -⟩
      cases integer
    · have described : registry.describe .int8 = .ok found :=
        (byName_of_primitive? (by rw [char]; decide)).symm.trans known
      cases described
      have integer := CType.isInteger_of_same same rfl
      exact iff_of_false (not_resolves_of_text (.inl rfl) integer own)
        (not_not_intro ⟨integer, .inl char⟩)
    · have described : registry.describe .wchar = .ok found :=
        (byName_of_primitive? (by rw [wchar]; decide)).symm.trans known
      cases described
      have integer := CType.isInteger_of_same same (CType.isInteger_wide _)
      exact iff_of_false (not_resolves_of_text (.inr rfl) integer own)
        (not_not_intro ⟨integer, .inr wchar⟩)

theorem resolves_array {count : Nat} (resolves : registry.Resolves target)
    (word : count < Word.modulus) (sized : array target count = .ok type) :
    registry.Resolves type := by
  obtain ⟨found, known, same⟩ := resolves
  obtain ⟨present, small, rfl⟩ := array_eq_ok sized
  refine ⟨.array found count, ?_, ?_⟩
  · rw [byName_brackets known word (CType.toList_name_array ..), array,
      CType.isVoid_eq_of_same same, present, if_neg Bool.false_ne_true,
      CType.size_eq_of_same same, if_pos small]
    rfl
  · replace same : found.same target = true := same
    show CType.same _ _ = true
    rw [CType.same, same]
    simp

/-- The types that are built as pointers and arrays from types whose names resolve, without pointers
to characters. -/
inductive Nested (registry : Registry) : CType → Prop
  | leaf {type : CType} (resolves : registry.Resolves type) : Nested registry type
  | pointer {target : CType} (nested : Nested registry target) (plain : ¬ target.IsCharacter) :
      Nested registry (registry.pointerTo target)
  | array {element type : CType} {count : Nat} (nested : Nested registry element)
      (word : count < Word.modulus) (sized : Registry.array element count = .ok type) :
      Nested registry type

/-- The name of a primitive, and of every type that is built as pointers and arrays from types whose
names resolve, stands for the type, unless the type has a pointer to characters. -/
theorem resolves_of_nested (registry : Registry) :
    (∀ primitive type, registry.describe primitive = .ok type → registry.Resolves type)
      ∧ ∀ type, registry.Nested type → registry.Resolves type := by
  refine ⟨fun _ _ described => resolves_of_describe described, fun type nested => ?_⟩
  induction nested with
  | leaf resolves => exact resolves
  | pointer _ plain ih => exact (resolves_pointerTo_iff ih).mpr plain
  | array _ word sized ih => exact resolves_array ih word sized

/-- A registry with one struct. -/
def mixed : Registry :=
  { Registry.host with composites := [("Mixed", .composite Layout.mixedLayout)] }

/-- A pointer to three rows of two pointers to structs. -/
def mixedRows : CType :=
  .pointer (.typed (.array (.array (.pointer (.typed (.composite Layout.mixedLayout)) .w64) 2) 3))
    .w64

/-- The stars and brackets of a name are read from the last one on. -/
theorem resolves_of_nested_mixed :
    mixedRows.name = "Mixed*[2][3]*" ∧ mixed.Nested mixedRows ∧ mixed.Resolves mixedRows := by
  have leaf : mixed.Nested (.composite Layout.mixedLayout) :=
    .leaf ⟨.composite Layout.mixedLayout, by rfl, CType.same_refl _⟩
  have plain {target : CType} (other : target.isInteger = false) : ¬ target.IsCharacter :=
    fun ⟨integer, _⟩ => Bool.false_ne_true (other.symm.trans integer)
  have two : 2 < Word.modulus := by decide
  have three : 3 < Word.modulus := by decide
  have nested : mixed.Nested mixedRows :=
    .pointer (.array (.array (.pointer leaf (plain rfl)) two rfl) three rfl) (plain rfl)
  exact ⟨by rfl, nested, (resolves_of_nested mixed).2 _ nested⟩

end Registry

end CInterop
