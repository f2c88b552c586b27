import Mathlib.Data.List.Induction
import CInterop.Proofs.Built
import CInterop.Proofs.Layout.Members
import CInterop.Proofs.Outcome
import CInterop.Proofs.Spelling.Forms
import CInterop.Registry

/-!
# Names of defined types

A registry looks up names in normal form, but keeps a definition under its name as written. After
any sequence of definitions, the latest successful one under a name is what the name stands for
exactly if the name is in normal form and has no meaning of its own (`Registry.byName_latest_iff`).
A name with other spacing is not found (`Registry.doubleSpace_unknown`). A definition that fails
changes nothing.
-/

namespace CInterop

open Spelling

/-- A definition that is asked for. -/
structure Definition where
  name : String
  kind : CompositeKind
  decls : List FieldDecl
  packing : Packing

namespace Definition

/-- The type that is defined, or why none is. -/
def type (definition : Definition) : Except Failure CType :=
  CType.composite <$>
    Layout.compute definition.name definition.kind definition.decls definition.packing

/-- The type that is defined under a name. -/
def defined? (name : String) (definition : Definition) : Option CType :=
  if definition.name = name then definition.type.toOption else none

/-- The type of the latest successful definition under a name. -/
def latest? (name : String) (definitions : List Definition) : Option CType :=
  definitions.reverse.findSome? (defined? name)

variable {definition : Definition} {definitions : List Definition} {name : String} {type : CType}

theorem latest?_concat (name : String) (definitions : List Definition) (definition : Definition) :
    latest? name (definitions ++ [definition])
      = (definition.defined? name).or (latest? name definitions) := by
  rw [latest?, List.reverse_append, List.reverse_singleton, List.singleton_append,
    List.findSome?_cons]
  cases defined? name definition <;> rfl

/-- What is defined under a name is a composite of that name. -/
theorem composite_of_defined? (defined : definition.defined? name = some type) :
    ∃ layout : Layout, type = .composite layout ∧ layout.name = name := by
  unfold defined? at defined
  split at defined
  case isFalse => cases defined
  case isTrue same =>
    unfold Definition.type at defined
    cases computed : Layout.compute definition.name definition.kind definition.decls
        definition.packing with
    | error failure =>
      rw [computed] at defined
      cases defined
    | ok layout =>
      rw [computed] at defined
      cases defined
      obtain ⟨_, _, _, _, _, _, rfl⟩ := Layout.compute_eq_ok computed
      exact ⟨_, rfl, same⟩

theorem composite_of_latest? (defined : latest? name definitions = some type) :
    ∃ layout : Layout, type = .composite layout ∧ layout.name = name := by
  obtain ⟨definition, -, own⟩ := List.exists_of_findSome?_eq_some defined
  exact composite_of_defined? own

end Definition

namespace Registry

open Definition

variable {registry : Registry} {definition : Definition} {name : String} {type : CType}

/-! ## Sequences of definitions -/

/-- The registry after a definition was asked for. -/
def next (registry : Registry) (definition : Definition) : Registry :=
  match registry.define definition.name definition.kind definition.decls definition.packing with
  | .ok (_, next) => next
  | .error _ => registry

/-- The registry of a platform after some definitions were asked for. -/
def after (platform : Platform) (definitions : List Definition) : Registry :=
  definitions.foldl next (ofPlatform platform)

theorem after_concat (platform : Platform) (definitions : List Definition)
    (definition : Definition) :
    after platform (definitions ++ [definition]) = (after platform definitions).next definition :=
  List.foldl_concat ..

/-- A definition is refused for its layout alone. -/
theorem define_eq (registry : Registry) (definition : Definition) :
    registry.define definition.name definition.kind definition.decls definition.packing =
      definition.type.map fun type => (type,
        if definition.name = "" then registry
        else { registry with composites := (definition.name, type) :: registry.composites }) := by
  unfold define Definition.type
  cases Layout.compute definition.name definition.kind definition.decls definition.packing with
  | error failure => rfl
  | ok layout =>
    show (if definition.name.isEmpty = true then _ else _)
      = Except.ok (_, if definition.name = "" then _ else _)
    simp only [String.isEmpty_iff]
    split <;> rfl

theorem lookup_next (name : String) :
    (registry.next definition).composites.lookup name
      = if name = "" then registry.composites.lookup name
        else (definition.defined? name).or (registry.composites.lookup name) := by
  rw [next, define_eq, defined?]
  cases definition.type with
  | error failure => simp [Except.map, Except.toOption]
  | ok type =>
    simp only [Except.map, Except.toOption]
    by_cases own : definition.name = name
    · subst own
      by_cases empty : definition.name = "" <;> simp [empty]
    · have other : (name == definition.name) = false := beq_eq_false_iff_ne.mpr (Ne.symm own)
      rw [if_neg own, Option.none_or, ite_self]
      by_cases empty : definition.name = "" <;> simp [empty, List.lookup_cons, other]

/-- A registry finds the latest definition under each name but the empty one. -/
theorem lookup_after (platform : Platform) (definitions : List Definition) (name : String) :
    (after platform definitions).composites.lookup name
      = if name = "" then none else latest? name definitions := by
  induction definitions using List.reverseRecOn with
  | nil => exact (ite_self _).symm
  | append_singleton definitions definition ih =>
    rw [after_concat, lookup_next, ih, latest?_concat]
    split <;> rfl

theorem composite_of_lookup_after {platform : Platform} {definitions : List Definition}
    (found : (after platform definitions).composites.lookup name = some type) :
    ∃ layout : Layout, type = .composite layout ∧ layout.name = name := by
  rw [lookup_after] at found
  split at found
  case isTrue => cases found
  case isFalse => exact composite_of_latest? found

/-! ## Names that are looked up -/

theorem byName_of_not_reserved (free : ¬ TypeExpr.Reserved (normalize name.toList)) :
    registry.byName name =
      match registry.composites.lookup (String.ofList (normalize name.toList)) with
      | some type => .ok type
      | none => .error (.unsupportedType name .unknownName) := by
  rw [byName, TypeExpr.ofString_eq, TypeExpr.ofChars_eq_named_iff.mpr free, resolve,
    String.ofList_toList]
  rfl

/-- A name with a meaning of its own is no composite. -/
theorem not_composite_of_reserved {layout : Layout}
    (reserved : TypeExpr.Reserved (normalize name.toList)) :
    registry.byName name ≠ .ok (.composite layout) := by
  rw [byName, TypeExpr.ofString_eq]
  intro found
  rcases TypeExpr.ofChars_cases name.toList with ⟨-, forms⟩ | ⟨free, -⟩
  case inr => exact free reserved
  rcases forms with ⟨primitive, own⟩ | ⟨target, own⟩ | ⟨element, count, own⟩
  · rw [own, resolve, describe] at found
    split at found
    case h_1 known =>
      cases found
      exact nomatch (CType.undivided_of_primitive known).2
    case h_2 => cases found
  · rw [own, resolve] at found
    obtain ⟨_, -, made⟩ := bind_eq_ok.mp found
    obtain ⟨_, pointer⟩ := CType.pointerTo_eq registry _
    rw [pointer] at made
    cases made
  · rw [own, resolve] at found
    obtain ⟨_, -, sized⟩ := bind_eq_ok.mp found
    obtain ⟨-, -, ⟨⟩⟩ := array_eq_ok sized

/-- After any definitions, what the latest successful one under a name defined is what the name
stands for exactly if the name is in normal form and has no meaning of its own. A refused definition
leaves every name standing for what it stood for. -/
theorem byName_latest_iff (platform : Platform) (definitions : List Definition) :
    (∀ name type, name ≠ "" → latest? name definitions = some type →
      ((after platform definitions).byName name = .ok type ↔
        Normal name.toList ∧ ¬ TypeExpr.Reserved name.toList))
      ∧ ∀ definition failure, (after platform definitions).define definition.name definition.kind
          definition.decls definition.packing = .error failure →
        ∀ name, (after platform (definitions ++ [definition])).byName name
          = (after platform definitions).byName name := by
  refine ⟨fun name type filled latest => ?_, fun definition failure refused name => ?_⟩
  · constructor
    · intro found
      obtain ⟨layout, rfl, own⟩ := composite_of_latest? latest
      have free : ¬ TypeExpr.Reserved (normalize name.toList) := fun reserved =>
        not_composite_of_reserved reserved found
      rw [byName_of_not_reserved free] at found
      split at found
      case h_1 listed =>
        cases found
        obtain ⟨_, ⟨⟩, same⟩ := composite_of_lookup_after listed
        have normal := congrArg String.toList (same.symm.trans own)
        rw [String.toList_ofList] at normal
        rw [normal] at free
        exact ⟨normalize_eq_self_iff.mp normal, free⟩
      case h_2 => cases found
    · rintro ⟨normal, free⟩
      rw [← normal.normalize_eq] at free
      rw [byName_of_not_reserved free, normal.normalize_eq, String.ofList_toList, lookup_after,
        if_neg filled, latest]
  · rw [after_concat, next, refused]

/-- A struct and, under the same name, a union. -/
def gridDefinitions : List Definition :=
  [⟨"grid [n]", .struct, Layout.mixedDecls, .natural⟩,
    ⟨"grid [n]", .union, [⟨some "cell", .natural "int32" .w32 true, none⟩], .natural⟩]

/-- A struct with a field of no type, which is refused. -/
def emptyCell : Definition := ⟨"grid [n]", .struct, [⟨some "cell", .void, none⟩], .natural⟩

/-- A name that is not quite an array. -/
theorem byName_latest_grid :
    ∃ layout : Layout, layout.kind = .union
      ∧ latest? "grid [n]" gridDefinitions = some (.composite layout)
      ∧ (after .host gridDefinitions).byName "grid [n]" = .ok (.composite layout)
      ∧ (after .host (gridDefinitions ++ [emptyCell])).byName "grid [n]"
        = .ok (.composite layout) := by
  have normal : Normal "grid [n]".toList := normalize_eq_self_iff.mp (by decide)
  have free : ¬ TypeExpr.Reserved "grid [n]".toList := by decide
  obtain ⟨latest, refused⟩ := byName_latest_iff .host gridDefinitions
  have found := (latest "grid [n]" _ (by decide) rfl).mpr ⟨normal, free⟩
  exact ⟨_, rfl, rfl, found, (refused emptyCell _ rfl "grid [n]").trans found⟩

/-- Two spaces between the words of a name. -/
def doubleSpace : Definition :=
  ⟨"big  point", .struct, [⟨some "x", .natural "int32" .w32 true, none⟩], .natural⟩

/-- A struct is defined under a name that is neither a primitive nor a pointer nor an array, and is
not found under it. -/
theorem doubleSpace_unknown :
    (∃ type, latest? "big  point" [doubleSpace] = some type)
      ∧ "big  point" ≠ "" ∧ ¬ TypeExpr.Reserved "big  point".toList
      ∧ (after .host [doubleSpace]).byName "big  point"
        = .error (.unsupportedType "big  point" .unknownName) :=
  ⟨⟨_, rfl⟩, by decide, by decide, by rfl⟩

end Registry

end CInterop
