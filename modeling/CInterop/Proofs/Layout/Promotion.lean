import Mathlib.Data.List.Nodup
import CInterop.Proofs.Layout.Exact

/-!
# Members are the ends of paths

The table of members of a composite is built one level at a time, from the tables of the composites
inside it. What it should list is said by `Path`: the ways that lead through unnamed composite
fields, one inside the other, to a named field. `compute_promotes` says that the table lists the
ends of all paths at the sums of the offsets on the way, that their names are distinct, and that a
declaration whose fields are placed is refused for a repeated name exactly when two paths end in one
name.
-/

namespace CInterop

namespace Layout

/-! ## Paths -/

/-- From a field to a named field: the steps into unnamed composites on the way. The offset of the
part that is found is the sum of the offsets on the way. -/
inductive Leads : Field → List Nat → Member → Prop
  | here {field : Field} {name : String} (named : field.name = some name) :
      Leads field [] { name, type := field.type, offset := field.offset, bits := field.bits }
  | inside {field next : Field} {inner : Layout} {i : Nat} {steps : List Nat} {part : Member}
      (unnamed : field.name = none) (plain : field.bits = none)
      (composite : field.type = .composite inner) (step : inner.fields[i]? = some next)
      (leads : Leads next steps part) :
      Leads field (i :: steps) { part with offset := field.offset + part.offset }

/-- From a composite with these fields to a named field. -/
def Path (fields : List Field) (steps : List Nat) (part : Member) : Prop :=
  ∃ i rest field, steps = i :: rest ∧ fields[i]? = some field ∧ Leads field rest part

/-- Two different paths end in the same name. -/
def Ambiguous (fields : List Field) (name : String) : Prop :=
  ∃ steps steps' part part', steps ≠ steps' ∧ Path fields steps part ∧ Path fields steps' part'
    ∧ part.name = name ∧ part'.name = name

/-- The members of a layout are the ends of its paths. -/
structure Promotes (layout : Layout) : Prop where
  distinct : (layout.members.map (·.name)).Nodup
  listed : ∀ member, member ∈ layout.members ↔ ∃ steps, Path layout.fields steps member

/-! ## Members of one field -/

/-- What the induction over nested composites carries: no name is ambiguous inside. -/
structure Flat (layout : Layout) : Prop extends Promotes layout where
  unambiguous : ∀ name, ¬ Ambiguous layout.fields name

/-- The composite that a field has for its type is flat. -/
def FlatInside (field : Field) : Prop := ∀ inner, field.type = .composite inner → Flat inner

theorem exposed_of_named {field : Field} {name : String} (named : field.name = some name) :
    exposed field =
      [{ name, type := field.type, offset := field.offset, bits := field.bits }] := by
  unfold exposed
  rw [named]

theorem exposed_of_composite {field : Field} {inner : Layout} (unnamed : field.name = none)
    (plain : field.bits = none) (composite : field.type = .composite inner) :
    exposed field = inner.members.map fun member =>
      { member with offset := field.offset + member.offset } := by
  unfold exposed
  rw [unnamed, plain, composite]
  rfl

/-- A field contributes the ends of the ways that lead on from it. -/
theorem mem_exposed_iff {field : Field} (flat : FlatInside field) {member : Member} :
    member ∈ exposed field ↔ ∃ steps, Leads field steps member := by
  constructor
  · intro found
    cases named : field.name with
    | some name =>
      rw [exposed_of_named named] at found
      obtain rfl := List.mem_singleton.mp found
      exact ⟨[], .here named⟩
    | none =>
      unfold exposed at found
      rw [named] at found
      split at found
      case h_1 => contradiction
      case h_2 inner _ composite plain =>
        replace composite := CType.layout?_eq_some composite
        obtain ⟨part, listed, rfl⟩ := List.mem_map.mp found
        obtain ⟨_, i, steps, next, rfl, step, leads⟩ := ((flat inner composite).listed _).mp listed
        exact ⟨_, .inside named plain composite step leads⟩
      case h_3 => cases found
  · rintro ⟨steps, leads⟩
    cases leads with
    | here named =>
      rw [exposed_of_named named]
      exact List.mem_singleton_self _
    | @inside _ next inner i steps part unnamed plain composite step leads =>
      rw [exposed_of_composite unnamed plain composite]
      have listed := ((flat inner composite).listed part).mpr ⟨_, i, steps, next, rfl, step, leads⟩
      exact List.mem_map_of_mem listed

/-- The names of the members that a field contributes. -/
def exposedNames (field : Field) : List String := (exposed field).map (·.name)

theorem mem_exposedNames_iff {field : Field} (flat : FlatInside field) {name : String} :
    name ∈ exposedNames field ↔ ∃ steps part, Leads field steps part ∧ part.name = name := by
  unfold exposedNames
  rw [List.mem_map]
  constructor
  · rintro ⟨part, mem, rfl⟩
    obtain ⟨steps, leads⟩ := (mem_exposed_iff flat).mp mem
    exact ⟨steps, part, leads, rfl⟩
  · rintro ⟨steps, part, leads, rfl⟩
    exact ⟨part, (mem_exposed_iff flat).mpr ⟨steps, leads⟩, rfl⟩

theorem nodup_exposedNames {field : Field} (flat : FlatInside field) :
    (exposedNames field).Nodup := by
  unfold exposedNames exposed
  split
  · simp
  case h_2 inner _ composite _ =>
    rw [List.map_map]
    exact (flat inner (CType.layout?_eq_some composite)).distinct
  · simp

/-- Two ways lead from one field to the same name only if they are one. -/
theorem Leads.steps_unique {field : Field} (flat : FlatInside field) {steps steps' : List Nat}
    {part part' : Member} (leads : Leads field steps part) (leads' : Leads field steps' part')
    (same : part.name = part'.name) : steps = steps' := by
  by_contra different
  cases leads with
  | here named =>
    cases leads' with
    | here => exact different rfl
    | inside unnamed => exact absurd (named.symm.trans unnamed) (by simp)
  | inside unnamed _ composite step leads =>
    cases leads' with
    | here named => exact absurd (named.symm.trans unnamed) (by simp)
    | inside _ _ composite' step' leads' =>
      obtain rfl := CType.composite.inj (composite.symm.trans composite')
      exact (flat _ composite).unambiguous _
        ⟨_, _, _, _, different, ⟨_, _, _, rfl, step, leads⟩, ⟨_, _, _, rfl, step', leads'⟩,
          same, rfl⟩

/-! ## Members of all fields -/

/-- A name occurs twice in the table when two of the fields contribute it, since no field
contributes a name twice. -/
theorem two_le_count_iff {fields : List Field} {name : String}
    (single : ∀ field ∈ fields, (exposedNames field).Nodup) :
    2 ≤ (fields.flatMap exposedNames).count name ↔
      ∃ (i j : Nat) (field field' : Field), i < j
        ∧ fields[i]? = some field ∧ fields[j]? = some field'
        ∧ name ∈ exposedNames field ∧ name ∈ exposedNames field' := by
  induction fields with
  | nil => simp
  | cons first rest ih =>
    have once := List.nodup_iff_count_le_one.mp (single first List.mem_cons_self) name
    have later := ih fun field mem => single field (List.mem_cons_of_mem _ mem)
    rw [List.flatMap_cons, List.count_append]
    constructor
    · intro twice
      by_cases own : name ∈ exposedNames first
      · have found : 0 < (rest.flatMap exposedNames).count name := by omega
        obtain ⟨field', mem, other⟩ := List.mem_flatMap.mp (List.count_pos_iff.mp found)
        obtain ⟨j, position⟩ := List.mem_iff_getElem?.mp mem
        exact ⟨0, j + 1, first, field', by omega, rfl, by simpa using position, own, other⟩
      · have none_here := List.count_eq_zero.mpr own
        obtain ⟨i, j, field, field', below, at_i, at_j, mem, mem'⟩ := later.mp (by omega)
        exact ⟨i + 1, j + 1, field, field', by omega, by simpa using at_i, by simpa using at_j,
          mem, mem'⟩
    · rintro ⟨i, j, field, field', below, at_i, at_j, mem, mem'⟩
      obtain ⟨j, rfl⟩ : ∃ k, j = k + 1 := ⟨j - 1, by omega⟩
      rw [List.getElem?_cons_succ] at at_j
      cases i with
      | zero =>
        obtain rfl := Option.some.inj at_i
        have here := List.count_pos_iff.mpr mem
        have there := List.count_pos_iff.mpr
          (List.mem_flatMap.mpr ⟨field', List.mem_of_getElem? at_j, mem'⟩)
        omega
      | succ i =>
        rw [List.getElem?_cons_succ] at at_i
        have twice := later.mpr ⟨i, j, field, field', by omega, at_i, at_j, mem, mem'⟩
        omega

section Table

variable {fields : List Field}

theorem mem_table_iff (flat : ∀ field ∈ fields, FlatInside field) {member : Member} :
    member ∈ fields.flatMap exposed ↔ ∃ steps, Path fields steps member := by
  constructor
  · intro found
    obtain ⟨field, mem, found⟩ := List.mem_flatMap.mp found
    obtain ⟨i, position⟩ := List.mem_iff_getElem?.mp mem
    obtain ⟨steps, leads⟩ := (mem_exposed_iff (flat field mem)).mp found
    exact ⟨i :: steps, i, steps, field, rfl, position, leads⟩
  · rintro ⟨_, i, steps, field, rfl, position, leads⟩
    have mem := List.mem_of_getElem? position
    exact List.mem_flatMap.mpr ⟨field, mem, (mem_exposed_iff (flat field mem)).mpr ⟨steps, leads⟩⟩

theorem ambiguous_iff (flat : ∀ field ∈ fields, FlatInside field) (name : String) :
    Ambiguous fields name ↔ 2 ≤ (fields.flatMap exposedNames).count name := by
  rw [two_le_count_iff fun field mem => nodup_exposedNames (flat field mem)]
  have exposes : ∀ {i field}, fields[i]? = some field →
      (name ∈ exposedNames field ↔ ∃ steps part, Leads field steps part ∧ part.name = name) :=
    fun position => mem_exposedNames_iff (flat _ (List.mem_of_getElem? position))
  constructor
  · rintro ⟨_, _, part, part', different, ⟨i, steps, field, rfl, at_i, leads⟩,
      ⟨j, steps', field', rfl, at_j, leads'⟩, ends, ends'⟩
    have own := (exposes at_i).mpr ⟨_, part, leads, ends⟩
    have own' := (exposes at_j).mpr ⟨_, part', leads', ends'⟩
    rcases Nat.lt_trichotomy i j with below | rfl | above
    · exact ⟨i, j, field, field', below, at_i, at_j, own, own'⟩
    · -- Both ways lead on from one field, so that they are the same.
      obtain rfl := Option.some.inj (at_i.symm.trans at_j)
      have same := leads.steps_unique (flat _ (List.mem_of_getElem? at_i)) leads'
        (ends.trans ends'.symm)
      exact absurd (same ▸ rfl) different
    · exact ⟨j, i, field', field, above, at_j, at_i, own', own⟩
  · rintro ⟨i, j, field, field', below, at_i, at_j, own, own'⟩
    obtain ⟨steps, part, leads, ends⟩ := (exposes at_i).mp own
    obtain ⟨steps', part', leads', ends'⟩ := (exposes at_j).mp own'
    refine ⟨i :: steps, j :: steps', part, part', ?_, ⟨i, steps, field, rfl, at_i, leads⟩,
      ⟨j, steps', field', rfl, at_j, leads'⟩, ends, ends'⟩
    simp [Nat.ne_of_lt below]

theorem names_table : (fields.flatMap exposed).map (·.name) = fields.flatMap exposedNames :=
  List.map_flatMap

end Table

/-! ## Whole layouts -/

theorem flat_of_built {type : CType} (built : type.Built) :
    ∀ layout, type = .composite layout → Flat layout := by
  induction built with
  | primitive described =>
    rintro layout rfl
    cases (CType.undivided_of_primitive described).2
  | @pointer registry target =>
    intro layout same
    have undivided := CType.undivided_pointerTo registry target
    rw [same] at undivided
    cases undivided.2
  | array _ sized =>
    rintro layout rfl
    obtain ⟨_, _, same⟩ := Registry.array_eq_ok sized
    cases same
  | @composite _ _ _ _ layout _ computed flat =>
    rintro _ ⟨⟩
    have flat_fields (field : Field) (mem : field ∈ layout.fields) : FlatInside field := by
      obtain ⟨_, decl, decl_mem, same⟩ := proper_of_compute computed field mem
      exact fun inner composite => flat decl decl_mem inner (same.symm.trans composite)
    have distinct := nodup_of_compute computed
    refine ⟨⟨distinct, fun member => ?_⟩, fun name ambiguous => ?_⟩
    · rw [members_of_compute computed]
      exact mem_table_iff flat_fields
    · rw [members_of_compute computed, names_table] at distinct
      have many := (ambiguous_iff flat_fields name).mp ambiguous
      have once := List.nodup_iff_count_le_one.mp distinct name
      omega

/-- The members of a layout are the ends of its paths. A declaration whose fields are placed is
refused for a repeated name exactly when two paths end in one name, and then two paths end in the
name that is blamed. -/
theorem compute_promotes {name : String} {kind : CompositeKind} {decls : List FieldDecl}
    {packing : Packing} (built : ∀ decl ∈ decls, decl.type.Built) :
    (∀ layout, compute name kind decls packing = .ok layout → Promotes layout)
      ∧ ∀ cursor fields, packing.Accepted →
        placeAll name kind packing {} decls = .ok (cursor, fields) →
          (∀ twice, compute name kind decls packing = .error (.invalidField name twice .duplicate) →
            Ambiguous fields twice)
          ∧ ((∃ shared, Ambiguous fields shared) → ∃ twice,
            compute name kind decls packing = .error (.invalidField name twice .duplicate)) := by
  refine ⟨fun layout computed => (flat_of_built (.composite built computed) layout rfl).toPromotes,
    fun cursor fields accepted placed => ?_⟩
  have flat (field : Field) (mem : field ∈ fields) : FlatInside field := by
    obtain ⟨_, decl, decl_mem, same⟩ := (placingAll_of_placeAll Word.modulus_pos placed).proper
      (eq_of_placeAll Word.modulus_pos placed).1 field mem
    intro inner composite
    exact flat_of_built (built decl decl_mem) inner (same.symm.trans composite)
  have ambiguous := ambiguous_iff flat
  rw [compute_of_accepted accepted, placed]
  simp only [← names_table] at ambiguous
  show (∀ twice, assemble name kind packing cursor fields = _ → _) ∧ (_ → ∃ twice,
    assemble name kind packing cursor fields = _)
  rcases enterAll_of_lt name []
    (offset_lt_of_placeAll accepted built placed) with entered | ⟨twice, refused, counted⟩
  · -- All names were entered, so that none is ambiguous, and only the size may overflow.
    have distinct := (enterAll_eq_ok_iff.mp entered).2.1
    refine ⟨fun twice failed => ?_, fun ⟨shared, doubled⟩ => ?_⟩
    · rcases Nat.lt_or_ge (roundUp cursor.size cursor.align) Word.modulus with fits | beyond
      · cases (assemble_of_lt entered fits).symm.trans failed
      · obtain ⟨_, overflows⟩ := assemble_of_le kind packing entered beyond
        cases overflows.symm.trans failed
    · have many := (ambiguous shared).mp doubled
      have once := List.nodup_iff_count_le_one.mp distinct shared
      omega
  · have blamed : assemble name kind packing cursor fields
        = .error (.invalidField name twice .duplicate) := by
      unfold assemble
      dsimp only
      rw [refused]
      rfl
    have many := counted.resolve_right fun seen => List.not_mem_nil seen.1
    refine ⟨fun other failed => ?_, fun _ => ⟨twice, blamed⟩⟩
    cases blamed.symm.trans failed
    exact (ambiguous twice).mpr many

/-! ## A number and its halves -/

/-- The halves of a number. -/
def halvesDecls : List FieldDecl :=
  [⟨some "low", .natural "uint16" .w16 false, none⟩,
    ⟨some "high", .natural "uint16" .w16 false, none⟩]

def halvesLayout : Layout :=
  { name := "Halves", kind := .struct, packing := .natural
    fields := [⟨some "low", .natural "uint16" .w16 false, 0, none⟩,
      ⟨some "high", .natural "uint16" .w16 false, 2, none⟩]
    members := [⟨"low", .natural "uint16" .w16 false, 0, none⟩,
      ⟨"high", .natural "uint16" .w16 false, 2, none⟩]
    size := 4, align := 2 }

/-- A number, as a whole or by its halves. -/
def numberDecls : List FieldDecl :=
  [⟨some "whole", .natural "uint32" .w32 false, none⟩, ⟨none, .composite halvesLayout, none⟩]

def numberLayout : Layout :=
  { name := "Number", kind := .union, packing := .natural
    fields := [⟨some "whole", .natural "uint32" .w32 false, 0, none⟩,
      ⟨none, .composite halvesLayout, 0, none⟩]
    members := [⟨"whole", .natural "uint32" .w32 false, 0, none⟩,
      ⟨"low", .natural "uint16" .w16 false, 0, none⟩,
      ⟨"high", .natural "uint16" .w16 false, 2, none⟩]
    size := 4, align := 4 }

/-- Two numbers behind a tag; only the first is unnamed, so that no name is ambiguous. -/
def taggedDecls : List FieldDecl :=
  [⟨some "tag", .natural "uint8" .w8 false, none⟩, ⟨none, .composite numberLayout, none⟩,
    ⟨some "other", .composite numberLayout, none⟩]

def taggedLayout : Layout :=
  { name := "Tagged", kind := .struct, packing := .natural
    fields := [⟨some "tag", .natural "uint8" .w8 false, 0, none⟩,
      ⟨none, .composite numberLayout, 4, none⟩,
      ⟨some "other", .composite numberLayout, 8, none⟩]
    members := [⟨"tag", .natural "uint8" .w8 false, 0, none⟩,
      ⟨"whole", .natural "uint32" .w32 false, 4, none⟩,
      ⟨"low", .natural "uint16" .w16 false, 4, none⟩,
      ⟨"high", .natural "uint16" .w16 false, 6, none⟩,
      ⟨"other", .composite numberLayout, 8, none⟩]
    size := 12, align := 4 }

theorem tagged_built : ∀ decl ∈ taggedDecls, decl.type.Built := by
  have byte := CType.Built.primitive (rfl : Primitive.uint8.type? .host = some _)
  have short := CType.Built.primitive (rfl : Primitive.uint16.type? .host = some _)
  have word := CType.Built.primitive (rfl : Primitive.uint32.type? .host = some _)
  have halves : (CType.composite halvesLayout).Built := by
    have computed : compute "Halves" .struct halvesDecls .natural = .ok halvesLayout := by rfl
    refine .composite ?_ computed
    simpa only [halvesDecls, List.forall_mem_cons] using ⟨short, short, by simp⟩
  have number : (CType.composite numberLayout).Built := by
    have computed : compute "Number" .union numberDecls .natural = .ok numberLayout := by rfl
    refine .composite ?_ computed
    simpa only [numberDecls, List.forall_mem_cons] using ⟨word, halves, by simp⟩
  simpa only [taggedDecls, List.forall_mem_cons] using ⟨byte, number, number, by simp⟩

/-- The halves of the unnamed number are members too, so that no further field is named `low`. -/
def repeatedDecls : List FieldDecl :=
  taggedDecls ++ [⟨some "low", .natural "uint8" .w8 false, none⟩]

theorem repeated_built : ∀ decl ∈ repeatedDecls, decl.type.Built := by
  have byte := CType.Built.primitive (rfl : Primitive.uint8.type? .host = some _)
  simpa only [repeatedDecls, List.forall_mem_append, List.forall_mem_cons] using
    ⟨tagged_built, byte, by simp⟩

/-- The fields that would be placed for them. -/
def repeatedFields : List Field :=
  taggedLayout.fields ++ [⟨some "low", .natural "uint8" .w8 false, 12, none⟩]

theorem placeAll_repeated : placeAll "Repeated" .struct .natural {} repeatedDecls =
    .ok (⟨13, 13, 4, none⟩, repeatedFields) := by rfl

theorem tagged_promotes :
    (∀ decl ∈ taggedDecls, decl.type.Built) ∧ (∀ decl ∈ repeatedDecls, decl.type.Built)
      ∧ Promotes taggedLayout ∧ Ambiguous repeatedFields "low" := by
  have computed : compute "Tagged" .struct taggedDecls .natural = .ok taggedLayout := by rfl
  have refused : compute "Repeated" .struct repeatedDecls .natural =
      .error (.invalidField "Repeated" "low" .duplicate) := by rfl
  refine ⟨tagged_built, repeated_built, (compute_promotes tagged_built).1 _ computed, ?_⟩
  have accepted : Packing.natural.Accepted := trivial
  exact ((compute_promotes repeated_built).2 _ _ accepted placeAll_repeated).1 "low" refused

/-- Two bytes of one name behind as many as a word can count. -/
def crowdedDecls : List FieldDecl :=
  [widestDecl, ⟨some "x", .natural "uint8" .w8 false, none⟩,
    ⟨some "x", .natural "uint8" .w8 false, none⟩]

/-- Two paths end in the name, and no field is refused, but the second byte overflows before names
are compared. -/
theorem crowded_overflows :
    (∀ decl ∈ crowdedDecls, decl.type.Built)
      ∧ (∀ decl ∈ crowdedDecls, decl.Sound)
      ∧ Ambiguous (placeAllExact .struct .natural {} crowdedDecls).2 "x"
      ∧ compute "Crowded" .struct crowdedDecls .natural = .error (.overflow "add") := by
  have byte := CType.Built.primitive (rfl : Primitive.uint8.type? .host = some _)
  have bytes := CType.Built.array byte
    (rfl : Registry.array _ 0xffffffffffffffff = .ok (.array (.natural "uint8" .w8 false) _))
  refine ⟨?built, ?sound, ?ambiguous, rfl⟩
  case built =>
    simpa only [crowdedDecls, widestDecl, List.forall_mem_cons] using ⟨bytes, byte, byte, by simp⟩
  case sound =>
    simp only [crowdedDecls, widestDecl, List.forall_mem_cons, ← FieldDecl.fault?_eq_none_iff]
    exact ⟨rfl, rfl, rfl, by simp⟩
  case ambiguous =>
    exact ⟨[1], [2], _, _, by decide, ⟨1, [], _, rfl, rfl, .here rfl⟩,
      ⟨2, [], _, rfl, rfl, .here rfl⟩, rfl, rfl⟩

end Layout

end CInterop
