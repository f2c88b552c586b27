import CInterop.Proofs.Layout.Alignment
import CInterop.Proofs.Layout.Promotion

/-!
# Tighter packing

A packing decides how far apart the fields of a composite are, and nothing else: whatever the
packing, the same declarations are refused, and the fields that are placed differ in their offsets
only. This is a simulation of two placements of one declaration, step by step (`placeExact_below`),
whose invariant is `Cursor.Below`: storage units are opened, joined and closed in both at once.

The tighter of two packings gives offsets that are no larger, since a smaller offset that is rounded
up to a divisor of the alignment stays below (`roundUp_mono`). So it fits the words wherever the
wider one does, and where the wider one overflows, the tighter one may still have a layout
(`Follows`).
-/

namespace CInterop

namespace Packing

/-- Of two packings that layouts accept, the first one never aligns a field more than the second. -/
structure Tighter (packing other : Packing) : Prop where
  accepted : packing.Accepted
  accepted' : other.Accepted
  le : ∀ align, packing.effective align ≤ other.effective align

theorem tighter_packed {n m : Nat} (first : isPowerOfTwo n = true) (second : isPowerOfTwo m = true)
    (le : n ≤ m) : Tighter (.packed n) (.packed m) :=
  ⟨first, second, fun _ => min_le_min_left _ le⟩

theorem tighter_natural {n : Nat} (accepted : isPowerOfTwo n = true) :
    Tighter (.packed n) .natural :=
  ⟨accepted, trivial, fun _ => Nat.min_le_left _ _⟩

end Packing

namespace Layout

/-- Of two powers of two the smaller one divides the larger one. -/
theorem dvd_of_power_of_le {a b : Nat} (first : a.isPowerOfTwo) (second : b.isPowerOfTwo)
    (le : a ≤ b) : a ∣ b := by
  have divides := (dvd_max_of_power first second).1
  rwa [Nat.max_eq_right le] at divides

/-! ## Two placements side by side -/

/-- A storage unit and its counterpart have the same room left. -/
structure StorageUnit.Below (unit other : StorageUnit) : Prop where
  size : unit.size = other.size
  used : unit.used = other.used
  offset : unit.offset ≤ other.offset

/-- The tighter placement is not ahead of the other one. -/
structure Cursor.Below (cursor other : Cursor) : Prop where
  offset : cursor.offset ≤ other.offset
  size : cursor.size ≤ other.size
  align : cursor.align ∣ other.align
  power : other.align.isPowerOfTwo
  unit : Option.Rel StorageUnit.Below cursor.unit other.unit

/-- A field is placed with the same bits in both, and not behind its counterpart. -/
structure FieldBelow (field other : Field) : Prop where
  name : field.name = other.name
  type : field.type = other.type
  bits : field.bits = other.bits
  offset : field.offset ≤ other.offset

/-- A layout has the fields of the other one with the same bits. Its fields do not lie behind their
counterparts, and it is neither larger nor aligned more. -/
structure Below (layout other : Layout) : Prop where
  fields : List.Forall₂ FieldBelow layout.fields other.fields
  align : layout.align ≤ other.align
  size : layout.size ≤ other.size

theorem Cursor.below_start : Below {} {} :=
  ⟨Nat.le_refl _, Nat.le_refl _, Nat.dvd_refl _, ⟨0, rfl⟩, .none⟩

theorem FieldBelow.exposedNames_eq {field other : Field} (below : FieldBelow field other) :
    exposedNames field = exposedNames other := by
  obtain ⟨name, type, offset, bits⟩ := field
  obtain ⟨name', type', offset', bits'⟩ := other
  obtain ⟨rfl, rfl, rfl, _⟩ := below
  unfold exposedNames exposed
  cases name with
  | some name => rfl
  | none =>
    cases bits <;> cases type.layout? <;> simp [Function.comp_def]

theorem exposedNames_below {fields others : List Field}
    (below : List.Forall₂ FieldBelow fields others) :
    fields.flatMap exposedNames = others.flatMap exposedNames := by
  induction below with
  | nil => rfl
  | cons head _ ih => rw [List.flatMap_cons, List.flatMap_cons, head.exposedNames_eq, ih]

theorem rel_filter {unit other : Option StorageUnit}
    (units : Option.Rel StorageUnit.Below unit other) (type : CType) (width : Nat) :
    Option.Rel StorageUnit.Below (unit.filter (·.admits type width))
      (other.filter (·.admits type width)) := by
  cases units with
  | none => exact .none
  | @some unit other below =>
    have alike : unit.admits type width = other.admits type width := by
      rw [StorageUnit.admits, StorageUnit.admits, below.size, below.used]
    rw [Option.filter_some, Option.filter_some, alike]
    split
    · exact .some below
    · exact .none

/-- What two placements make of one field. -/
def PlacedBelow (placed other : Cursor × Option Field) : Prop :=
  Cursor.Below placed.1 other.1 ∧ Option.Rel FieldBelow placed.2 other.2

/-- A field is placed by the same rule in both. -/
theorem placeExact_below {kind : CompositeKind} {align wider : Nat} {cursor other : Cursor}
    (divides : align ∣ wider) (power : wider.isPowerOfTwo) (below : Cursor.Below cursor other)
    (decl : FieldDecl) :
    PlacedBelow (placeExact kind align cursor decl) (placeExact kind wider other decl) := by
  have aligns := max_dvd_max below.align divides below.power power
  have powers := max_rec' Nat.isPowerOfTwo below.power power
  have starts := roundUp_mono below.offset divides (Nat.pos_of_isPowerOfTwo power)
  have ends := Nat.add_le_add_right starts decl.type.size
  unfold placeExact
  dsimp only
  cases decl.bits with
  | none =>
    cases kind with
    | struct => exact ⟨⟨ends, max_le_max below.size ends, aligns, powers, .none⟩,
        .some ⟨rfl, rfl, rfl, starts⟩⟩
    | union => exact ⟨⟨Nat.le_refl _, max_le_max_right _ below.size, aligns, powers, .none⟩,
        .some ⟨rfl, rfl, rfl, Nat.le_refl _⟩⟩
  | some width =>
    dsimp only
    split
    · cases kind with
      | struct => exact ⟨⟨starts, max_le_max below.size starts, aligns, powers, .none⟩, .none⟩
      | union => exact ⟨⟨below.offset, below.size, aligns, powers, .none⟩, .none⟩
    · cases kind with
      | union => exact ⟨⟨below.offset, max_le_max_right _ below.size, aligns, powers, below.unit⟩,
          .some ⟨rfl, rfl, rfl, Nat.le_refl _⟩⟩
      | struct =>
        have shared := rel_filter below.unit decl.type width
        generalize cursor.unit.filter (·.admits decl.type width) = mine at shared ⊢
        generalize other.unit.filter (·.admits decl.type width) = theirs at shared ⊢
        -- The two placements join a unit or open one together.
        cases shared with
        | none => exact ⟨⟨ends, max_le_max below.size ends, aligns, powers,
            .some ⟨rfl, rfl, starts⟩⟩, .some ⟨rfl, rfl, rfl, starts⟩⟩
        | @some mine theirs unit =>
          have used : mine.used + width = theirs.used + width := congrArg (· + width) unit.used
          have slot : some (BitSlot.mk mine.used width) = some ⟨theirs.used, width⟩ := by
            rw [unit.used]
          exact ⟨⟨below.offset, below.size, aligns, powers, .some ⟨unit.size, used, unit.offset⟩⟩,
            .some ⟨rfl, rfl, slot, unit.offset⟩⟩

/-! ## Whole declarations -/

/-- Two outcomes are results that are related or the same failure, unless the second one is an
overflow. -/
inductive Follows {α β : Type} (related : α → β → Prop) :
    Except Failure α → Except Failure β → Prop
  | results {a : α} {b : β} (held : related a b) : Follows related (.ok a) (.ok b)
  | refused (failure : Failure) : Follows related (.error failure) (.error failure)
  | overflow {outcome : Except Failure α} {other : Except Failure β} (overflows : Overflows other) :
      Follows related outcome other

theorem Follows.bind {α β γ δ : Type} {related : α → β → Prop} {outcome : Except Failure α}
    {other : Except Failure β} {next : α → Except Failure γ} {next' : β → Except Failure δ}
    {ending : γ → δ → Prop} (own : Follows related outcome other)
    (rest : ∀ a b, outcome = .ok a → other = .ok b → related a b →
      Follows ending (next a) (next' b)) :
    Follows ending (outcome >>= next) (other >>= next') := by
  cases own with
  | results held => exact rest _ _ rfl rfl held
  | refused failure => exact .refused failure
  | overflow overflows => exact .overflow (overflows.bind next')

theorem Follows.held {α β : Type} {related : α → β → Prop} {a : α} {b : β}
    (follows : Follows related (.ok a) (.ok b)) : related a b := by
  cases follows with
  | results held => exact held
  | overflow overflows => exact absurd overflows (not_overflows_ok b)

section Declaration

variable {name : String} {kind : CompositeKind} {packing wider : Packing} {cursor other : Cursor}
  {decl : FieldDecl} {decls : List FieldDecl}

theorem place_follows (tighter : packing.Tighter wider) (power : decl.type.align.isPowerOfTwo)
    (below : Cursor.Below cursor other) (word : other.offset < Word.modulus) :
    Follows PlacedBelow (place name kind packing cursor decl)
      (place name kind wider other decl) := by
  have wide := Packing.isPowerOfTwo_effective tighter.accepted' power
  have divides := dvd_of_power_of_le (Packing.isPowerOfTwo_effective tighter.accepted power) wide
    (tighter.le _)
  have both : PlacedBelow (placeExact kind (packing.effective decl.type.align) cursor decl)
      (placeExact kind (wider.effective decl.type.align) other decl) :=
    placeExact_below divides wide below decl
  rcases place_cases name kind wider decl word with
    ⟨fault, found, refused⟩ | ⟨sound, ⟨fits, same⟩ | ⟨_, overflows⟩⟩
  · rw [refused, place_of_fault found]
    exact .refused _
  · rw [same, place_of_sound sound, placeSound_of_lt (Nat.lt_of_le_of_lt both.1.offset fits)]
    exact .results both
  · exact .overflow overflows

/-- What two placements make of a declaration. -/
def PlacedAllBelow (placed other : Cursor × List Field) : Prop :=
  Cursor.Below placed.1 other.1 ∧ List.Forall₂ FieldBelow placed.2 other.2

/-- Two placements refuse a declaration together or place all of it together, unless the wider one
overflows. -/
theorem placeAll_follows (tighter : packing.Tighter wider)
    (powers : ∀ decl ∈ decls, decl.type.align.isPowerOfTwo) (below : Cursor.Below cursor other)
    (word : other.offset < Word.modulus) :
    Follows PlacedAllBelow (placeAll name kind packing cursor decls)
      (placeAll name kind wider other decls) := by
  induction decls generalizing cursor other with
  | nil => exact .results ⟨below, .nil⟩
  | cons decl rest ih =>
    obtain ⟨own, later⟩ := List.forall_mem_cons.mp powers
    have first : Follows PlacedBelow (place name kind packing cursor decl)
        (place name kind wider other decl) := place_follows tighter own below word
    refine first.bind fun ⟨next, field⟩ ⟨next', field'⟩ _ ran ⟨onward, placed⟩ => ?_
    have tails := ih later onward (eq_of_place word ran).2.1
    refine tails.bind fun ⟨last, tail⟩ ⟨last', tail'⟩ _ _ ⟨ends, others⟩ => .results ⟨ends, ?_⟩
    cases placed with
    | none => exact others
    | some head => exact .cons head others

end Declaration

/-! ## Whole layouts -/

section Layouts

variable {name : String} {kind : CompositeKind} {decls : List FieldDecl} {packing wider : Packing}

theorem compute_follows (tighter : packing.Tighter wider)
    (built : ∀ decl ∈ decls, decl.type.Built)
    (powers : ∀ decl ∈ decls, decl.type.align.isPowerOfTwo) :
    Follows Below (compute name kind decls packing) (compute name kind decls wider) := by
  rw [compute_of_accepted tighter.accepted, compute_of_accepted tighter.accepted']
  have run : Follows PlacedAllBelow (placeAll name kind packing {} decls)
      (placeAll name kind wider {} decls) :=
    placeAll_follows tighter powers Cursor.below_start Word.modulus_pos
  refine run.bind fun ⟨last, fields⟩ ⟨last', fields'⟩ ran ran' ⟨below, alike⟩ => ?_
  have names : (fields.flatMap exposed).map (·.name) = (fields'.flatMap exposed).map (·.name) := by
    rw [names_table, names_table, exposedNames_below alike]
  have entered : enterAll name [] (fields.flatMap exposed)
      = enterAll name [] (fields'.flatMap exposed) :=
    enterAll_congr names (offset_lt_of_placeAll tighter.accepted built ran)
      (offset_lt_of_placeAll tighter.accepted' built ran')
  have rounded := roundUp_mono below.size below.align (Nat.pos_of_isPowerOfTwo below.power)
  dsimp only [assemble]
  rw [entered]
  cases enterAll name [] (fields'.flatMap exposed) with
  | error failure => exact .refused failure
  | ok =>
    rcases Nat.lt_or_ge (roundUp last'.size last'.align) Word.modulus with fits | beyond
    · rw [alignUp_of_lt fits, alignUp_of_lt (Nat.lt_of_le_of_lt rounded fits)]
      have align := Nat.le_of_dvd (Nat.pos_of_isPowerOfTwo below.power) below.align
      exact .results ⟨alike, align, rounded⟩
    · exact .overflow ((alignUp_of_le beyond).bind _)

/-- Packings that align all fields alike place them alike. -/
theorem placeAll_congr {other : Packing} {cursor : Cursor}
    (same : ∀ decl ∈ decls, packing.effective decl.type.align = other.effective decl.type.align) :
    placeAll name kind packing cursor decls = placeAll name kind other cursor decls := by
  induction decls generalizing cursor with
  | nil => rfl
  | cons decl rest ih =>
    obtain ⟨own, later⟩ := List.forall_mem_cons.mp same
    have first : place name kind packing cursor decl = place name kind other cursor decl := by
      unfold place
      rw [own]
    simp only [placeAll, first, ih later]

/-- A packing that caps no alignment has no effect. -/
theorem compute_of_wide {n : Nat} (accepted : Packing.isPowerOfTwo n = true)
    (wide : ∀ decl ∈ decls, decl.type.align ≤ n) :
    compute name kind decls (.packed n)
      = (compute name kind decls .natural).map ({ · with packing := .packed n }) := by
  have accepted : (Packing.packed n).Accepted := accepted
  have same : placeAll name kind (.packed n) {} decls = placeAll name kind .natural {} decls :=
    placeAll_congr fun decl mem => Nat.min_eq_left (wide decl mem)
  have natural : Packing.natural.Accepted := trivial
  rw [compute_of_accepted accepted, compute_of_accepted natural, same]
  rcases placeAll name kind .natural {} decls with failure | ⟨last, fields⟩
  · rfl
  show assemble name kind (.packed n) last fields = (assemble name kind .natural last fields).map _
  dsimp only [assemble]
  rcases enterAll name [] (fields.flatMap exposed) with failure | ⟨⟩
  · rfl
  · rcases alignUp last.size last.align with failure | size <;> rfl

/-- However tightly a declaration is packed, the same fields are placed with the same bits, or it is
refused for the same reason; the tighter of two packings places no field farther from the start, and
needs no more space. Only the wider one may overflow alone. A packing that caps no alignment has no
effect. -/
theorem compute_packing_mono {n m : Nat} (built : ∀ decl ∈ decls, decl.type.Built)
    (powers : ∀ decl ∈ decls, decl.type.align.isPowerOfTwo)
    (first : Packing.isPowerOfTwo n = true) (second : Packing.isPowerOfTwo m = true) (le : n ≤ m) :
    Follows Below (compute name kind decls (.packed n)) (compute name kind decls (.packed m))
      ∧ Follows Below (compute name kind decls (.packed m)) (compute name kind decls .natural)
      ∧ ((∀ decl ∈ decls, decl.type.align ≤ n) →
        compute name kind decls (.packed n)
          = (compute name kind decls .natural).map ({ · with packing := .packed n })) :=
  ⟨compute_follows (Packing.tighter_packed first second le) built powers,
    compute_follows (Packing.tighter_natural second) built powers,
    compute_of_wide first⟩

end Layouts

theorem mixed_powers : ∀ decl ∈ mixedDecls, decl.type.align.isPowerOfTwo := by
  simp only [mixedDecls, List.forall_mem_cons]
  exact ⟨⟨0, rfl⟩, ⟨2, rfl⟩, ⟨2, rfl⟩, ⟨2, rfl⟩, ⟨3, rfl⟩, by simp⟩

/-- The byte, the bit-fields and the double, each closer to the start than without packing. -/
theorem mixed_packed :
    (∀ decl ∈ mixedDecls, decl.type.Built) ∧ (∀ decl ∈ mixedDecls, decl.type.align.isPowerOfTwo)
      ∧ Packing.isPowerOfTwo 2 = true ∧ Packing.isPowerOfTwo 4 = true ∧ 2 ≤ 4
      ∧ ∃ layout tighter, compute "Mixed" .struct mixedDecls (.packed 4) = .ok layout
        ∧ compute "Mixed" .struct mixedDecls (.packed 2) = .ok tighter
        ∧ Below tighter layout ∧ Below layout mixedLayout ∧ tighter.size = 14 := by
  have two : Packing.isPowerOfTwo 2 = true := by decide
  have four : Packing.isPowerOfTwo 4 = true := by decide
  have le : 2 ≤ 4 := by decide
  obtain ⟨narrow, wide, _⟩ := @compute_packing_mono "Mixed" .struct mixedDecls 2 4 mixed_built
    mixed_powers two four le
  rw [compute_mixed] at wide
  exact ⟨mixed_built, mixed_powers, two, four, le, _, _, rfl, rfl, narrow.held, wide.held, rfl⟩

/-! ## Where a tighter packing differs -/

/-- Almost as many bytes as there are words, and two numbers behind them. -/
def strandedDecls : List FieldDecl :=
  [⟨some "b", .array (.natural "uint8" .w8 false) 0xfffffffffffffff6, none⟩,
    ⟨some "c", .natural "uint64" .w64 false, none⟩, ⟨some "d", .natural "uint8" .w8 false, none⟩]

/-- A wide character of three bytes. -/
def oddDecls : List FieldDecl := [⟨some "z", .stray 3, none⟩]

/-- Packed to bytes, both numbers fit behind the bytes; aligned, the first one would end where the
words do. And three bytes that are aligned to three need no fourth one, but they do when they are
packed to two. -/
theorem packing_not_mono :
    ((∀ decl ∈ strandedDecls, decl.type.Built)
        ∧ (∀ decl ∈ strandedDecls, decl.type.align.isPowerOfTwo)
        ∧ Packing.isPowerOfTwo 1 = true
        ∧ (∃ tight, compute "Stranded" .struct strandedDecls (.packed 1) = .ok tight
          ∧ tight.fields.map (·.offset) = [0, 0xfffffffffffffff6, 0xfffffffffffffffe])
        ∧ compute "Stranded" .struct strandedDecls .natural = .error (.overflow "add"))
      ∧ (∀ decl ∈ oddDecls, decl.type.Built)
      ∧ Packing.isPowerOfTwo 2 = true
      ∧ ∃ tight layout, compute "Odd" .struct oddDecls (.packed 2) = .ok tight
        ∧ compute "Odd" .struct oddDecls .natural = .ok layout
        ∧ tight.size = 4 ∧ layout.size = 3 := by
  have byte := CType.Built.primitive (rfl : Primitive.uint8.type? .host = some _)
  have long := CType.Built.primitive (rfl : Primitive.uint64.type? .host = some _)
  have odd : (CType.stray 3).Built := CType.built_wide 3 (by decide)
  have bytes := CType.Built.array byte
    (rfl : Registry.array _ 0xfffffffffffffff6 = .ok (.array (.natural "uint8" .w8 false) _))
  refine ⟨⟨?built, ?powers, by decide, ⟨_, rfl, rfl⟩, rfl⟩, ?odd, by decide, _, _, rfl, rfl, rfl,
    rfl⟩
  case built => simpa only [strandedDecls, List.forall_mem_cons] using ⟨bytes, long, byte, by simp⟩
  case powers =>
    simp only [strandedDecls, List.forall_mem_cons]
    exact ⟨⟨0, rfl⟩, ⟨3, rfl⟩, ⟨0, rfl⟩, by simp⟩
  case odd => simpa only [oddDecls, List.forall_mem_cons] using ⟨odd, by simp⟩

end Layout

end CInterop
