import Mathlib.Order.MinMax
import CInterop.Config.Settings
import CInterop.Proofs.Layout.Members

/-!
# Alignment at every depth

On the platforms that there are tables for, scalars take as many bytes as they are aligned to. So
every type is aligned to a power of two that divides its size (`CType.Regular`), however the
composites inside are packed. Without packing every part is aligned, at whatever depth it lies
(`CType.aligned_at_every_depth`).

The one exception are settings that were not validated: they may give wide characters any size
(`CType.wchar_unaligned`), and powers of two are what the rest depends on (`Platform.EvenWide`).
-/

namespace CInterop

/-! ## Powers of two -/

theorem Packing.isPowerOfTwo_effective {packing : Packing} (accepted : packing.Accepted)
    {align : Nat} (power : align.isPowerOfTwo) : (packing.effective align).isPowerOfTwo := by
  cases packing with
  | natural => exact power
  | packed limit =>
    have own : limit = 2 ^ limit.log2 := by
      have same : limit = 1 <<< limit.log2 := of_decide_eq_true accepted
      rwa [Nat.one_shiftLeft] at same
    exact min_rec' Nat.isPowerOfTwo power ⟨_, own⟩

namespace Layout

/-- Of two powers of two the larger one is a multiple of both. -/
theorem dvd_max_of_power {a b : Nat} (first : a.isPowerOfTwo) (second : b.isPowerOfTwo) :
    a ∣ max a b ∧ b ∣ max a b := by
  obtain ⟨i, rfl⟩ := first
  obtain ⟨j, rfl⟩ := second
  rcases Nat.le_total i j with le | le
  · rw [Nat.max_eq_right (Nat.pow_le_pow_right Nat.two_pos le)]
    exact ⟨Nat.pow_dvd_pow 2 le, Nat.dvd_refl _⟩
  · rw [Nat.max_eq_left (Nat.pow_le_pow_right Nat.two_pos le)]
    exact ⟨Nat.dvd_refl _, Nat.pow_dvd_pow 2 le⟩

theorem max_dvd_max {a b c d : Nat} (first : a ∣ c) (second : b ∣ d) (power : c.isPowerOfTwo)
    (power' : d.isPowerOfTwo) : max a b ∣ max c d := by
  obtain ⟨left, right⟩ := dvd_max_of_power power power'
  exact max_rec' (· ∣ max c d) (Nat.dvd_trans first left) (Nat.dvd_trans second right)

namespace PlacingAll

variable {kind : CompositeKind} {packing : Packing} {cursor last : Cursor}
  {decls : List FieldDecl} {fields : List Field}

theorem isPowerOfTwo (steps : PlacingAll kind packing cursor decls last fields)
    (accepted : packing.Accepted) (powers : ∀ decl ∈ decls, decl.type.align.isPowerOfTwo)
    (power : cursor.align.isPowerOfTwo) : last.align.isPowerOfTwo := by
  induction steps with
  | nil => exact power
  | cons first _ ih =>
    obtain ⟨own, later⟩ := List.forall_mem_cons.mp powers
    refine ih later ?_
    rw [first.align_eq]
    exact max_rec' Nat.isPowerOfTwo power (Packing.isPowerOfTwo_effective accepted own)

/-- The alignments of all fields divide that of the composite. -/
theorem align_dvd (steps : PlacingAll kind packing cursor decls last fields)
    (accepted : packing.Accepted) (powers : ∀ decl ∈ decls, decl.type.align.isPowerOfTwo)
    (power : cursor.align.isPowerOfTwo) :
    cursor.align ∣ last.align ∧ ∀ decl ∈ decls, packing.effective decl.type.align ∣ last.align := by
  induction steps with
  | nil => exact ⟨Nat.dvd_refl _, List.forall_mem_nil _⟩
  | cons first _ ih =>
    obtain ⟨own, later⟩ := List.forall_mem_cons.mp powers
    have effective := Packing.isPowerOfTwo_effective accepted own
    obtain ⟨left, right⟩ := dvd_max_of_power power effective
    have grown := first.align_eq
    obtain ⟨whole, rest⟩ := ih later (grown ▸ max_rec' Nat.isPowerOfTwo power effective)
    rw [grown] at whole
    exact ⟨Nat.dvd_trans left whole, List.forall_mem_cons.mpr ⟨Nat.dvd_trans right whole, rest⟩⟩

end PlacingAll

end Layout

/-! ## Platforms -/

namespace Platform

/-- The platforms that there are tables for: the host, the data models, and what settings describe,
validated or not. -/
inductive Offered : Platform → Prop
  | host : Offered .host
  | ofModel (model : DataModel) : Offered (.ofModel model)
  | described {settings : Settings} {platform : Platform}
      (found : settings.describedPlatform = .ok platform) : Offered platform

/-- Wide characters take a power of two of bytes, or none at all. -/
def EvenWide (platform : Platform) : Prop := platform.wchar = 0 ∨ platform.wchar.isPowerOfTwo

/-- The platforms that there are tables for with wide characters like this. -/
def Even (platform : Platform) : Prop := platform.Offered ∧ platform.EvenWide

/-- 64-bit numbers are aligned to their size. -/
structure Wide (platform : Platform) : Prop where
  int64 : platform.int64Align = 8
  double : platform.doubleAlign = 8

theorem Wide.withWchar {table platform : Platform} (wide : table.Wide) {size : Nat}
    (chosen : table.withWchar size = .ok platform) : platform.Wide := by
  unfold Platform.withWchar at chosen
  split at chosen
  · cases chosen
    exact ⟨wide.int64, wide.double⟩
  · cases chosen

theorem Wide.orHost {table : Platform} (wide : table.Wide) : table.orHost.Wide := by
  unfold Platform.orHost
  split
  · exact ⟨rfl, rfl⟩
  · exact wide

theorem wide_of_configured {model : Option DataModel} {wchar : Option Nat} {platform : Platform}
    (found : configured model wchar = .ok platform) : platform.Wide := by
  cases wchar with
  | none =>
    cases found
    refine Wide.orHost ?_
    cases model <;> exact ⟨rfl, rfl⟩
  | some size =>
    obtain ⟨table, chosen, found⟩ := bind_eq_ok.mp found
    cases found
    refine (Wide.withWchar ?_ chosen).orHost
    cases model <;> exact ⟨rfl, rfl⟩

/-- Wherever 64-bit numbers are offered, they are aligned to their size. -/
theorem Offered.wide {platform : Platform} (offered : platform.Offered) : platform.Wide := by
  cases offered with
  | host | ofModel => exact ⟨rfl, rfl⟩
  | described found => exact wide_of_configured found

end Platform

namespace CType

/-- The types that registries of some platforms make, with some packings of composites. -/
inductive Offered (platforms : Platform → Prop) (packings : Packing → Prop) : CType → Prop
  | primitive {platform : Platform} {primitive : Primitive} {type : CType}
      (offered : platforms platform) (described : primitive.type? platform = some type) :
      Offered platforms packings type
  | pointer {registry : Registry} {target : CType} (offered : platforms registry.platform) :
      Offered platforms packings (registry.pointerTo target)
  | array {element type : CType} {count : Nat} (offered : Offered platforms packings element)
      (sized : Registry.array element count = .ok type) : Offered platforms packings type
  | composite {name : String} {kind : CompositeKind} {decls : List FieldDecl} {packing : Packing}
      {layout : Layout} (offered : ∀ decl ∈ decls, Offered platforms packings decl.type)
      (allowed : packings packing)
      (computed : Layout.compute name kind decls packing = .ok layout) :
      Offered platforms packings (.composite layout)

/-! ## Every type -/

/-- A type is aligned to a power of two that divides its size. Integers that take bytes at all take
just as many as they are aligned to. -/
structure Regular (type : CType) : Prop where
  power : type.align.isPowerOfTwo
  whole : type.align ∣ type.size
  unit : type.isIntegral = true → 0 < type.size → type.align = type.size

theorem regular_of_width {type : CType} (width : Width) (size : type.size = width.bytes)
    (align : type.align = width.bytes) : Regular type where
  power := by
    rw [align]
    cases width
    exacts [⟨0, rfl⟩, ⟨1, rfl⟩, ⟨2, rfl⟩, ⟨3, rfl⟩]
  whole := align.trans size.symm ▸ Nat.dvd_refl _
  unit _ _ := align.trans size.symm

theorem regular_stray {bytes : Nat} (even : bytes = 0 ∨ bytes.isPowerOfTwo) :
    Regular (.stray bytes) := by
  rcases even with rfl | power
  · exact ⟨⟨0, rfl⟩, Nat.dvd_zero _, fun _ some => absurd some (Nat.lt_irrefl 0)⟩
  · have own : max 1 bytes = bytes := Nat.max_eq_right (Nat.pos_of_isPowerOfTwo power)
    have align : (CType.stray bytes).align = bytes := own
    refine ⟨?_, ?_, fun _ _ => align⟩
    · rw [align]
      exact power
    · rw [align]
      exact Nat.dvd_refl bytes

theorem regular_wide {bytes : Nat} (even : bytes = 0 ∨ bytes.isPowerOfTwo) :
    Regular (.wide bytes) := by
  rcases wide_cases bytes with ⟨width, -, wide⟩ | stray
  · rw [wide]
    exact regular_of_width width rfl rfl
  · rw [stray]
    exact regular_stray even

theorem regular_of_primitive {platform : Platform} {primitive : Primitive} {type : CType}
    (even : platform.Even) (described : primitive.type? platform = some type) :
    Regular type := by
  obtain ⟨int64, double⟩ := even.1.wide
  have long : (if platform.long = .w64 then 8 else platform.long.bytes) = platform.long.bytes := by
    cases platform.long <;> rfl
  simp only [Primitive.type?, int64, double, natural] at described
  cases primitive <;> cases described
  case void =>
    exact ⟨⟨0, rfl⟩, Nat.one_dvd _, fun integral => absurd integral Bool.false_ne_true⟩
  case bool | int8 | uint8 => exact regular_of_width .w8 rfl rfl
  case int16 | uint16 => exact regular_of_width .w16 rfl rfl
  case int32 | uint32 | float => exact regular_of_width .w32 rfl rfl
  case int64 | uint64 | double => exact regular_of_width .w64 rfl rfl
  case long | ulong => exact regular_of_width platform.long rfl long
  case wchar => exact regular_wide even.2
  all_goals exact regular_of_width _ rfl rfl

end CType

namespace Layout

/-- The open storage unit is aligned to its size. -/
def Cursor.Even (cursor : Cursor) : Prop :=
  ∀ unit, cursor.unit = some unit → unit.size ∣ unit.offset

/-- Without packing every field is aligned; bit-fields that share a storage unit have types of its
size, and so of its alignment. -/
theorem Placing.even {kind : CompositeKind} {cursor next : Cursor} {decl : FieldDecl}
    {field : Option Field} (regular : decl.type.Regular) (sound : decl.Sound) (even : cursor.Even)
    (step : Placing decl.type.align cursor decl kind next field) :
    next.Even ∧ ∀ f, field = some f → decl.type.align ∣ f.offset := by
  have closed {cursor : Cursor} (shut : cursor.unit = none) : cursor.Even := by
    simp [Cursor.Even, shut]
  cases step with
  | ordinary begins =>
    refine ⟨closed rfl, ?_⟩
    rintro _ ⟨⟩
    exact begins ▸ dvd_roundUp _ _
  | close | overlayNothing => exact ⟨closed rfl, fun _ placed => nomatch placed⟩
  | overlay =>
    refine ⟨closed rfl, ?_⟩
    rintro _ ⟨⟩
    exact Nat.dvd_zero _
  | overlayBits =>
    refine ⟨even, ?_⟩
    rintro _ ⟨⟩
    exact Nat.dvd_zero _
  | join bits positive isOpen alike room =>
    have unit := regular.unit (sound.integral _ bits) (by omega)
    have own := even _ isOpen
    constructor
    · rintro _ ⟨⟩
      exact own
    · rintro _ ⟨⟩
      rwa [alike, ← unit] at own
  | @start width start bits positive begins room =>
    have unit := regular.unit (sound.integral _ bits) (by omega)
    have own : decl.type.align ∣ start := begins ▸ dvd_roundUp _ _
    constructor
    · rintro _ ⟨⟩
      exact unit ▸ own
    · rintro _ ⟨⟩
      exact own

theorem PlacingAll.even {kind : CompositeKind} {cursor last : Cursor} {decls : List FieldDecl}
    {fields : List Field} (steps : PlacingAll kind .natural cursor decls last fields)
    (regular : ∀ decl ∈ decls, decl.type.Regular) (sound : ∀ decl ∈ decls, decl.Sound)
    (even : cursor.Even) :
    ∀ field ∈ fields, ∃ decl ∈ decls, field.type = decl.type ∧ decl.type.align ∣ field.offset := by
  induction steps with
  | nil => exact List.forall_mem_nil _
  | @cons _ _ _ decl _ _ _ first _ ih =>
    obtain ⟨own, later⟩ := List.forall_mem_cons.mp regular
    obtain ⟨own_sound, later_sound⟩ := List.forall_mem_cons.mp sound
    obtain ⟨even, head⟩ := first.even own own_sound even
    intro field mem
    rcases List.mem_append.mp mem with placed | behind
    · rw [Option.mem_toList] at placed
      subst placed
      exact ⟨decl, List.mem_cons_self, first.type_eq, head field rfl⟩
    · obtain ⟨other, found, aligned⟩ := ih later later_sound even field behind
      exact ⟨other, List.mem_cons_of_mem _ found, aligned⟩

end Layout

namespace CType

theorem partless_of_primitive {platform : Platform} {primitive : Primitive} {type : CType}
    (described : primitive.type? platform = some type) :
    (∀ element count, type ≠ .array element count) ∧ ∀ layout, type ≠ .composite layout := by
  rcases primitive_cases described with rfl | rfl | ⟨_, _, _, _, _, rfl⟩ | ⟨_, _, _, rfl⟩
    | ⟨_, _, rfl⟩ | ⟨_, _, rfl⟩ <;> simp

theorem Offered.mono {platforms : Platform → Prop} {packings others : Packing → Prop}
    {type : CType} (offered : Offered platforms packings type)
    (fewer : ∀ packing, packings packing → others packing) : Offered platforms others type := by
  induction offered with
  | primitive offered described => exact .primitive offered described
  | pointer offered => exact .pointer offered
  | array _ sized ih => exact .array ih sized
  | composite _ allowed computed ih => exact .composite ih (fewer _ allowed) computed

theorem Offered.regular {packings : Packing → Prop} {type : CType}
    (offered : Offered Platform.Even packings type) : Regular type := by
  induction offered with
  | primitive offered described => exact regular_of_primitive offered described
  | @pointer registry target _ =>
    obtain ⟨pointee, same⟩ := pointerTo_eq registry target
    rw [same]
    exact regular_of_width _ rfl rfl
  | array _ sized regular =>
    obtain ⟨_, _, rfl⟩ := Registry.array_eq_ok sized
    exact ⟨regular.power, Nat.dvd_mul_right_of_dvd regular.whole _,
      fun integral => absurd integral Bool.false_ne_true⟩
  | composite _ _ computed regular =>
    obtain ⟨accepted, last, fields, placed, _, _, rfl⟩ := Layout.compute_eq_ok computed
    have power := (Layout.placingAll_of_placeAll Word.modulus_pos placed).isPowerOfTwo accepted
      (fun decl mem => (regular decl mem).power) ⟨0, rfl⟩
    exact ⟨power, Layout.dvd_roundUp _ _, fun integral => absurd integral Bool.false_ne_true⟩

/-! ## Every part -/

/-- What is reached from a type by elements of arrays and parts of composites, and how far from the
start. For a bit-field it is the storage unit. -/
inductive Reaches : CType → Nat → CType → Prop
  | here {type : CType} : Reaches type 0 type
  | element {element part : CType} {count i offset : Nat} (inside : i < count)
      (rest : Reaches element offset part) :
      Reaches (.array element count) (element.size * i + offset) part
  | field {layout : Layout} {field : Field} {part : CType} {offset : Nat}
      (mem : field ∈ layout.fields) (rest : Reaches field.type offset part) :
      Reaches (.composite layout) (field.offset + offset) part
  | member {layout : Layout} {member : Member} {part : CType} {offset : Nat}
      (mem : member ∈ layout.members) (rest : Reaches member.type offset part) :
      Reaches (.composite layout) (member.offset + offset) part

/-- A part of a composite lies at a multiple of its alignment, which divides that of the
composite. -/
structure Seated {ν : Type} (layout : Layout) (part : Placed ν CType) : Prop where
  offered : Offered Platform.Even (· = .natural) part.type
  inside : part.type.align ∣ layout.align
  aligned : part.type.align ∣ part.offset

section

variable {layout : Layout}

/-- What lies in a part at a multiple of its alignment does so in the composite. -/
theorem Seated.within {ν : Type} {part : Placed ν CType} (seated : Seated layout part)
    {align offset : Nat} (inside : align ∣ part.type.align) (aligned : align ∣ offset) :
    align ∣ layout.align ∧ align ∣ part.offset + offset :=
  ⟨Nat.dvd_trans inside seated.inside,
    Nat.dvd_add (Nat.dvd_trans inside seated.aligned) aligned⟩

theorem seated_of_compute {name : String} {kind : CompositeKind} {decls : List FieldDecl}
    (offered : ∀ decl ∈ decls, Offered Platform.Even (· = .natural) decl.type)
    (computed : Layout.compute name kind decls .natural = .ok layout) :
    ∀ field ∈ layout.fields, Seated layout field := by
  have regular decl (mem : decl ∈ decls) := (offered decl mem).regular
  obtain ⟨accepted, last, fields, placed, _, _, rfl⟩ := Layout.compute_eq_ok computed
  have steps := Layout.placingAll_of_placeAll Word.modulus_pos placed
  obtain ⟨_, inside⟩ := steps.align_dvd accepted (fun decl mem => (regular decl mem).power)
    ⟨0, rfl⟩
  intro field mem
  obtain ⟨decl, found, same, aligned⟩ := steps.even regular
    (Layout.eq_of_placeAll Word.modulus_pos placed).1 (by simp [Layout.Cursor.Even]) field mem
  rw [← same] at aligned
  exact ⟨same ▸ offered decl found, same ▸ inside decl found, aligned⟩

/-- A member is seated as its field is, or as it is in an unnamed composite that is seated. -/
theorem seated_of_exposed {field : Field} (seated : Seated layout field)
    (inner : ∀ below, field.type = .composite below → ∀ part ∈ below.members, Seated below part)
    {member : Member} (found : member ∈ Layout.exposed field) : Seated layout member := by
  rcases Layout.exposed_cases found with ⟨type, offset, _⟩ | ⟨below, part, composite, _, mem, rfl⟩
  · exact ⟨type ▸ seated.offered, type ▸ seated.inside, by rw [type, offset]; exact seated.aligned⟩
  · have own := inner below composite part mem
    have whole : part.type.align ∣ field.type.align := by
      rw [composite]
      exact own.inside
    obtain ⟨inside, aligned⟩ := seated.within whole own.aligned
    exact ⟨own.offered, inside, aligned⟩

theorem Offered.seated {type : CType} (offered : Offered Platform.Even (· = .natural) type) :
    ∀ layout, type = .composite layout →
      (∀ field ∈ layout.fields, Seated layout field)
        ∧ ∀ member ∈ layout.members, Seated layout member := by
  induction offered with
  | primitive _ described =>
    exact fun layout composite => ((partless_of_primitive described).2 layout composite).elim
  | @pointer registry target _ =>
    obtain ⟨pointee, same⟩ := pointerTo_eq registry target
    exact fun layout composite => nomatch same.symm.trans composite
  | array _ sized =>
    obtain ⟨_, _, rfl⟩ := Registry.array_eq_ok sized
    exact fun layout composite => nomatch composite
  | composite offered allowed computed ih =>
    rintro layout ⟨⟩
    subst allowed
    have fields := seated_of_compute offered computed
    refine ⟨fields, fun member mem => ?_⟩
    rw [Layout.members_of_compute computed] at mem
    obtain ⟨field, own, found⟩ := List.mem_flatMap.mp mem
    obtain ⟨_, decl, declared, same⟩ := Layout.proper_of_compute computed field own
    exact seated_of_exposed (fields field own)
      (fun below composite => (ih decl declared below (same ▸ composite)).2) found

end

theorem Offered.element {platforms : Platform → Prop} {packings : Packing → Prop}
    {type element : CType} {count : Nat} (offered : Offered platforms packings type)
    (array : type = .array element count) : Offered platforms packings element := by
  cases offered with
  | primitive _ described => cases (partless_of_primitive described).1 _ _ array
  | @pointer registry target =>
    obtain ⟨pointee, same⟩ := pointerTo_eq registry target
    cases same.symm.trans array
  | array offered sized =>
    obtain ⟨_, _, same⟩ := Registry.array_eq_ok sized
    cases same.symm.trans array
    exact offered
  | composite => cases array

/-- Whatever is reached from a type lies at a multiple of its own alignment, which divides that of
the type. -/
theorem Reaches.aligned {type part : CType} {offset : Nat} (reaches : Reaches type offset part)
    (offered : Offered Platform.Even (· = .natural) type) :
    Offered Platform.Even (· = .natural) part ∧ part.align ∣ type.align ∧ part.align ∣ offset := by
  induction reaches with
  | here => exact ⟨offered, Nat.dvd_refl _, Nat.dvd_zero _⟩
  | @element element part count i offset inside rest ih =>
    have own := offered.element rfl
    obtain ⟨made, whole, aligned⟩ := ih own
    have row := Nat.dvd_trans whole own.regular.whole
    exact ⟨made, whole, Nat.dvd_add (Nat.dvd_mul_right_of_dvd row i) aligned⟩
  | field mem _ ih =>
    have seated := (offered.seated _ rfl).1 _ mem
    obtain ⟨made, inside, aligned⟩ := ih seated.offered
    exact ⟨made, seated.within inside aligned⟩
  | member mem _ ih =>
    have seated := (offered.seated _ rfl).2 _ mem
    obtain ⟨made, inside, aligned⟩ := ih seated.offered
    exact ⟨made, seated.within inside aligned⟩

/-- Where wide characters take a power of two of bytes, or none, every type is aligned to a power of
two that divides its size, whatever the packings. Without packing, everything that is reached from
it by elements of arrays and parts of composites, at any depth, lies at a multiple of its own
alignment. -/
theorem aligned_at_every_depth {packings : Packing → Prop} {type : CType}
    (offered : Offered Platform.Even packings type) :
    type.align.isPowerOfTwo ∧ type.align ∣ type.size
      ∧ ((∀ packing, packings packing → packing = .natural) → ∀ offset part,
        Reaches type offset part → part.align ∣ offset) := by
  have regular := offered.regular
  refine ⟨regular.power, regular.whole, fun unpacked offset part reaches => ?_⟩
  exact (reaches.aligned (offered.mono unpacked)).2.2

/-- The storage unit of the second bit-field in the last of three structs. -/
theorem aligned_at_every_depth_mixed :
    Offered Platform.Even (· = .natural) (.array (.composite Layout.mixedLayout) 3)
      ∧ Reaches (.array (.composite Layout.mixedLayout) 3) 36 (.natural "uint32" .w32 false)
      ∧ (CType.natural "uint32" .w32 false).align ∣ 36 := by
  have scalar {primitive : Primitive} {type : CType} (own : primitive.type? .host = some type) :
      Offered Platform.Even (· = .natural) type := .primitive ⟨.host, .inr ⟨2, rfl⟩⟩ own
  have decls : ∀ decl ∈ Layout.mixedDecls, Offered Platform.Even (· = .natural) decl.type := by
    have byte := scalar (rfl : Primitive.uint8.type? .host = some _)
    have word := scalar (rfl : Primitive.uint32.type? .host = some _)
    have ratio := scalar (rfl : Primitive.double.type? .host = some _)
    simpa only [Layout.mixedDecls, List.forall_mem_cons] using
      ⟨byte, word, word, word, ratio, by simp⟩
  have sized : Registry.array (.composite Layout.mixedLayout) 3
      = .ok (.array (.composite Layout.mixedLayout) 3) := by rfl
  have offered : Offered Platform.Even (· = .natural) (.array (.composite Layout.mixedLayout) 3) :=
    .array (.composite decls rfl Layout.compute_mixed) sized
  have reaches : Reaches (.array (.composite Layout.mixedLayout) 3) 36
      (.natural "uint32" .w32 false) := by
    have last : 2 < 3 := by decide
    have high : ⟨some "high", .natural "uint32" .w32 false, 4, some ⟨3, 7⟩⟩
        ∈ Layout.mixedLayout.fields := by simp [Layout.mixedLayout]
    exact .element last (.field high .here)
  exact ⟨offered, reaches,
    (aligned_at_every_depth offered).2.2 (fun _ natural => natural) _ _ reaches⟩

/-- Settings that would not be valid: wide characters of three bytes. -/
def threeByteSettings : Settings := { platform := some { wcharSize := some 3 } }

/-- They describe a platform all the same, on which wide characters are aligned to three bytes. -/
theorem wchar_unaligned :
    Offered Platform.Offered (· = .natural) (.stray 3)
      ∧ (CType.stray 3).align = 3 ∧ ¬ (CType.stray 3).align.isPowerOfTwo := by
  have found : threeByteSettings.describedPlatform
      = .ok { Platform.host with wchar := 3, counted := by decide } := rfl
  refine ⟨.primitive (.described found) (rfl : Primitive.wchar.type? _ = some _), rfl, ?_⟩
  exact (by decide : ¬ Nat.isPowerOfTwo 3)

end CType

end CInterop
