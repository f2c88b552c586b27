import CInterop.Proofs.Instance.Interference
import CInterop.Proofs.View.Meeting

/-!
# The routes to a part of an instance

A member of a composite is reached by its name, as an instance of its own, and in the value of the
whole; an element of an array by its index, as an instance, in the value of the whole, and through
pointers to the first element. Each route adds up where the part lies in its own way: in the view on
the whole, in a view on the part, or in the view on the block. `Instance.routes_agree` says that all
of them read the same value and store in the same way.
-/

namespace CInterop

open HeapM

/-- A block that was allocated, and is no window on memory of others. -/
structure Block.Owned (block : Block) : Prop where
  own : block.native = false
  small : block.length ≤ Heap.largestBlock

theorem Heap.owned_of_allocate {length : Nat} {block : Block} {heap after : Heap}
    (allocated : allocate length heap = (.ok block, after)) : block.Owned := by
  have small := le_of_allocate_eq_ok allocated
  rw [allocate_eq_ok allocated]
  exact ⟨rfl, small⟩

/-! ## Signed words -/

namespace Word

theorem le_maxSigned {n : Nat} (small : n ≤ Heap.largestBlock) : (n : Int) ≤ maxSigned := by
  have large : (Heap.largestBlock : Int) ≤ maxSigned := by decide
  omega

theorem signed_of_le {n : Nat} (small : n ≤ Heap.largestBlock) : signed n = n :=
  if_pos (le_maxSigned small)

theorem checked_of_le {n : Nat} (small : n ≤ Heap.largestBlock) : checked n = some (n : Int) := by
  have low : minSigned ≤ n := Int.le_trans (by decide) (Int.natCast_nonneg n)
  refine checked_eq_some_iff.mpr ⟨?_, rfl⟩
  simp [fitsSigned, low, le_maxSigned small]

end Word

/-! ## Pointers to elements -/

namespace Pointer

/-- A pointer points to an instance. -/
structure PointsTo (p : Pointer) (x : Instance) : Prop where
  target : p.target = x.type
  place : p.place = .inBlock x.block (.ofNat x.offset)

namespace PointsTo

variable {p : Pointer} {x : Instance} {i : Nat}

/-- An element that lies in the block of the first one is found there. -/
theorem element (points : p.PointsTo x) (owned : x.block.Owned) (sized : 0 < x.type.size)
    (inside : x.offset + i * x.type.size + x.type.size ≤ x.block.length) (operation : String) :
    p.element operation (.ofNat i) = pure (x.block.view, x.offset + i * x.type.size) := by
  obtain ⟨type, block, start⟩ := x
  obtain ⟨rfl, place⟩ := points
  have small := owned.small
  have large : Heap.largestBlock < 2 ^ 63 := by decide
  dsimp only at inside place small sized ⊢
  have steps : i ≤ i * p.target.size := Nat.le_mul_of_pos_right i sized
  have index : (Int64.ofNat i).toInt = i := Int64.toInt_ofNat_of_lt (by omega)
  have first : (UInt64.ofNat start).toNat = start :=
    UInt64.toNat_ofNat_of_lt' (show start < 2 ^ 64 by omega)
  have size : Word.signed p.target.size = p.target.size := Word.signed_of_le (by omega)
  have distance : Word.checked ((i : Int) * (p.target.size : Int))
      = some ((i * p.target.size : Nat) : Int) := by
    rw [← Int.natCast_mul]
    exact Word.checked_of_le (by omega)
  have position : Word.checked (Word.signed start + ((i * p.target.size : Nat) : Int))
      = some ((start + i * p.target.size : Nat) : Int) := by
    rw [Word.signed_of_le (by omega), ← Int.natCast_add]
    exact Word.checked_of_le (by omega)
  unfold Pointer.element elementSize
  rw [if_neg (Nat.ne_of_gt sized)]
  simp only [place, index, first, size, liftM_pure, pure_bind, distance, Option.bind_eq_bind,
    Option.bind_some, position]

theorem index (points : p.PointsTo x) (owned : x.block.Owned) (sized : 0 < x.type.size)
    (inside : x.offset + i * x.type.size + x.type.size ≤ x.block.length) (heap : Heap) :
    p.index (.ofNat i) heap
      = (x.block.view.read heap x.type (x.offset + i * x.type.size), heap) := by
  rw [Pointer.index, points.element owned sized inside, points.target]
  rfl

theorem setIndex (points : p.PointsTo x) (owned : x.block.Owned) (sized : 0 < x.type.size)
    (inside : x.offset + i * x.type.size + x.type.size ≤ x.block.length) (value : Value) :
    p.setIndex (.ofNat i) value
      = x.block.view.write x.type (x.offset + i * x.type.size) value := by
  have own : x.block.view.block.native = false := owned.own
  rw [Pointer.setIndex, points.element owned sized inside, pure_bind, points.target]
  simp [own]

end PointsTo

end Pointer

/-- Each member that was read has its entry. -/
theorem View.exists_entry {heap : Heap} {view : View} {members : List Member} {base : Nat}
    {entries : List (String × Value)} (read : readMembers heap view members base = .ok entries)
    {member : Member} (mem : member ∈ members) :
    ∃ value, (member.name, value) ∈ entries ∧ view.readMember heap member base = .ok value := by
  replace read := readMembers_eq_ok.mp read
  induction read with
  | nil => cases mem
  | @cons _ entry _ _ first _ ih =>
    rcases List.mem_cons.mp mem with rfl | later
    · exact ⟨entry.2, first.1 ▸ List.mem_cons_self, first.2⟩
    · obtain ⟨value, found, own⟩ := ih later
      exact ⟨value, List.mem_cons_of_mem _ found, own⟩

/-- Each member has its value as an entry of the value of the whole. -/
theorem Spot.get?_of_reads {spot : Spot} {heap : Heap} {layout : Layout} {whole : Value}
    (distinct : (layout.members.map (·.name)).Nodup) (holds : spot.Holds layout.size)
    (read : spot.Reads heap (.composite layout) whole) {member : Member}
    (mem : member ∈ layout.members) :
    ∃ value, spot.ReadsMember heap member value ∧ whole.get? member.name = some value := by
  obtain ⟨entries, rfl, each⟩ := (Spot.reads_composite holds).mp read
  obtain ⟨value, found, own⟩ := View.exists_entry (View.readMembers_eq_ok.mpr each) mem
  have keys : (entries.map Prod.fst).Nodup := (Spot.entries_keys each).symm ▸ distinct
  exact ⟨value, own, Value.get?_ofEntries keys found⟩

namespace Instance

variable {x part : Instance}

/-- The place of an instance in the view on it. -/
def spot (x : Instance) : Spot := ⟨⟨x.block, x.offset, x.type.size⟩, 0⟩

theorem holds_spot (x : Instance) : x.spot.Holds x.type.size := ⟨Nat.le_of_eq (Nat.zero_add _)⟩

/-- The same place in the view on the block. -/
theorem meets_block (inside : x.Inside) :
    x.spot.Meets ⟨x.block.view, x.offset⟩ x.type.size where
  block := rfl
  begins := (Nat.add_zero _).trans (Nat.zero_add _).symm
  holds := x.holds_spot
  others := ⟨inside⟩

theorem value_of_inside (inside : x.Inside) (heap : Heap) :
    x.value heap = x.spot.view.read heap x.type x.spot.offset := by
  rw [value, view_of_inside inside]
  rfl

theorem setValue_of_inside (inside : x.Inside) (value : Value) :
    x.setValue value = x.spot.view.write x.type x.spot.offset value := by
  rw [setValue, view_of_inside inside]
  rfl

/-- An instance that can be read whole. -/
structure Whole (x : Instance) : Prop where
  built : x.type.Built
  near : x.type.strands = false
  inside : x.Inside

theorem Whole.exists_value (whole : x.Whole) (present : x.type.isVoid = false) (heap : Heap) :
    ∃ value, x.spot.Reads heap x.type value ∧ x.value heap = .ok value := by
  obtain ⟨value, read⟩ :=
    View.exists_read whole.built whole.near present x.holds_spot.inside
  exact ⟨value, read, (value_of_inside whole.inside heap).trans read⟩

/-- An instance that lies so many bytes behind the start of another, and inside it. -/
structure Within (part x : Instance) (distance : Nat) : Prop where
  block : part.block = x.block
  offset : part.offset = x.offset + distance
  inside : distance + part.type.size ≤ x.type.size

namespace Within

variable {distance : Nat}

theorem part_inside (within : part.Within x distance) (inside : x.Inside) : part.Inside := by
  have part_ends := within.inside
  unfold Inside at inside ⊢
  rw [within.block, within.offset]
  omega

theorem whole (within : part.Within x distance) (outer : x.Whole) (built : part.type.Built)
    (near : part.type.strands = false) : part.Whole :=
  ⟨built, near, within.part_inside outer.inside⟩

/-- A part is one place, in the view on the whole and in the view on itself. -/
theorem meets (within : part.Within x distance) :
    (x.spot.plus distance).Meets part.spot part.type.size where
  block := within.block.symm
  begins := by
    simp only [spot, Spot.plus, within.offset]
    omega
  holds := x.holds_spot.plus within.inside
  others := part.holds_spot

/-- What a part of a whole reads as is the value of the part. -/
theorem value (within : part.Within x distance) (inner : part.Whole)
    (present : part.type.isVoid = false) (heap : Heap) :
    ∃ value, (x.spot.plus distance).Reads heap part.type value ∧ part.value heap = .ok value := by
  obtain ⟨value, in_whole, alone⟩ := within.meets.read inner.built inner.near present heap
  exact ⟨value, in_whole, (value_of_inside inner.inside heap).trans alone⟩

/-- Storing in a part is storing in the whole. -/
theorem setValue (within : part.Within x distance) (inner : part.Whole)
    (value : Value) :
    part.setValue value
      = (x.spot.plus distance).view.write part.type (x.spot.plus distance).offset value := by
  rw [setValue_of_inside inner.inside, within.meets.write _ inner.built.contained value]

end Within

/-! ## Members -/

/-- The routes to a member. -/
structure MemberRoutes (x : Instance) (member : Member) : Prop where
  /-- By name, as an instance of its own, and in the value of the whole, the same is read. -/
  reads : ∀ heap, ∃ value whole, x.get heap member.name = .ok value
    ∧ (do (← x.field member.name).value heap) = .ok value
    ∧ x.value heap = .ok whole ∧ whole.get? member.name = some value
  /-- By name and as an instance of its own, the same is done: with the same result, to the same
  bytes, and to what is kept alive. -/
  stores : ∀ value, x.set member.name value
    = (do (← liftM (x.field member.name)).setValue value)

section

variable {layout : Layout} {member : Member}

/-- A member that is no bit-field, as an instance of its own. -/
theorem exists_field (composite : x.type = .composite layout) (outer : x.Whole)
    (mem : member ∈ layout.members) (plain : member.bits = none) :
    ∃ part : Instance, x.field member.name = .ok part ∧ part.type = member.type
      ∧ part.Whole ∧ part.Within x member.offset := by
  have shaped := composite ▸ outer.built.shaped
  have contained := composite ▸ outer.built.contained
  have ends := (contained.member member mem).1
  have within : Within ⟨member.type, x.block, x.offset + member.offset⟩ x member.offset := by
    refine ⟨rfl, rfl, ?_⟩
    rw [composite]
    exact ends
  have near : (CType.composite layout).strands = false := composite ▸ outer.near
  have whole := within.whole outer (outer.built.member composite member mem)
    (CType.strands_of_mem near member mem).2
  have named := Layout.member?_name shaped.distinct mem
  exact ⟨_, field_of_member? composite named plain, rfl, whole, within⟩

theorem memberRoutes (composite : x.type = .composite layout) (outer : x.Whole)
    (mem : member ∈ layout.members) (plain : member.bits = none) : x.MemberRoutes member := by
  have shaped := composite ▸ outer.built.shaped
  have size : x.type.size = layout.size := by rw [composite, CType.size]
  have holds : x.spot.Holds layout.size := size ▸ x.holds_spot
  have present : member.type.isVoid = false := (shaped.proper member mem).present
  have found := member_of_member? composite (Layout.member?_name shaped.distinct mem)
  obtain ⟨part, as_part, same, inner, within⟩ := exists_field composite outer mem plain
  rw [← same] at present
  constructor
  · intro heap
    obtain ⟨value, in_whole, own⟩ := within.value inner present heap
    rw [same] at in_whole
    have as_member := (Spot.readsMember_of_plain plain).mpr in_whole
    obtain ⟨whole, read, all⟩ := outer.exists_value (composite ▸ rfl) heap
    refine ⟨value, whole, ?_, ?_, all, ?_⟩
    · rw [get_of_member found, view_of_inside outer.inside]
      exact as_member
    · rw [as_part]
      exact own
    · rw [composite] at read
      obtain ⟨entry, again, named⟩ := Spot.get?_of_reads shaped.distinct holds read mem
      cases again.symm.trans as_member
      exact named
  · intro value
    have stored : x.spot.view.writeMember member 0 value = part.setValue value := by
      rw [within.setValue inner, View.writeMember, plain, same]
      rfl
    rw [set_of_member found, view_of_inside outer.inside, as_part]
    exact stored

end

/-! ## Elements -/

/-- The routes to an element of an array whose first element is another instance. -/
structure ItemRoutes (x first : Instance) (i : Nat) : Prop where
  /-- By index, as an instance of its own, in the value of the whole, and through a pointer, the
  same is read. -/
  reads : ∀ heap, ∃ value items, x.getIndex heap i = .ok value
    ∧ (do (← x.item i).value heap) = .ok value
    ∧ x.value heap = .ok (.list items) ∧ items[i]? = some value
    ∧ ∀ p : Pointer, p.PointsTo first → p.index (.ofNat i) heap = (.ok value, heap)
  /-- By index and through a pointer, the same is done. -/
  stores : ∀ value (p : Pointer), p.PointsTo first →
    x.setIndex i value = p.setIndex (.ofNat i) value

theorem itemRoutes {element : CType} {count i : Nat} (array : x.type = .array element count)
    (outer : x.Whole) (owned : x.block.Owned) (sized : 0 < element.size) (below : i < count) :
    ∃ first, x.item 0 = .ok first ∧ x.ItemRoutes first i := by
  have size : x.type.size = element.size * count := by rw [array, CType.size]
  have holds : x.spot.Holds (element.size * count) := size ▸ x.holds_spot
  have filled : 0 < count := Nat.zero_lt_of_lt below
  obtain ⟨built, present⟩ := (array ▸ outer.built : CType.Built _).element
  let part : Instance := ⟨element, x.block, x.offset + i * element.size⟩
  have within : part.Within x (i * element.size) :=
    ⟨rfl, rfl, size ▸ View.element_le element.size below⟩
  have near : (CType.array element count).strands = false := array ▸ outer.near
  have inner : part.Whole := within.whole outer built near
  have as_part : x.item i = .ok part := item_of_lt array below
  have first : x.item 0 = .ok ⟨element, x.block, x.offset⟩ := by
    simpa using item_of_lt array filled
  -- Pointers find the element in the view on the block.
  have meets := meets_block inner.inside
  refine ⟨_, first, ?_, ?_⟩
  · intro heap
    obtain ⟨value, in_whole, own⟩ := within.value inner present heap
    obtain ⟨_, alone, in_block⟩ := meets.read inner.built inner.near present heap
    cases own.symm.trans ((value_of_inside inner.inside heap).trans alone)
    have indexed : x.getIndex heap i = .ok value := by
      rw [getIndex, as_part]
      exact own
    obtain ⟨whole, read, all⟩ := outer.exists_value (array ▸ rfl) heap
    rw [array] at read
    obtain ⟨items, rfl, length, each⟩ := (Spot.reads_array holds).mp read
    have item := (each i (length ▸ below)).symm.trans in_whole
    refine ⟨value, items, indexed, indexed, all, ?_, fun p points => ?_⟩
    · rw [List.getElem?_eq_getElem (length ▸ below), Except.ok.inj item]
    · rw [points.index owned sized inner.inside]
      exact congrArg (·, heap) in_block
  · intro value p points
    rw [points.setIndex owned sized inner.inside, setIndex, as_part]
    exact (setValue_of_inside inner.inside value).trans (meets.write _ inner.built.contained value)

/-- All routes to a part of an instance read the same value and store in the same way, if no
bit-field in it begins behind the word that is loaded. -/
theorem routes_agree (built : x.type.Built) (near : x.type.strands = false) (inside : x.Inside)
    (owned : x.block.Owned) :
    (∀ layout, x.type = .composite layout → ∀ member ∈ layout.members, member.bits = none →
        x.MemberRoutes member)
      ∧ ∀ element count, x.type = .array element count → 0 < element.size → ∀ i < count,
          ∃ first, x.item 0 = .ok first ∧ x.ItemRoutes first i := by
  have outer : x.Whole := ⟨built, near, inside⟩
  exact ⟨fun _ composite _ mem plain => memberRoutes composite outer mem plain,
    fun _ _ array sized _ below => itemRoutes array outer owned sized below⟩

/-- Three structs in a fresh block. -/
def mixedRow : Instance :=
  ⟨.array (.composite Layout.mixedLayout) 3, ⟨0, 0x10000000000, 48, false⟩, 0⟩

/-- The routes to the second struct of an array, and in it to the number behind the bit-fields. -/
theorem mixed_routes_agree :
    let second : Instance := ⟨.composite Layout.mixedLayout, mixedRow.block, 16⟩
    let ratio : Member := ⟨"ratio", .float .double 8, 8, none⟩
    create mixedRow.type .empty = (.ok mixedRow, (create mixedRow.type .empty).2)
      ∧ mixedRow.item 1 = .ok second ∧ second.member "ratio" = .ok ratio
      ∧ (∃ first, mixedRow.item 0 = .ok first ∧ mixedRow.ItemRoutes first 1)
      ∧ second.MemberRoutes ratio := by
  intro second ratio
  have struct : second.type.Built := .composite Layout.mixed_built Layout.compute_mixed
  have row : mixedRow.type.Built :=
    .array struct (rfl : Registry.array (.composite Layout.mixedLayout) 3 = .ok mixedRow.type)
  have owned : mixedRow.block.Owned := ⟨rfl, by decide⟩
  have row_inside : mixedRow.Inside := by
    unfold Inside
    decide
  have second_inside : second.Inside := by
    unfold Inside
    decide
  have ratio_mem : ratio ∈ Layout.mixedLayout.members := by simp [Layout.mixedLayout, ratio]
  have items := (routes_agree row rfl row_inside owned).2
  have members := (routes_agree struct rfl second_inside owned).1
  exact ⟨rfl, rfl, rfl, items _ 3 rfl (by decide) 1 (by decide), members _ rfl _ ratio_mem rfl⟩

/-- A fresh instance with bit-fields in a wide character of sixteen bytes, and its heap. -/
def distantInstance : Instance :=
  ⟨.composite Layout.distantLayout, ⟨0, 0x10000000000, 32, false⟩, 0⟩

def distantHeap : Heap := (create (.composite Layout.distantLayout) .empty).2

/-- The byte behind the unit is read by its name and as an instance, but the whole has no value. -/
theorem distant_disagrees :
    distantInstance.type.Built
      ∧ create (.composite Layout.distantLayout) .empty = (.ok distantInstance, distantHeap)
      ∧ distantInstance.get distantHeap "a" = .ok (.uint 0)
      ∧ (do (← distantInstance.field "a").value distantHeap) = .ok (.uint 0)
      ∧ distantInstance.value distantHeap = .error (.overflow "shift right") :=
  ⟨Layout.distant_built, rfl, rfl, rfl, rfl⟩

end Instance

end CInterop
