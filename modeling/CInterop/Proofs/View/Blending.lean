import CInterop.Proofs.Layout.Storable
import CInterop.Proofs.Memory
import CInterop.Proofs.Record
import CInterop.Proofs.View.Reading

/-!
# Values that survive changes of memory

A value that is read at one place and was read at another, its origin, is compared bit by bit.
Memory may change under it in one way: each bit stays, or becomes the bit of the origin, the latter
only where the value consists of integers. Such a value still reads the same (`Spot.reads_blend`):
an integer tells every bit that it is read from, so these bits did not change at all.
-/

namespace CInterop

/-- An offset in a view. -/
structure Spot where
  view : View
  offset : Nat

namespace Spot

/-- The spot so many bytes further on. -/
def plus (spot : Spot) (distance : Nat) : Spot := { spot with offset := spot.offset + distance }

/-- The address of a spot. -/
def address (spot : Spot) : Nat := spot.view.block.base + spot.view.start + spot.offset

/-- The position of the lowest bit at a spot. -/
def start (spot : Spot) : Nat := 8 * spot.address

/-- So many bytes at a spot lie inside its view. -/
structure Holds (spot : Spot) (size : Nat) : Prop where
  inside : spot.offset + size ≤ spot.view.length

/-- A value is read at a spot. -/
def Reads (spot : Spot) (heap : Heap) (type : CType) (value : Value) : Prop :=
  spot.view.read heap type spot.offset = .ok value

/-- A value is read for a member of a composite that lies at a spot. -/
def ReadsMember (spot : Spot) (heap : Heap) (member : Member) (value : Value) : Prop :=
  spot.view.readMember heap member spot.offset = .ok value

theorem address_plus (spot : Spot) (distance : Nat) :
    (spot.plus distance).address = spot.address + distance := by
  simp only [plus, address, Nat.add_assoc]

theorem start_plus (spot : Spot) (distance : Nat) :
    (spot.plus distance).start = spot.start + 8 * distance := by
  simp only [start, address_plus, Nat.mul_add]

theorem Holds.plus {spot : Spot} {size distance length : Nat} (holds : spot.Holds size)
    (inside : distance + length ≤ size) : (spot.plus distance).Holds length := by
  have whole := holds.inside
  refine ⟨?_⟩
  simp only [Spot.plus]
  omega

end Spot

/-- How memory changes between two states, with an eye on bits `low` to `high` of something that
lies at bit `start` and has its origin at bit `origin` of a source. -/
structure Blend (old new source : Memory) (start origin low high : Nat) (integers : Prop) :
    Prop where
  keeps : ∀ i, low ≤ i → i < high → new.bit (start + i) = old.bit (start + i)
    ∨ integers ∧ new.bit (start + i) = source.bit (origin + i)

namespace Blend

variable {old new source : Memory} {start origin low high : Nat} {integers : Prop}

/-- The part of a blend from another bit on. -/
theorem shift {distance width : Nat} (blend : Blend old new source start origin low high integers)
    (above : low ≤ distance) (below : distance + width ≤ high) :
    Blend old new source (start + distance) (origin + distance) 0 width integers := by
  constructor
  intro i _ inside
  rw [Nat.add_assoc, Nat.add_assoc]
  exact blend.keeps (distance + i) (by omega) (by omega)

theorem eq_of_not (blend : Blend old new source start origin low high integers)
    (never : ¬ integers) {i : Nat} (above : low ≤ i) (below : i < high) :
    new.bit (start + i) = old.bit (start + i) := by
  rcases blend.keeps i above below with kept | taken
  · exact kept
  · exact absurd taken.1 never

/-- Where the old bit is that of the origin, it stays. -/
theorem eq_of_eq (blend : Blend old new source start origin low high integers) {i : Nat}
    (above : low ≤ i) (below : i < high)
    (same : old.bit (start + i) = source.bit (origin + i)) :
    new.bit (start + i) = old.bit (start + i) := by
  rcases blend.keeps i above below with kept | taken
  · exact kept
  · exact taken.2.trans same.symm

end Blend

namespace Spot

variable {spot origin : Spot} {heap old new source : Heap} {value : Value}

/-! ## What is read at a spot -/

theorem readWord_spot {count : Nat} (holds : spot.Holds count) :
    spot.view.readWord heap spot.offset count = .ok (heap.memory.loadWord spot.address count) :=
  View.readWord_of_le holds.inside

theorem reads_bool (holds : spot.Holds 1) :
    spot.Reads heap .bool value ↔ value = .bool (heap.memory.loadWord spot.address 1 != 0) := by
  unfold Reads View.read
  rw [readWord_spot holds]
  exact ⟨fun read => (Except.ok.inj read).symm, fun same => congrArg Except.ok same.symm⟩

theorem reads_int {name : String} {width : Width} {signed : Bool} {align : Nat}
    (holds : spot.Holds width.bytes) :
    spot.Reads heap (.int name width signed align) value ↔
      value = .ofBits (heap.memory.loadWord spot.address width.bytes) width.bits signed := by
  unfold Reads View.read
  rw [readWord_spot holds]
  exact ⟨fun read => (Except.ok.inj read).symm, fun same => congrArg Except.ok same.symm⟩

theorem unitBytes_of_long {size : Nat} (long : 8 ≤ size) : Bits.unitBytes size = 8 := by
  rw [Bits.unitBytes, if_neg (by simp; omega)]

/-- A wide character of at least eight bytes is read as its first word. -/
theorem reads_stray {bytes : Nat} (holds : spot.Holds bytes) (long : 8 ≤ bytes) :
    spot.Reads heap (.stray bytes) value ↔
      value = .ofBits (heap.memory.loadWord spot.address 8) 64 false := by
  have unit : Bits.unitBytes bytes = 8 := unitBytes_of_long long
  have mask : Bits.mask (8 * bytes) = Bits.mask 64 := by
    rw [Bits.mask, Bits.mask, if_pos (by omega), if_pos (Nat.le_refl _)]
  unfold Reads View.read
  rw [View.readUnit_of_le holds.inside, unit]
  simp only [Value.ofBits, mask]
  exact ⟨fun read => (Except.ok.inj read).symm, fun same => congrArg Except.ok same.symm⟩

theorem reads_double {align : Nat} (holds : spot.Holds 8) :
    spot.Reads heap (.float .double align) value ↔
      value = .double (heap.memory.loadWord spot.address 8) := by
  unfold Reads View.read
  rw [readWord_spot holds]
  exact ⟨fun read => (Except.ok.inj read).symm, fun same => congrArg Except.ok same.symm⟩

theorem reads_array {element : CType} {count : Nat} (holds : spot.Holds (element.size * count)) :
    spot.Reads heap (.array element count) value ↔
      ∃ items, value = .list items ∧ items.length = count
        ∧ ∀ i (below : i < items.length),
            (spot.plus (i * element.size)).Reads heap element items[i] := by
  constructor
  · intro read
    obtain ⟨_, _, read⟩ := bind_eq_ok.mp read
    obtain ⟨items, each, same⟩ := bind_eq_ok.mp read
    cases same
    obtain ⟨length, each⟩ := List.forall₂_iff_get.mp (mapM_eq_ok.mp each)
    rw [List.length_range] at length
    refine ⟨items, rfl, length.symm, fun i below => ?_⟩
    have read := each i (by rwa [List.length_range, length]) below
    rwa [List.get_eq_getElem, List.getElem_range] at read
  · rintro ⟨items, rfl, rfl, each⟩
    refine bind_eq_ok.mpr ⟨_, View.locate_of_le holds.inside, bind_eq_ok.mpr
      ⟨items, mapM_eq_ok.mpr (List.forall₂_iff_get.mpr ⟨List.length_range, ?_⟩), rfl⟩⟩
    intro i _ below
    rw [List.get_eq_getElem, List.getElem_range]
    exact each i below

theorem reads_composite {layout : Layout} (holds : spot.Holds layout.size) :
    spot.Reads heap (.composite layout) value ↔
      ∃ entries, value = .ofEntries entries
        ∧ List.Forall₂ (fun member entry => entry.1 = member.name
            ∧ spot.ReadsMember heap member entry.2) layout.members entries := by
  constructor
  · intro read
    obtain ⟨_, _, read⟩ := bind_eq_ok.mp read
    obtain ⟨entries, each, same⟩ := bind_eq_ok.mp read
    cases same
    exact ⟨entries, rfl, View.readMembers_eq_ok.mp each⟩
  · rintro ⟨entries, rfl, each⟩
    exact bind_eq_ok.mpr ⟨_, View.locate_of_le holds.inside,
      bind_eq_ok.mpr ⟨entries, View.readMembers_eq_ok.mpr each, rfl⟩⟩

theorem readsMember_of_plain {member : Member} (plain : member.bits = none) :
    spot.ReadsMember heap member value ↔
      (spot.plus member.offset).Reads heap member.type value := by
  unfold ReadsMember View.readMember Reads
  rw [plain]
  rfl

/-- The value of a bit-field that holds these bits. -/
def fieldValue (type : CType) (field : UInt64) (width : Nat) : Value :=
  match type with
  | .bool => .bool (field != 0)
  | _ => .ofBits field width type.isSigned

/-- A bit-field whose lowest bit lies in a word is read where its storage unit lies in the view. -/
theorem readBits_of_le {view : View} {type : CType} {offset : Nat} {slot : BitSlot}
    (inside : offset + type.size ≤ view.length) (small : slot.offset < 64) :
    view.readBits heap type offset slot = .ok (fieldValue type
      (Bits.extract (heap.memory.loadWord (view.block.base + view.start + offset)
        (Bits.unitBytes type.size)) slot.offset slot.width) slot.width) := by
  unfold View.readBits
  rw [View.locate_of_le inside, Word.shift_of_lt small]
  rfl

/-- The storage unit of a member of an integer type takes as many bytes as the type. -/
theorem unitBytes_size {type : CType} (integral : type.isIntegral = true)
    (even : type.isStray = false) :
    Bits.unitBytes type.size = type.size ∧ type.size ≤ 8 := by
  cases type with
  | bool => exact ⟨rfl, by decide⟩
  | int _ width => cases width <;> exact ⟨rfl, by simp [CType.size, Width.bytes]⟩
  | stray => cases even
  | _ => cases integral

/-- It lies in the bytes of the type, unless the type is short. -/
theorem unitBytes_le {type : CType} (integral : type.isIntegral = true)
    (own : type.isShort = false) : Bits.unitBytes type.size ≤ type.size := by
  cases type with
  | stray bytes =>
    have long : 8 ≤ bytes := by simpa [CType.isShort] using own
    exact (unitBytes_of_long long).symm ▸ long
  | _ => exact Nat.le_of_eq (unitBytes_size integral rfl).1

theorem readsMember_of_bits {size : Nat} {member : Member} {slot : BitSlot}
    (holds : spot.Holds size) (stored : Layout.Stored size member)
    (bits : member.bits = some slot) :
    spot.ReadsMember heap member value ↔ slot.offset < 64
      ∧ value = fieldValue member.type
        (Bits.extract (heap.memory.loadWord (spot.address + member.offset)
          (Bits.unitBytes member.type.size)) slot.offset slot.width) slot.width := by
  have inside : spot.offset + member.offset + member.type.size ≤ spot.view.length :=
    (holds.plus stored.inside).inside
  have same : spot.view.block.base + spot.view.start + (spot.offset + member.offset)
      = spot.address + member.offset := by
    simp only [address, Nat.add_assoc]
  unfold ReadsMember View.readMember
  rw [bits]
  by_cases near : slot.offset < 64
  · simp only [near, true_and]
    rw [readBits_of_le inside near, same]
    exact ⟨fun read => (Except.ok.inj read).symm, fun read => congrArg Except.ok read.symm⟩
  · refine iff_of_false (fun read => ?_) fun both => near both.1
    simp only [View.readBits, View.locate_of_le inside, Word.shift, if_neg near] at read
    cases read

/-! ## Blends keep values -/

variable {size : Nat}

theorem bit_loadWord_spot {count i : Nat} (inside : i < 8 * count) (small : count ≤ 8) :
    Bits.bit (heap.memory.loadWord spot.address count) i = heap.memory.bit (spot.start + i) :=
  Memory.bit_loadWord _ _ inside small

theorem loadWord_kept {count : Nat} (small : count ≤ 8)
    (same : ∀ i < 8 * count, new.memory.bit (spot.start + i) = old.memory.bit (spot.start + i)) :
    new.memory.loadWord spot.address count = old.memory.loadWord spot.address count :=
  Memory.loadWord_congr small same

/-- A field has no bits behind its width, and none behind the word that it begins in. -/
theorem bit_extract_beyond (unit : UInt64) {offset width i : Nat} (near : offset < 64)
    (hidden : ¬(i < width ∧ offset + i < 64)) :
    Bits.bit (Bits.extract unit offset width) i = false := by
  rcases Nat.lt_or_ge i 64 with inside | beyond
  · rw [Bits.bit_extract _ near _ inside]
    by_cases below : i < width
    · rw [Bits.bit_of_ge _ (by omega), Bool.and_false]
    · rw [decide_eq_false below, Bool.false_and]
  · exact Bits.bit_of_ge _ beyond

/-- A unit takes the bytes of its type, or eight. -/
theorem unitBytes_cases (size : Nat) :
    Bits.unitBytes size = size ∧ size ≤ 8 ∨ Bits.unitBytes size = 8 := by
  unfold Bits.unitBytes
  split
  · left
    simp_all
    omega
  · exact .inr rfl

theorem unitBytes_le_word (size : Nat) : Bits.unitBytes size ≤ 8 := by
  rcases unitBytes_cases size with ⟨unit, small⟩ | unit <;> omega

/-- A bit of a type that a word has lies in the unit of the type. -/
theorem bit_lt_unit {size first width i : Nat} (fits : first + width ≤ 8 * size) (below : i < width)
    (shown : first + i < 64) : first + i < 8 * Bits.unitBytes size := by
  rcases unitBytes_cases size with ⟨unit, -⟩ | unit <;> omega

/-- A bit of the unit of a type, where the type takes it. Beyond the word that is read there are no
bits. -/
theorem bit_loadUnit (memory : Memory) (address : Nat) {size i : Nat} (inside : i < 8 * size) :
    Bits.bit (memory.loadWord address (Bits.unitBytes size)) i
      = (decide (i < 64) && memory.bit (8 * address + i)) := by
  by_cases word : i < 64
  · rw [decide_eq_true word, Bool.true_and]
    rcases unitBytes_cases size with ⟨unit, small⟩ | unit <;> rw [unit]
    · exact Memory.bit_loadWord _ _ inside small
    · exact Memory.bit_loadWord _ _ (by omega) (Nat.le_refl 8)
  · rw [decide_eq_false word, Bool.false_and, Bits.bit_of_ge _ (Nat.not_lt.mp word)]

/-- A field is told by its own bits. -/
theorem extract_unit_congr {memory other : Memory} {a b size : Nat} {slot : BitSlot}
    (fits : slot.offset + slot.width ≤ 8 * size) (small : slot.offset < 64)
    (same : ∀ i, slot.offset ≤ i → i < slot.offset + slot.width →
      memory.bit (8 * a + i) = other.bit (8 * b + i)) :
    Bits.extract (memory.loadWord a (Bits.unitBytes size)) slot.offset slot.width
      = Bits.extract (other.loadWord b (Bits.unitBytes size)) slot.offset slot.width := by
  apply Bits.eq_of_bit
  intro i inside
  rw [Bits.bit_extract _ small _ inside, Bits.bit_extract _ small _ inside]
  by_cases below : i < slot.width
  · rw [bit_loadUnit _ _ (by omega), bit_loadUnit _ _ (by omega), same _ (by omega) (by omega)]
  · rw [decide_eq_false below, Bool.false_and, Bool.false_and]

/-- An unsigned integer is told by the bits that its type takes. -/
theorem ofBits_unit_congr {memory other : Memory} {a b size : Nat}
    (same : ∀ i < 8 * size, memory.bit (8 * a + i) = other.bit (8 * b + i)) :
    Value.ofBits (memory.loadWord a (Bits.unitBytes size)) (8 * size) false
      = .ofBits (other.loadWord b (Bits.unitBytes size)) (8 * size) false := by
  refine congrArg Value.uint (Bits.eq_of_bit fun i inside => ?_)
  rw [Bits.bit_and, Bits.bit_and, Bits.bit_mask _ inside]
  by_cases below : i < 8 * size
  · rw [bit_loadUnit _ _ below, bit_loadUnit _ _ below, same i below]
  · rw [decide_eq_false below, Bool.and_false, Bool.and_false]

/-- What a bit-field of an integer type holds is told by its value. -/
theorem fieldValue_injective {type : CType} {field other : UInt64} {width : Nat}
    (integers : type.onlyIntegers = true) (integral : type.isIntegral = true)
    (positive : 0 < width) (small : type.isStray = false → width ≤ 64)
    (same : fieldValue type field width = fieldValue type other width) {i : Nat}
    (below : i < width) (inside : i < 64) : Bits.bit field i = Bits.bit other i := by
  cases type with
  | int => exact Value.ofBits_injective positive (small rfl) same i below
  | stray =>
    have words : field &&& Bits.mask width = other &&& Bits.mask width := Value.uint.inj same
    have told := congrArg (Bits.bit · i) words
    simpa only [Bits.bit_and, Bits.bit_mask width inside, below, decide_true, Bool.and_true]
      using told
  | bool => cases integers
  | _ => cases integral

/-- Where the bits of a bit-field lie in memory. -/
theorem bit_field {member : Member} {slot : BitSlot} (stored : Layout.Stored size member)
    (bits : member.bits = some slot) (memory : Memory) (place : Spot) {i : Nat}
    (below : i < slot.width) (inside : slot.offset + i < 64) :
    Bits.bit (Bits.extract (memory.loadWord (place.address + member.offset)
      (Bits.unitBytes member.type.size)) slot.offset slot.width) i
        = memory.bit (place.start + (member.firstBit + i)) := by
  obtain ⟨_, fits⟩ := stored.slot slot bits
  have first := Placed.firstBit_of_bits bits
  have position : 8 * (place.address + member.offset) + (slot.offset + i)
      = place.start + (member.firstBit + i) := by
    simp only [first, start]
    omega
  rw [Bits.bit_extract _ (by omega) _ (by omega), bit_loadUnit _ _ (by omega), position,
    decide_eq_true below, decide_eq_true inside, Bool.true_and, Bool.true_and]

/-- The width of a bit-field in an integer that memory is accessed by. -/
theorem width_le_of_stored {member : Member} {slot : BitSlot} (stored : Layout.Stored size member)
    (bits : member.bits = some slot) (even : member.type.isStray = false) :
    slot.offset + slot.width ≤ 64 := by
  obtain ⟨_, fits⟩ := stored.slot slot bits
  have small := (unitBytes_size (stored.integral (by simp [bits])) even).2
  omega

theorem readsMember_blend_bits {member : Member} {slot : BitSlot} (holds : spot.Holds size)
    (origin_holds : origin.Holds size) (stored : Layout.Stored size member)
    (bits : member.bits = some slot) (read : spot.ReadsMember old member value)
    (origin_read : origin.ReadsMember source member value)
    (blend : Blend old.memory new.memory source.memory spot.start origin.start
      member.firstBit member.endBit (member.type.onlyIntegers = true)) :
    spot.ReadsMember new member value := by
  have integral := stored.integral (by simp [bits])
  have small (even : member.type.isStray = false) : slot.width ≤ 64 :=
    Nat.le_trans (Nat.le_add_left _ _) (width_le_of_stored stored bits even)
  obtain ⟨positive, fits⟩ := stored.slot slot bits
  have last := Placed.endBit_of_bits bits
  obtain ⟨near, rfl⟩ := (readsMember_of_bits holds stored bits).mp read
  obtain ⟨_, same⟩ := (readsMember_of_bits origin_holds stored bits).mp origin_read
  refine (readsMember_of_bits holds stored bits).mpr ⟨near, ?_⟩
  congr 1
  apply Bits.eq_of_bit
  intro i inside
  by_cases shown : i < slot.width ∧ slot.offset + i < 64
  · obtain ⟨below, shown⟩ := shown
    rw [bit_field stored bits _ _ below shown, bit_field stored bits _ _ below shown]
    by_cases integers : member.type.onlyIntegers = true
    · refine (blend.eq_of_eq (by omega) (by omega) ?_).symm
      have told := fieldValue_injective integers integral positive small same below inside
      rwa [bit_field stored bits _ _ below shown, bit_field stored bits _ _ below shown] at told
    · exact (blend.eq_of_not integers (by omega) (by omega)).symm
  · rw [bit_extract_beyond _ near shown, bit_extract_beyond _ near shown]

/-- A member that is no bit-field survives where its type does. -/
theorem readsMember_blend_plain {member : Member}
    (plain : member.bits = none) (read : spot.ReadsMember old member value)
    (origin_read : origin.ReadsMember source member value)
    (blend : Blend old.memory new.memory source.memory spot.start origin.start
      member.firstBit member.endBit (member.type.onlyIntegers = true))
    (survives : (spot.plus member.offset).Reads old member.type value →
      (origin.plus member.offset).Reads source member.type value →
      Blend old.memory new.memory source.memory (spot.plus member.offset).start
        (origin.plus member.offset).start 0 (8 * member.type.size)
        (member.type.onlyIntegers = true) →
      (spot.plus member.offset).Reads new member.type value) :
    spot.ReadsMember new member value := by
  have first := Placed.firstBit_of_plain plain
  have last := Placed.endBit_of_plain plain
  rw [readsMember_of_plain plain] at read ⊢
  rw [readsMember_of_plain plain] at origin_read
  rw [start_plus, start_plus] at survives
  exact survives read origin_read (blend.shift (by omega) (by omega))

theorem readsMember_blend {member : Member} (holds : spot.Holds size)
    (origin_holds : origin.Holds size) (stored : Layout.Stored size member)
    (read : spot.ReadsMember old member value)
    (origin_read : origin.ReadsMember source member value)
    (blend : Blend old.memory new.memory source.memory spot.start origin.start
      member.firstBit member.endBit (member.type.onlyIntegers = true))
    (survives : ∀ {spot origin : Spot}, spot.Holds member.type.size →
      origin.Holds member.type.size → spot.Reads old member.type value →
      origin.Reads source member.type value →
      Blend old.memory new.memory source.memory spot.start origin.start 0 (8 * member.type.size)
        (member.type.onlyIntegers = true) → spot.Reads new member.type value) :
    spot.ReadsMember new member value := by
  cases bits : member.bits with
  | some slot =>
    exact readsMember_blend_bits holds origin_holds stored bits read origin_read blend
  | none =>
    exact readsMember_blend_plain bits read origin_read blend
      (survives (holds.plus stored.inside) (origin_holds.plus stored.inside))

theorem entries_keys {members : List Member} {reads : Member → Value → Prop}
    {entries : List (String × Value)}
    (pairs : List.Forall₂ (fun member entry => entry.1 = member.name ∧ reads member entry.2)
      members entries) : entries.map Prod.fst = members.map (·.name) := by
  induction pairs with
  | nil => rfl
  | cons pair _ ih => rw [List.map_cons, List.map_cons, pair.1, ih]

/-- The entries of two composites with the same value are the same. -/
theorem entries_unique {members : List Member} (distinct : (members.map (·.name)).Nodup)
    {reads others : Member → Value → Prop} {entries tail : List (String × Value)}
    (first : List.Forall₂ (fun member entry => entry.1 = member.name ∧ reads member entry.2)
      members entries)
    (second : List.Forall₂ (fun member entry => entry.1 = member.name ∧ others member entry.2)
      members tail)
    (same : Value.ofEntries entries = Value.ofEntries tail) : entries = tail :=
  Value.ofEntries_injective ((entries_keys first).symm ▸ distinct)
    ((entries_keys first).trans (entries_keys second).symm) same

/-- A value survives a blend with its origin. -/
theorem reads_blend {type : CType} (storable : type.Storable) (holds : spot.Holds type.size)
    (origin_holds : origin.Holds type.size) (read : spot.Reads old type value)
    (origin_read : origin.Reads source type value)
    (blend : Blend old.memory new.memory source.memory spot.start origin.start 0 (8 * type.size)
      (type.onlyIntegers = true)) :
    spot.Reads new type value := by
  induction storable generalizing spot origin value with
  | bool =>
    have kept : new.memory.loadWord spot.address 1 = old.memory.loadWord spot.address 1 :=
      loadWord_kept (by decide) fun i below =>
        blend.eq_of_not (by simp [CType.onlyIntegers]) (Nat.zero_le i) below
    rw [reads_bool holds] at read ⊢
    rw [read, kept]
  | double =>
    have kept : new.memory.loadWord spot.address 8 = old.memory.loadWord spot.address 8 :=
      loadWord_kept (by decide) fun i below =>
        blend.eq_of_not (by simp [CType.onlyIntegers]) (Nat.zero_le i) below
    rw [reads_double holds] at read ⊢
    rw [read, kept]
  | @int _ width signed =>
    rw [reads_int holds] at read ⊢
    rw [reads_int origin_holds] at origin_read
    have told := Value.ofBits_injective width.bits_pos width.bits_le (read.symm.trans origin_read)
    rw [read, loadWord_kept width.bytes_le fun i below =>
      blend.eq_of_eq (Nat.zero_le i) below ?_]
    have bit_told := told i below
    rwa [bit_loadWord_spot below width.bytes_le, bit_loadWord_spot below width.bytes_le]
      at bit_told
  | @stray bytes long =>
    replace holds : spot.Holds bytes := holds
    replace origin_holds : origin.Holds bytes := origin_holds
    rw [reads_stray holds long] at read ⊢
    rw [reads_stray origin_holds long] at origin_read
    have told := Value.ofBits_injective (by decide) (Nat.le_refl 64) (read.symm.trans origin_read)
    rw [read, loadWord_kept (Nat.le_refl 8) fun i below =>
      blend.eq_of_eq (Nat.zero_le i) (Nat.lt_of_lt_of_le below (Nat.mul_le_mul_left 8 long)) ?_]
    have bit_told := told i below
    rwa [bit_loadWord_spot below (Nat.le_refl 8), bit_loadWord_spot below (Nat.le_refl 8)]
      at bit_told
  | @array element count _ ih =>
    obtain ⟨items, rfl, rfl, each⟩ := (reads_array holds).mp read
    obtain ⟨others, same, _, origin_each⟩ := (reads_array origin_holds).mp origin_read
    cases same
    refine (reads_array holds).mpr ⟨items, rfl, rfl, fun i below => ?_⟩
    have ends := View.element_le element.size below
    refine ih (holds.plus ends) (origin_holds.plus ends) (each i below) (origin_each i below) ?_
    rw [start_plus, start_plus]
    refine blend.shift (Nat.zero_le _) ?_
    simp only [CType.size]
    omega
  | @composite layout distinct stored integers _ _ ih =>
    obtain ⟨entries, rfl, each⟩ := (reads_composite holds).mp read
    obtain ⟨others, same, origin_each⟩ := (reads_composite origin_holds).mp origin_read
    obtain rfl := entries_unique distinct each origin_each same
    refine (reads_composite holds).mpr ⟨entries, rfl, ?_⟩
    obtain ⟨length, each⟩ := List.forall₂_iff_get.mp each
    obtain ⟨_, origin_each⟩ := List.forall₂_iff_get.mp origin_each
    refine List.forall₂_iff_get.mpr ⟨length, fun i below below' => ?_⟩
    have mem := List.get_mem layout.members ⟨i, below⟩
    refine ⟨(each i below below').1, ?_⟩
    refine readsMember_blend holds origin_holds (stored _ mem) (each i below below').2
      (origin_each i below below').2 ⟨fun bit above behind => ?_⟩ (ih _ mem)
    -- A bit of the member is a bit of the composite.
    have last := (stored _ mem).slot.endBit_le
    have inside := (stored _ mem).inside
    refine (blend.keeps bit (Nat.zero_le _) ?_).imp_right (And.imp_left fun all => ?_)
    · simp only [CType.size]
      omega
    · exact integers all _ mem

end Spot

end CInterop
