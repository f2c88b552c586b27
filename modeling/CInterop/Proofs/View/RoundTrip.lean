import Mathlib.Data.List.Pairwise
import CInterop.Proofs.Heap.Run
import CInterop.Proofs.View.Blending

/-!
# Values are stored as they were read

A value of a plain type that was read at one place is stored at any other place, and reads there as
it was. Storing goes part by part: `Merge` says what storing one part does to memory. It leaves
everything outside of the part alone, and inside, where the part consists of integers, each bit
stays or becomes that of the origin. So the parts that were stored before survive
(`Spot.reads_blend`), whether they lie beside the new part or, in a union, in the same bits.
-/

namespace CInterop

/-- What storing bits `low` to `high` of something changes, compared to its origin. -/
structure Merge (before after source : Memory) (start origin low high : Nat) (integers : Prop) :
    Prop where
  outside : ∀ i, i < start + low ∨ start + high ≤ i → after.bit i = before.bit i
  inside : integers → Blend before after source start origin low high True

namespace Merge

variable {before middle after source : Memory} {start origin low high low' high' : Nat}
  {integers others all : Prop}

theorem refl : Merge before before source start origin low high integers :=
  ⟨fun _ _ => rfl, fun _ => ⟨fun _ _ _ => .inl rfl⟩⟩

/-- Two parts are stored one after the other as parts of a whole. -/
theorem trans {whole : Nat} (first : Merge before middle source start origin low high integers)
    (second : Merge middle after source start origin low' high' others)
    (first_inside : high ≤ whole) (second_inside : high' ≤ whole)
    (first_integers : all → integers) (second_integers : all → others) :
    Merge before after source start origin 0 whole all := by
  constructor
  · intro i beyond
    rw [second.outside i (by omega), first.outside i (by omega)]
  · intro given
    constructor
    intro i _ _
    by_cases second_part : low' ≤ i ∧ i < high'
    · rcases (second.inside (second_integers given)).keeps i second_part.1 second_part.2
        with kept | taken
      · by_cases first_part : low ≤ i ∧ i < high
        · rw [kept]
          exact (first.inside (first_integers given)).keeps i first_part.1 first_part.2
        · exact .inl (kept.trans (first.outside _ (by omega)))
      · exact .inr taken
    · rw [second.outside _ (by omega)]
      by_cases first_part : low ≤ i ∧ i < high
      · exact (first.inside (first_integers given)).keeps i first_part.1 first_part.2
      · exact .inl (first.outside _ (by omega))

/-- A part, seen from the start of the whole. -/
theorem unshift {distance width : Nat}
    (part : Merge before after source (start + distance) (origin + distance) 0 width integers) :
    Merge before after source start origin distance (distance + width) integers := by
  constructor
  · intro i beyond
    exact part.outside i (by omega)
  · intro given
    constructor
    intro i above below
    have kept := (part.inside given).keeps (i - distance) (Nat.zero_le _) (by omega)
    rwa [Nat.add_assoc, Nat.add_assoc, Nat.add_sub_cancel' above] at kept

/-- A member survives that another one is stored, if the two are compatible. -/
theorem blend_of_compatible {member other : Member}
    (stored : Merge before after source start origin other.firstBit other.endBit
      (other.type.onlyIntegers = true)) (compatible : Layout.Compatible member other) :
    Blend before after source start origin member.firstBit member.endBit
      (member.type.onlyIntegers = true) := by
  constructor
  intro i above below
  by_cases touched : other.firstBit ≤ i ∧ i < other.endBit
  · rcases compatible with apart | apart | ⟨integers, other_integers⟩
    · omega
    · omega
    · exact ((stored.inside other_integers).keeps i touched.1 touched.2).imp_right
        (And.imp_left fun _ => integers)
  · exact .inl (stored.outside _ (by omega))

/-- The bits behind a part of something are those that were there. -/
theorem grow {whole : Nat} (part : Merge before after source start origin 0 high integers)
    (inside : high ≤ whole) : Merge before after source start origin 0 whole integers :=
  have rest : Merge after after source start origin 0 whole integers := refl
  part.trans rest inside (Nat.le_refl _) id id

theorem storeWord {address count : Nat} {word : UInt64}
    (told : integers → ∀ i < 8 * count, Bits.bit word i = source.bit (origin + i)) :
    Merge before (before.storeWord address count word) source (8 * address) origin 0 (8 * count)
      integers := by
  constructor
  · intro i beyond
    rw [Memory.bit_storeWord, if_neg (by omega)]
  · intro given
    constructor
    intro i _ below
    rw [Memory.bit_storeWord, if_pos (by omega), Nat.add_sub_cancel_left]
    exact .inr ⟨trivial, told given i below⟩

end Merge

namespace Spot

variable {spot origin : Spot} {heap source : Heap} {value : Value} {size : Nat}

/-- A value is stored at a spot: writing succeeds, changes memory as a merge with the origin, and
the value reads there as it was. -/
def Restores (spot origin : Spot) (source : Heap) (type : CType) (value : Value) : Prop :=
  ∀ heap, ∃ after, spot.view.write type spot.offset value heap = (.ok (), after)
    ∧ Merge heap.memory after.memory source.memory spot.start origin.start 0 (8 * type.size)
        (type.onlyIntegers = true)
    ∧ spot.Reads after type value

/-- A value is stored for a member of a composite that lies at a spot. -/
def RestoresMember (spot origin : Spot) (source : Heap) (member : Member) (value : Value) : Prop :=
  ∀ heap, ∃ after, spot.view.writeMember member spot.offset value heap = (.ok (), after)
    ∧ Merge heap.memory after.memory source.memory spot.start origin.start member.firstBit
        member.endBit (member.type.onlyIntegers = true)
    ∧ spot.ReadsMember after member value

/-! ## Scalars -/

theorem target_spot {length : Nat} (holds : spot.Holds length) :
    spot.view.target spot.offset length heap = (.ok spot.address, heap) := by
  unfold View.target
  rw [HeapM.lift_run, View.locate_of_le holds.inside]
  rfl

theorem writeWord_spot {count : Nat} (holds : spot.Holds count) (word : UInt64) :
    spot.view.writeWord spot.offset count word heap
      = (.ok (), { heap with memory := heap.memory.storeWord spot.address count word }) := by
  unfold View.writeWord
  rw [HeapM.bind_of_ok (target_spot holds)]
  rfl

/-- The lowest bits of a word that was stored are loaded again. -/
theorem bit_loadWord_storeWord (memory : Memory) (address : Nat) {count i : Nat} (word : UInt64)
    (inside : i < 8 * count) (small : count ≤ 8) :
    Bits.bit ((memory.storeWord address count word).loadWord address count) i
      = Bits.bit word i := by
  rw [Memory.bit_loadWord _ _ inside small, Memory.bit_storeWord, if_pos (by omega),
    Nat.add_sub_cancel_left]

/-- A word that fits the bytes that it is stored in is loaded again. -/
theorem loadWord_storeWord (memory : Memory) (address : Nat) {count : Nat} {word : UInt64}
    (small : count ≤ 8) (fits : ∀ i, 8 * count ≤ i → Bits.bit word i = false) :
    (memory.storeWord address count word).loadWord address count = word := by
  apply Bits.eq_of_bit
  intro i _
  by_cases inside : i < 8 * count
  · exact bit_loadWord_storeWord memory address word inside small
  · rw [Memory.bit_loadWord_beyond _ _ (by omega), fits i (by omega)]

theorem restores_int {name : String} {width : Width} {signed : Bool} {align : Nat}
    (holds : spot.Holds width.bytes) (origin_holds : origin.Holds width.bytes)
    (read : origin.Reads source (.int name width signed align) value) :
    Restores spot origin source (.int name width signed align) value := by
  intro heap
  obtain rfl := (reads_int origin_holds).mp read
  obtain ⟨stored, found, agree⟩ :=
    Value.integerBits_ofBits heap (.int name width signed align)
      (source.memory.loadWord origin.address width.bytes) width.bits_pos width.bits_le signed
  refine ⟨{ heap with memory := heap.memory.storeWord spot.address width.bytes stored },
    ?write, .storeWord fun _ i below => ?told, ?read⟩
  case write =>
    have scalar : spot.view.write (.int name width signed align) spot.offset
        (.ofBits (source.memory.loadWord origin.address width.bytes) width.bits signed)
          = spot.view.writeScalar (.int name width signed align) spot.offset
              (.ofBits (source.memory.loadWord origin.address width.bytes) width.bits signed) := by
      cases signed <;> rfl
    rw [scalar]
    unfold View.writeScalar
    simp only
    rw [HeapM.bind_of_ok HeapM.get_run, found]
    exact writeWord_spot holds stored
  case told =>
    rw [agree i below]
    exact bit_loadWord_spot below width.bytes_le
  case read =>
    refine (reads_int holds).mpr (Value.ofBits_congr width.bits_pos width.bits_le signed ?_)
    intro i below
    rw [bit_loadWord_storeWord _ _ _ below width.bytes_le, agree i below]

/-- The first word of a long wide character is stored. -/
theorem restores_stray {bytes : Nat} (holds : spot.Holds bytes) (origin_holds : origin.Holds bytes)
    (long : 8 ≤ bytes) (read : origin.Reads source (.stray bytes) value) :
    Restores spot origin source (.stray bytes) value := by
  intro heap
  obtain rfl := (reads_stray origin_holds long).mp read
  have unit : Bits.unitBytes bytes = 8 := unitBytes_of_long long
  obtain ⟨stored, found, agree⟩ :=
    Value.integerBits_ofBits heap (.stray bytes) (source.memory.loadWord origin.address 8)
      (by decide) (Nat.le_refl 64) false
  refine ⟨{ heap with memory := heap.memory.storeWord spot.address 8 stored }, ?write,
    .grow (.storeWord fun _ i below => ?told) (Nat.mul_le_mul_left 8 long), ?read⟩
  case write =>
    show spot.view.writeScalar (.stray bytes) spot.offset
      (.ofBits (source.memory.loadWord origin.address 8) 64 false) heap = _
    unfold View.writeScalar View.writeUnit
    simp only
    rw [HeapM.bind_of_ok HeapM.get_run, found, unit]
    exact HeapM.bind_of_ok (target_spot holds)
  case told =>
    rw [agree i below]
    exact bit_loadWord_spot below (Nat.le_refl 8)
  case read =>
    refine (reads_stray holds long).mpr (Value.ofBits_congr (by decide) (Nat.le_refl 64) false ?_)
    intro i below
    rw [bit_loadWord_storeWord _ _ _ below (Nat.le_refl 8), agree i below]

theorem restores_bool (holds : spot.Holds 1) (origin_holds : origin.Holds 1)
    (read : origin.Reads source .bool value) : Restores spot origin source .bool value := by
  intro heap
  obtain rfl := (reads_bool origin_holds).mp read
  generalize (source.memory.loadWord origin.address 1 != 0) = b
  -- A truth value is stored as 0 or 1, whatever the origin held.
  have stored_bits : ∀ i, 8 * 1 ≤ i → Bits.bit (if b then 1 else 0) i = false := by
    intro i beyond
    cases b
    · simp [Bits.bit]
    · simp [Bits.bit, show i ≠ 0 by omega]
  refine ⟨{ heap with memory := heap.memory.storeWord spot.address 1 (if b then 1 else 0) },
    ?write, .storeWord fun never => ?told, ?read⟩
  case write =>
    have same : (if (if b then (1 : UInt64) else 0) = 0 then (0 : UInt64) else 1)
        = if b then 1 else 0 := by
      cases b <;> rfl
    show spot.view.writeWord spot.offset 1 (if (if b then 1 else 0) = 0 then 0 else 1) heap = _
    rw [same]
    exact writeWord_spot holds _
  case told => simp [CType.onlyIntegers] at never
  case read =>
    refine (reads_bool holds).mpr ?_
    rw [loadWord_storeWord _ _ (by decide) stored_bits]
    cases b <;> rfl

theorem restores_double {align : Nat} (holds : spot.Holds 8) (origin_holds : origin.Holds 8)
    (read : origin.Reads source (.float .double align) value) :
    Restores spot origin source (.float .double align) value := by
  intro heap
  obtain rfl := (reads_double origin_holds).mp read
  refine ⟨_, writeWord_spot holds _, .storeWord fun never => ?told, ?read⟩
  case told => simp [CType.onlyIntegers] at never
  case read =>
    refine (reads_double holds).mpr ?_
    rw [loadWord_storeWord _ _ (by decide) fun i beyond => Bits.bit_of_ge _ beyond]

/-! ## Bit-fields -/

/-- What is stored for the value of a bit-field gives the value again. -/
theorem integerBits_fieldValue (heap : Heap) {type : CType} (integral : type.isIntegral = true)
    (field : UInt64) {width : Nat} (positive : 0 < width)
    (small : type.isStray = false → width ≤ 64) :
    ∃ stored, (fieldValue type field width).integerBits heap type = .ok stored
      ∧ (type.onlyIntegers = true → ∀ i < width, i < 64 → Bits.bit stored i = Bits.bit field i)
      ∧ ∀ other, (∀ i < width, i < 64 → Bits.bit other i = Bits.bit stored i) →
          (∀ i < 64, width ≤ i → Bits.bit other i = false) →
          fieldValue type other width = fieldValue type field width := by
  cases type with
  | int name size signed align =>
    have whole := small rfl
    obtain ⟨stored, found, agree⟩ :=
      Value.integerBits_ofBits heap (.int name size signed align) field positive whole signed
    refine ⟨stored, found, fun _ i below _ => agree i below, fun other same _ => ?_⟩
    exact Value.ofBits_congr positive whole signed fun i below =>
      (same i below (by omega)).trans (agree i below)
  | stray =>
    have masked (word : UInt64) {i : Nat} (below : i < width) (inside : i < 64) :
        Bits.bit (word &&& Bits.mask width) i = Bits.bit word i := by
      rw [Bits.bit_and, Bits.bit_mask width inside, decide_eq_true below, Bool.and_true]
    refine ⟨field &&& Bits.mask width, rfl, fun _ _ => masked field, fun other same clear => ?_⟩
    refine congrArg Value.uint (Bits.eq_of_bit fun i inside => ?_)
    by_cases below : i < width
    · rw [masked other below inside, same i below inside]
    · rw [Bits.bit_and, Bits.bit_and, Bits.bit_mask width inside, decide_eq_false below,
        Bool.and_false, Bool.and_false]
  | bool =>
    refine ⟨if field != 0 then 1 else 0, rfl, fun never => ?_, fun other same clear => ?_⟩
    · simp [CType.onlyIntegers] at never
    · have told : (other != 0) = (field != 0) := by
        cases truth : field != 0 <;> rw [truth] at same
        · have zero : other = 0 := by
            refine Bits.eq_zero_iff_bit.mpr fun i inside => ?_
            by_cases below : i < width
            · rw [same i below inside]
              simp [Bits.bit]
            · exact clear i inside (Nat.not_lt.mp below)
          simp [zero]
        · have low := same 0 positive (by decide)
          have nonzero : other ≠ 0 := by
            rintro rfl
            simp [Bits.bit] at low
          simpa using nonzero
      simp only [fieldValue, told]
  | _ => cases integral

/-- A bit-field whose lowest bit lies in a word is stored where its storage unit lies in the
view. -/
theorem writeBits_of_le {view : View} {type : CType} {offset : Nat} {slot : BitSlot} {heap : Heap}
    {word : UInt64} (inside : offset + type.size ≤ view.length) (small : slot.offset < 64)
    (found : value.integerBits heap type = .ok word) :
    let address := view.block.base + view.start + offset
    let size := Bits.unitBytes type.size
    view.writeBits type offset slot value heap = (.ok (), { heap with
      memory := heap.memory.storeWord address size
        (Bits.replace (heap.memory.loadWord address size) slot.offset slot.width word) }) := by
  intro address size
  unfold View.writeBits View.target
  rw [HeapM.bind_of_ok HeapM.get_run, found, HeapM.bind_of_ok (HeapM.lift_run _),
    View.locate_of_le inside, Word.shift_of_lt small]
  rfl

/-- A bit of memory where a bit-field was replaced in its unit. -/
theorem bit_replaceField (memory : Memory) (address : Nat) {count offset : Nat} (width : Nat)
    (bits : UInt64) (small : count ≤ 8) (near : offset < 64) (i : Nat) :
    (memory.storeWord address count
        (Bits.replace (memory.loadWord address count) offset width bits)).bit i =
      if 8 * address + offset ≤ i ∧ i < 8 * address + offset + width
          ∧ i < 8 * (address + count) then
        Bits.bit bits (i - (8 * address + offset))
      else memory.bit i := by
  rw [Memory.bit_storeWord]
  by_cases unit : 8 * address ≤ i ∧ i < 8 * (address + count)
  · rw [if_pos unit, Bits.bit_replace _ _ near _ (by omega)]
    by_cases field : offset ≤ i - 8 * address ∧ i - 8 * address < offset + width
    · rw [if_pos field, if_pos (by omega), Nat.sub_sub]
    · rw [if_neg field, if_neg (by omega), Memory.bit_loadWord _ _ (by omega) small,
        Nat.add_sub_cancel' unit.1]
  · rw [if_neg unit, if_neg (by omega)]

/-- Storing the bits of a bit-field changes no others. -/
theorem merge_field {member : Member} {slot : BitSlot} (stored : Layout.Stored size member)
    (bits : member.bits = some slot) (near : slot.offset < 64) {memory : Memory} {word : UInt64}
    (told : member.type.onlyIntegers = true → ∀ i < slot.width, i < 64 → Bits.bit word i
      = Bits.bit (Bits.extract (source.memory.loadWord (origin.address + member.offset)
          (Bits.unitBytes member.type.size)) slot.offset slot.width) i) :
    let address := spot.address + member.offset
    let count := Bits.unitBytes member.type.size
    Merge memory
      (memory.storeWord address count
        (Bits.replace (memory.loadWord address count) slot.offset slot.width word))
      source.memory spot.start origin.start member.firstBit member.endBit
      (member.type.onlyIntegers = true) := by
  intro address count
  have small : count ≤ 8 := unitBytes_le_word _
  have first := Placed.firstBit_of_bits bits
  have last := Placed.endBit_of_bits bits
  have begins : 8 * address + slot.offset = spot.start + member.firstBit := by
    simp only [first, start, address]
    omega
  constructor
  · intro i beyond
    rw [bit_replaceField memory _ _ word small near, if_neg (by omega)]
  · intro integers
    constructor
    intro i above below
    rw [bit_replaceField memory _ _ word small near]
    -- The end of a field may lie behind the word that is stored.
    by_cases within : spot.start + i < 8 * (address + count)
    · rw [if_pos (by omega)]
      refine .inr ⟨trivial, ?_⟩
      have relative : spot.start + i - (8 * address + slot.offset) = i - member.firstBit := by
        omega
      rw [relative, told integers _ (by omega) (by omega),
        bit_field stored bits _ _ (by omega) (by omega), Nat.add_sub_cancel' above]
    · exact .inl (if_neg (by omega))

theorem restoresMember_bits {member : Member} {slot : BitSlot} (holds : spot.Holds size)
    (origin_holds : origin.Holds size) (stored : Layout.Stored size member)
    (bits : member.bits = some slot) (read : origin.ReadsMember source member value) :
    RestoresMember spot origin source member value := by
  intro heap
  have integral := stored.integral (by simp [bits])
  have whole := width_le_of_stored stored bits
  obtain ⟨positive, fits⟩ := stored.slot slot bits
  obtain ⟨near, rfl⟩ := (readsMember_of_bits origin_holds stored bits).mp read
  let field := Bits.extract (source.memory.loadWord (origin.address + member.offset)
    (Bits.unitBytes member.type.size)) slot.offset slot.width
  obtain ⟨word, found, told, again⟩ := integerBits_fieldValue heap integral field positive
    fun even => Nat.le_trans (Nat.le_add_left _ _) (whole even)
  let address := spot.address + member.offset
  let count := Bits.unitBytes member.type.size
  let unit := heap.memory.loadWord address count
  let changed := Bits.replace unit slot.offset slot.width word
  refine ⟨{ heap with memory := heap.memory.storeWord address count changed }, ?write,
    merge_field stored bits near told, ?read⟩
  case write =>
    have inside : spot.offset + member.offset + member.type.size ≤ spot.view.length :=
      (holds.plus stored.inside).inside
    have place : spot.view.block.base + spot.view.start + (spot.offset + member.offset)
        = spot.address + member.offset := by
      simp only [Spot.address, Nat.add_assoc]
    unfold View.writeMember
    rw [bits]
    simp only
    rw [writeBits_of_le inside near found, place]
  case read =>
    refine (readsMember_of_bits holds stored bits).mpr ⟨near, (again _ ?_ ?_).symm⟩
    · intro i below inside
      by_cases shown : slot.offset + i < 64
      · have position : spot.start + (member.firstBit + i) - (8 * address + slot.offset) = i := by
          simp only [Placed.firstBit_of_bits bits, start, address]
          omega
        have lies : slot.offset + i < 8 * count := bit_lt_unit fits below shown
        rw [bit_field stored bits _ _ below shown,
          bit_replaceField heap.memory _ _ word (unitBytes_le_word _) near,
          if_pos (by simp only [Placed.firstBit_of_bits bits, start, address]; omega), position]
      · -- Only the field of a wide character reaches behind the word, where it has no bits.
        have integers : member.type.onlyIntegers = true := by
          cases even : member.type.isStray with
          | true => exact CType.onlyIntegers_of_isStray even
          | false =>
            have ends := whole even
            omega
        rw [told integers i below inside, bit_extract_beyond _ near (by omega),
          bit_extract_beyond _ near (by omega)]
    · intro i inside beyond
      rw [Bits.bit_extract _ near _ inside]
      simp [Nat.not_lt.mpr beyond]

/-! ## Arrays and composites -/

theorem plus_plus (spot : Spot) (first second : Nat) :
    (spot.plus first).plus second = spot.plus (first + second) := by
  simp only [plus, Nat.add_assoc]

theorem plus_zero (spot : Spot) : spot.plus 0 = spot := rfl

/-- The items of an array are stored one behind the other. -/
theorem writeItems_restores {element : CType} (storable : element.Storable)
    (restores : ∀ {spot origin : Spot} {value : Value}, spot.Holds element.size →
      origin.Holds element.size → origin.Reads source element value →
      Restores spot origin source element value)
    (items : List Value) (holds : spot.Holds (element.size * items.length))
    (origin_holds : origin.Holds (element.size * items.length))
    (read : ∀ i (below : i < items.length),
      (origin.plus (i * element.size)).Reads source element items[i]) (heap : Heap) :
    ∃ after, View.writeItems spot.view element spot.offset items heap = (.ok (), after)
      ∧ Merge heap.memory after.memory source.memory spot.start origin.start 0
          (8 * (element.size * items.length)) (element.onlyIntegers = true)
      ∧ ∀ i (below : i < items.length),
          (spot.plus (i * element.size)).Reads after element items[i] := by
  induction items generalizing spot origin heap with
  | nil => exact ⟨heap, rfl, .refl, by simp⟩
  | cons item rest ih =>
    have size_cons : element.size * (item :: rest).length
        = element.size + element.size * rest.length := by
      rw [List.length_cons, Nat.mul_add, Nat.mul_one, Nat.add_comm]
    have element_spot : ∀ (place : Spot) (i : Nat),
        place.plus ((i + 1) * element.size)
          = (place.plus element.size).plus (i * element.size) := by
      intro place i
      rw [plus_plus, Nat.add_mul, Nat.one_mul, Nat.add_comm]
    rw [size_cons] at holds origin_holds ⊢
    have first_holds : spot.Holds element.size := holds.plus (by omega : 0 + _ ≤ _)
    have first_origin : origin.Holds element.size := origin_holds.plus (by omega : 0 + _ ≤ _)
    have first_read : origin.Reads source element item := by
      have at_zero := read 0 (by simp)
      rwa [Nat.zero_mul] at at_zero
    obtain ⟨middle, ran, merged, stored⟩ := restores first_holds first_origin first_read heap
    obtain ⟨after, ran_rest, merged_rest, stored_rest⟩ :=
      ih (holds.plus (Nat.le_refl _)) (origin_holds.plus (Nat.le_refl _)) (fun i below => by
        have later := read (i + 1) (by simpa using below)
        rwa [element_spot] at later) middle
    rw [start_plus, start_plus] at merged_rest
    have behind := merged_rest.unshift
    refine ⟨after, ?write, merged.trans behind (by omega) (by omega) id id, ?read⟩
    case write =>
      unfold View.writeItems
      rw [HeapM.bind_of_ok ran]
      exact ran_rest
    case read =>
      intro i below
      cases i with
      | zero =>
        rw [Nat.zero_mul, plus_zero]
        -- The first item lies before everything that is stored after it.
        refine reads_blend storable first_holds first_origin stored first_read
          ⟨fun i _ inside => ?_⟩
        exact .inl (behind.outside _ (by omega))
      | succ i =>
        rw [element_spot]
        exact stored_rest i (by simpa using below)

theorem restoresMember {member : Member} (holds : spot.Holds size)
    (origin_holds : origin.Holds size) (stored : Layout.Stored size member)
    (restores : ∀ {spot origin : Spot} {value : Value}, spot.Holds member.type.size →
      origin.Holds member.type.size → origin.Reads source member.type value →
      Restores spot origin source member.type value)
    (read : origin.ReadsMember source member value) :
    RestoresMember spot origin source member value := by
  cases bits : member.bits with
  | some slot => exact restoresMember_bits holds origin_holds stored bits read
  | none =>
    intro heap
    have first := Placed.firstBit_of_plain bits
    have last := Placed.endBit_of_plain bits
    rw [readsMember_of_plain bits] at read
    obtain ⟨after, ran, merged, reads⟩ :=
      restores (holds.plus stored.inside) (origin_holds.plus stored.inside) read heap
    rw [start_plus, start_plus] at merged
    refine ⟨after, ?write, ?merge, (readsMember_of_plain bits).mpr reads⟩
    case write =>
      unfold View.writeMember
      rw [bits]
      exact ran
    case merge =>
      rw [last, first]
      exact merged.unshift

theorem writeEntries_cons {view : View} {layout : Layout} {base : Nat} {name : String}
    {item : Value} {rest : List (String × Value)} {member : Member}
    (found : layout.member? name = some member) :
    View.writeEntries view layout base ((name, item) :: rest) = (do
      view.writeMember member base item
      View.writeEntries view layout base rest) := by
  rw [View.writeEntries, found]
  obtain ⟨_, _, _, bits⟩ := member
  cases bits <;> rfl

/-- The members that a record names are stored one after the other, in any order. Those that it does
not name, and that read like their origin already, survive. -/
theorem writeEntries_restores {layout : Layout}
    (distinct : (layout.members.map (·.name)).Nodup)
    (stored : ∀ member ∈ layout.members, Layout.Stored layout.size member)
    (integers : CType.fieldsOnlyIntegers layout.fields = true →
      ∀ member ∈ layout.members, member.type.onlyIntegers = true)
    (compatible : layout.members.Pairwise Layout.Compatible)
    (storable : ∀ member ∈ layout.members, member.type.Storable)
    (holds : spot.Holds layout.size) (origin_holds : origin.Holds layout.size)
    (restores : ∀ member ∈ layout.members, ∀ {value : Value},
      origin.ReadsMember source member value → RestoresMember spot origin source member value)
    (entries : List (String × Value)) (keys : (entries.map Prod.fst).Nodup)
    (read : ∀ entry ∈ entries, ∃ member ∈ layout.members, entry.1 = member.name
      ∧ origin.ReadsMember source member entry.2) (heap : Heap) :
    ∃ after, View.writeEntries spot.view layout spot.offset entries heap = (.ok (), after)
      ∧ Merge heap.memory after.memory source.memory spot.start origin.start 0 (8 * layout.size)
          (CType.fieldsOnlyIntegers layout.fields = true)
      ∧ ∀ member ∈ layout.members, ∀ value, origin.ReadsMember source member value →
          ((member.name, value) ∈ entries
            ∨ member.name ∉ entries.map Prod.fst ∧ spot.ReadsMember heap member value) →
          spot.ReadsMember after member value := by
  induction entries generalizing heap with
  | nil =>
    refine ⟨heap, rfl, .refl, fun member _ value _ state => ?_⟩
    rcases state with named | ⟨_, already⟩
    · cases named
    · exact already
  | cons entry rest ih =>
    obtain ⟨name, item⟩ := entry
    rw [List.map_cons, List.nodup_cons] at keys
    obtain ⟨target, target_mem, same, target_read⟩ := read (name, item) List.mem_cons_self
    obtain rfl : name = target.name := same
    obtain ⟨middle, ran, merged, target_stored⟩ := restores target target_mem target_read heap
    obtain ⟨after, ran_rest, merged_rest, survive⟩ :=
      ih keys.2 (fun entry later => read entry (List.mem_cons_of_mem _ later)) middle
    have target_inside : target.endBit ≤ 8 * layout.size :=
      Nat.le_trans (stored target target_mem).slot.endBit_le
        (Nat.mul_le_mul_left 8 (stored target target_mem).inside)
    refine ⟨after, ?write, ?merge, ?survive⟩
    case write =>
      rw [writeEntries_cons (Layout.member?_name distinct target_mem), HeapM.bind_of_ok ran]
      exact ran_rest
    case merge =>
      exact merged.trans merged_rest target_inside (Nat.le_refl _)
        (fun all => integers all target target_mem) id
    case survive =>
      intro member mem value member_read state
      refine survive member mem value member_read ?_
      rcases state with named | ⟨unnamed, already⟩
      · rcases List.mem_cons.mp named with here | later
        · -- The member was stored just now, and no later entry has its name.
          have target_here : member.name = target.name := (Prod.mk.inj here).1
          obtain rfl : member = target :=
            List.inj_on_of_nodup_map distinct mem target_mem target_here
          obtain rfl : value = item := (Prod.mk.inj here).2
          exact .inr ⟨keys.1, target_stored⟩
        · exact .inl later
      · -- The member was there before, and is compatible with the one that was stored.
        rw [List.map_cons, List.mem_cons, not_or] at unnamed
        have : Std.Symm Layout.Compatible := ⟨fun _ _ => Layout.Compatible.symm⟩
        have apart := compatible.forall mem target_mem fun same => unnamed.1 (same ▸ rfl)
        refine .inr ⟨unnamed.2, ?_⟩
        exact readsMember_blend holds origin_holds (stored member mem) already member_read
          (merged.blend_of_compatible apart) (reads_blend (storable member mem))

/-- A value that was read somewhere is stored anywhere. -/
theorem restores {type : CType} (storable : type.Storable) (holds : spot.Holds type.size)
    (origin_holds : origin.Holds type.size) (read : origin.Reads source type value) :
    Restores spot origin source type value := by
  induction storable generalizing spot origin value with
  | bool => exact restores_bool holds origin_holds read
  | int => exact restores_int holds origin_holds read
  | stray long => exact restores_stray holds origin_holds long read
  | double => exact restores_double holds origin_holds read
  | @array element count storable ih =>
    intro heap
    obtain ⟨items, rfl, rfl, each⟩ := (reads_array origin_holds).mp read
    obtain ⟨after, ran, merged, stored⟩ :=
      writeItems_restores storable ih items holds origin_holds each heap
    refine ⟨after, ?_, merged, (reads_array holds).mpr ⟨items, rfl, rfl, stored⟩⟩
    have room : items.length ≤ items.length := Nat.le_refl _
    simp only [View.write, if_pos room]
    rw [HeapM.bind_of_ok (target_spot holds)]
    exact ran
  | @composite layout distinct stored integers compatible storable ih =>
    intro heap
    obtain ⟨entries, rfl, each⟩ := (reads_composite origin_holds).mp read
    obtain ⟨sorted, same, perm⟩ := Value.ofEntries_perm ((entries_keys each).symm ▸ distinct)
    have paired : ∀ entry ∈ sorted, ∃ member ∈ layout.members, entry.1 = member.name
        ∧ origin.ReadsMember source member entry.2 := by
      intro entry mem
      obtain ⟨i, below, rfl⟩ := List.getElem_of_mem (perm.mem_iff.mp mem)
      obtain ⟨length, each⟩ := List.forall₂_iff_get.mp each
      exact ⟨_, List.get_mem layout.members ⟨i, length ▸ below⟩, each i (length ▸ below) below⟩
    have keys : (sorted.map Prod.fst).Nodup :=
      (perm.map Prod.fst).nodup_iff.mpr ((entries_keys each).symm ▸ distinct)
    obtain ⟨after, ran, merged, survive⟩ := writeEntries_restores distinct stored integers
      compatible storable holds origin_holds
      (fun member mem _ member_read => restoresMember holds origin_holds (stored member mem)
        (ih member mem) member_read)
      sorted keys paired heap
    refine ⟨after, ?write, merged, ?read⟩
    case write =>
      rw [same]
      simp only [View.write]
      rw [HeapM.bind_of_ok (target_spot holds)]
      exact ran
    case read =>
      refine (reads_composite holds).mpr ⟨entries, rfl, ?_⟩
      obtain ⟨length, each⟩ := List.forall₂_iff_get.mp each
      refine List.forall₂_iff_get.mpr ⟨length, fun i below below' => ?_⟩
      obtain ⟨name, member_read⟩ := each i below below'
      refine ⟨name, survive _ (List.get_mem _ _) _ member_read (.inl ?_)⟩
      rw [← name]
      exact perm.mem_iff.mpr (List.get_mem _ _)

end Spot

end CInterop
