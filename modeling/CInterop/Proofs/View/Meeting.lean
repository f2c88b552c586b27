import CInterop.Proofs.View.Totality

/-!
# One place in two views

The same bytes of a block can be reached through views that start and end elsewhere. What is read
and written there is the same through each of them (`Spot.Meets.read`, `Spot.Meets.write`), as
long as the value lies inside both views with all of its parts: the results, what is stored, and the
offsets of the block that anything is kept for.
-/

namespace CInterop

open HeapM

namespace Spot

/-- Two spots are one place of a block, and so many bytes there lie in both views. -/
structure Meets (spot other : Spot) (size : Nat) : Prop where
  block : spot.view.block = other.view.block
  begins : spot.view.start + spot.offset = other.view.start + other.offset
  holds : spot.Holds size
  others : other.Holds size

namespace Meets

variable {spot other : Spot} {type : CType} {size length : Nat}

theorem plus (meets : spot.Meets other size) {distance : Nat}
    (inside : distance + length ≤ size) :
    (spot.plus distance).Meets (other.plus distance) length where
  block := meets.block
  begins := by
    have begins := meets.begins
    simp only [Spot.plus]
    omega
  holds := meets.holds.plus inside
  others := meets.others.plus inside

theorem mono (meets : spot.Meets other size) (smaller : length ≤ size) :
    spot.Meets other length where
  block := meets.block
  begins := meets.begins
  holds := ⟨Nat.le_trans (Nat.add_le_add_left smaller _) meets.holds.inside⟩
  others := ⟨Nat.le_trans (Nat.add_le_add_left smaller _) meets.others.inside⟩

/-- The bytes of the value alone are the same view. -/
theorem cut (meets : spot.Meets other size) (length : Nat) :
    spot.view.cut spot.offset length = other.view.cut other.offset length := by
  rw [View.cut, View.cut, meets.block, meets.begins]

theorem read (meets : spot.Meets other type.size) (built : type.Built)
    (near : type.strands = false) (present : type.isVoid = false) (heap : Heap) :
    ∃ value, spot.Reads heap type value ∧ other.Reads heap type value := by
  obtain ⟨value, read, alone⟩ := View.exists_read_cut built near present meets.holds.inside
  obtain ⟨result, others_read, others_alone⟩ :=
    View.exists_read_cut built near present meets.others.inside
  rw [meets.cut, others_alone] at alone
  cases alone
  exact ⟨value, read, others_read⟩

/-! ## Stores -/

theorem target (meets : spot.Meets other size) (within : length ≤ size) :
    spot.view.target spot.offset length = other.view.target other.offset length := by
  have own := meets.holds.inside
  have others := meets.others.inside
  unfold View.target
  rw [View.locate_of_le (by omega), View.locate_of_le (by omega), meets.block,
    Nat.add_assoc, meets.begins, ← Nat.add_assoc]

theorem writeBytes (meets : spot.Meets other size) {bytes : Bytes} (within : bytes.length ≤ size) :
    spot.view.writeBytes spot.offset bytes = other.view.writeBytes other.offset bytes := by
  rw [View.writeBytes, meets.target within]
  rfl

theorem writeWord (meets : spot.Meets other size) (within : length ≤ size) (word : UInt64) :
    spot.view.writeWord spot.offset length word
      = other.view.writeWord other.offset length word := by
  rw [View.writeWord, meets.target within]
  rfl

theorem zero (meets : spot.Meets other size) (within : length ≤ size) :
    spot.view.zero spot.offset length = other.view.zero other.offset length := by
  rw [View.zero, meets.target within]
  rfl

/-- What is kept for the place is kept for the same bytes of the block. -/
theorem keep (meets : spot.Meets other size) (length : Nat) (item : Option Kept) :
    spot.view.keep spot.offset length item = other.view.keep other.offset length item := by
  rw [View.keep, meets.block, meets.begins]
  rfl

theorem writeBits (meets : spot.Meets other type.size) (slot : BitSlot) (value : Value) :
    spot.view.writeBits type spot.offset slot value
      = other.view.writeBits type other.offset slot value := by
  unfold View.writeBits
  rw [meets.target (Nat.le_refl _)]

theorem writeScalar (meets : spot.Meets other type.size) (value : Value) :
    spot.view.writeScalar type spot.offset value
      = other.view.writeScalar type other.offset value := by
  cases type with
  | void | array | composite => rfl
  | bool =>
    have word := meets.writeWord (show 1 ≤ CType.bool.size from Nat.le_refl _)
    simp only [View.writeScalar, word]
  | int =>
    have word := meets.writeWord (Nat.le_refl _)
    simp only [View.writeScalar, word]
  | stray bytes =>
    have located := meets.target (show bytes ≤ (CType.stray bytes).size from Nat.le_refl _)
    simp only [View.writeScalar, View.writeUnit, located]
  | float precision align =>
    cases precision with
    | single =>
      have word := meets.writeWord (show 4 ≤ (CType.float .single align).size from Nat.le_refl _)
      simp only [View.writeScalar, word]
    | double =>
      have word := meets.writeWord (show 8 ≤ (CType.float .double align).size from Nat.le_refl _)
      simp only [View.writeScalar, word]
  | pointer target width =>
    have located := meets.target (show width.bytes ≤ (CType.pointer target width).size
      from Nat.le_refl _)
    simp only [View.writeScalar, located, meets.keep]

theorem copyInstance (meets : spot.Meets other type.size) {source : Instance}
    (same : (source.type == type) = true) :
    spot.view.copyInstance spot.offset source = other.view.copyInstance other.offset source := by
  funext heap
  unfold View.copyInstance
  rw [bind_of_ok get_run, bind_of_ok get_run, bind_run, bind_run, lift_run]
  cases read : source.bytes heap with
  | error failure => rfl
  | ok bytes =>
    have whole : bytes.length = type.size :=
      (View.length_bytes read).trans (CType.size_eq_of_same same)
    dsimp only
    rw [meets.writeBytes (Nat.le_of_eq whole), meets.keep]

theorem copyPointer (meets : spot.Meets other type.size) (source : Instance) :
    spot.view.copyPointer type spot.offset source
      = other.view.copyPointer type other.offset source := by
  have word := meets.writeWord (Nat.le_refl _)
  simp only [View.copyPointer, word, meets.keep]

theorem writeText {element : CType} {count : Nat}
    (meets : spot.Meets other (CType.array element count).size) (single : element.size = 1)
    (text : String) :
    spot.view.writeText (.array element count) count spot.offset text
      = other.view.writeText (.array element count) count other.offset text := by
  have size : (CType.array element count).size = count := by
    rw [CType.size, single, Nat.one_mul]
  rw [size] at meets
  unfold View.writeText
  extract_lets bytes
  split
  case isFalse => rfl
  case isTrue fits =>
    rw [meets.writeBytes fits]
    split
    case isFalse => rfl
    case isTrue shorter =>
      -- The zero byte behind a shorter text is a place of its own.
      have behind : (spot.plus bytes.length).Meets (other.plus bytes.length) 1 :=
        meets.plus shorter
      have zeroed : spot.view.zero (spot.offset + bytes.length) 1
          = other.view.zero (other.offset + bytes.length) 1 := behind.zero (Nat.le_refl 1)
      rw [zeroed]

theorem writeWhole (meets : spot.Meets other type.size) (value : Value) :
    spot.view.writeWhole type spot.offset value
      = other.view.writeWhole type other.offset value := by
  unfold View.writeWhole
  -- What happens to values that are no instance, and to instances of a wrong type.
  extract_lets plain plain'
  have same_plain : plain () = plain' () := by
    have located := meets.target (Nat.le_refl _)
    unfold plain plain'
    split
    case h_1 element count =>
      rw [located]
      split
      · split
        case isTrue narrow =>
          obtain ⟨single, _⟩ := Bool.and_eq_true_iff.mp narrow
          rw [meets.writeText (of_decide_eq_true single)]
        case isFalse => rfl
      · rfl
    case h_2 => rw [located]
    case h_3 => exact meets.writeScalar value
  split
  case h_1 source =>
    split
    case isTrue same => rw [meets.copyInstance same]
    case isFalse =>
      split
      case isTrue => rw [meets.copyPointer]
      case isFalse =>
        split
        case isTrue => simp only [meets.writeScalar]
        case isFalse => exact same_plain
  case h_2 => exact same_plain

/-- A member of the value lies in both views with it. -/
theorem writeMember {member : Member} {item : Value} (meets : spot.Meets other size)
    (inside : member.endByte ≤ size)
    (plain : ∀ {spot other : Spot}, spot.Meets other member.type.size →
      spot.view.write member.type spot.offset item
        = other.view.write member.type other.offset item) :
    spot.view.writeMember member spot.offset item
      = other.view.writeMember member other.offset item := by
  have part : (spot.plus member.offset).Meets (other.plus member.offset) member.type.size :=
    meets.plus inside
  unfold View.writeMember
  cases member.bits with
  | none => exact plain part
  | some slot => exact part.writeBits slot item

end Meets

end Spot

namespace View

theorem writeMembers_cons (view : View) (base : Nat) (member : Member) (members : List Member)
    (item : Value) (rest : List Value) :
    writeMembers view base (member :: members) (item :: rest) = (do
      view.writeMember member base item
      writeMembers view base members rest) := by
  obtain ⟨_, _, _, bits⟩ := member
  cases bits <;> rfl

end View

namespace Spot.Meets

/-! ## Values -/

mutual

theorem write (type : CType) (contained : type.Contained) : ∀ (value : Value) {spot other : Spot},
    spot.Meets other type.size →
      spot.view.write type spot.offset value = other.view.write type other.offset value
  | .list items, spot, other, meets => by
    have located := meets.target (Nat.le_refl _)
    unfold View.write
    split
    case h_1 element count =>
      rw [located]
      split
      case isTrue short =>
        have filled : element.size * items.length ≤ (CType.array element count).size :=
          Nat.mul_le_mul_left _ short
        rw [writeItems element contained.element items (meets.mono filled)]
      case isFalse => rfl
    case h_2 layout => rw [located, writeMembers layout.members items contained.member meets]
    case h_3 => exact meets.writeScalar _
  | .record entries, spot, other, meets => by
    have located := meets.target (Nat.le_refl _)
    unfold View.write
    split
    case h_1 layout => rw [located, writeEntries layout contained.member entries meets]
    case h_2 => exact meets.writeWhole _
  | .void, _, _, meets => meets.writeWhole .void
  | .null, _, _, meets => meets.writeWhole .null
  | .bool b, _, _, meets => meets.writeWhole (.bool b)
  | .int i, _, _, meets => meets.writeWhole (.int i)
  | .uint u, _, _, meets => meets.writeWhole (.uint u)
  | .single word, _, _, meets => meets.writeWhole (.single word)
  | .double word, _, _, meets => meets.writeWhole (.double word)
  | .text s, _, _, meets => meets.writeWhole (.text s)
  | .pointer p, _, _, meets => meets.writeWhole (.pointer p)
  | .object x, _, _, meets => meets.writeWhole (.object x)
termination_by structural value => value

theorem writeItems (element : CType) (contained : element.Contained) :
    ∀ (items : List Value) {spot other : Spot},
      spot.Meets other (element.size * items.length) →
      spot.view.writeItems element spot.offset items
        = other.view.writeItems element other.offset items
  | [], _, _, _ => rfl
  | item :: rest, spot, other, meets => by
    have parted : element.size * (item :: rest).length
        = element.size + element.size * rest.length := by
      rw [List.length_cons, Nat.mul_add, Nat.mul_one, Nat.add_comm]
    rw [parted] at meets
    have first : spot.Meets other element.size := meets.mono (Nat.le_add_right _ _)
    have behind : (spot.plus element.size).Meets (other.plus element.size)
        (element.size * rest.length) := meets.plus (Nat.le_refl _)
    have others : spot.view.writeItems element (spot.offset + element.size) rest
        = other.view.writeItems element (other.offset + element.size) rest :=
      writeItems element contained rest behind
    unfold View.writeItems
    rw [write element contained item first, others]
termination_by structural items => items

theorem writeMembers {size : Nat} : ∀ (members : List Member) (items : List Value)
    {spot other : Spot}, (∀ member ∈ members, member.endByte ≤ size ∧ member.type.Contained) →
      spot.Meets other size →
      spot.view.writeMembers spot.offset members items
        = other.view.writeMembers other.offset members items
  | _, [], _, _, _, _ => by
    unfold View.writeMembers
    rfl
  | [], _ :: _, _, _, _, _ => rfl
  | member :: members, item :: rest, spot, other, parts, meets => by
    obtain ⟨⟨inside, contained⟩, others⟩ := List.forall_mem_cons.mp parts
    have first := meets.writeMember inside (write member.type contained item)
    rw [View.writeMembers_cons, View.writeMembers_cons, first,
      writeMembers members rest others meets]
termination_by structural _ items => items

theorem writeEntries {size : Nat} (layout : Layout)
    (parts : ∀ member ∈ layout.members, member.endByte ≤ size ∧ member.type.Contained) :
    ∀ (entries : List (String × Value)) {spot other : Spot}, spot.Meets other size →
      spot.view.writeEntries layout spot.offset entries
        = other.view.writeEntries layout other.offset entries
  | [], _, _, _ => rfl
  | (name, item) :: rest, spot, other, meets => by
    cases found : layout.member? name with
    | none =>
      unfold View.writeEntries
      rw [found]
    | some member =>
      obtain ⟨inside, contained⟩ := parts member (Layout.mem_of_member? found).1
      have first := meets.writeMember inside (write member.type contained item)
      rw [Spot.writeEntries_cons found, Spot.writeEntries_cons found, first,
        writeEntries layout parts rest meets]
termination_by structural entries => entries

end

end Spot.Meets

end CInterop
