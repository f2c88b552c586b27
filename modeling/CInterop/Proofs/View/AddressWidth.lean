import CInterop.Proofs.View.PointerSlots

/-!
# Addresses in narrow slots

A pointer slot takes the lowest bytes of an address, as many as the pointers of its platform have.
Whichever value the address is taken from, the slot has it back just when it fits these bytes
(`View.write_address`). Addresses are words, so that a slot of eight bytes loses none; a slot of
four bytes loses what lies above them, and the write says nothing of it.
-/

namespace CInterop

open HeapM Heap PointerStore

/-! ## What a slot takes of an address -/

/-- The part of an address that pointers of some width have room for. -/
def Width.cut (width : Width) (address : UInt64) : UInt64 := address &&& Bits.mask width.bits

namespace Width

theorem cut_eq_iff (width : Width) (address : UInt64) :
    width.cut address = address ↔ address.toNat < 2 ^ width.bits := by
  have positive : 0 < 2 ^ width.bits := Nat.two_pow_pos _
  have kept : (width.cut address).toNat = address.toNat % 2 ^ width.bits :=
    Bits.toNat_and_mask address width.bits_le
  rw [← UInt64.toNat_inj, kept]
  exact ⟨fun same => same ▸ Nat.mod_lt _ positive, Nat.mod_eq_of_lt⟩

theorem bit_cut (width : Width) (address : UInt64) {i : Nat} (inside : i < 64) :
    Bits.bit (width.cut address) i = (decide (i < width.bits) && Bits.bit address i) := by
  rw [cut, Bits.bit_and, Bits.bit_mask _ inside, Bool.and_comm]

/-- A word that some bytes spell has room in as many. -/
theorem cut_toWord {width : Width} {bytes : Bytes} (length : bytes.length = width.bytes) :
    width.cut (Bytes.toWord bytes) = Bytes.toWord bytes := by
  apply Bits.eq_of_bit
  intro i inside
  rw [bit_cut _ _ inside]
  by_cases low : i < width.bits
  · rw [decide_eq_true low, Bool.true_and]
  · have none : bytes[i / 8]? = none := by
      refine List.getElem?_eq_none ?_
      unfold bits at low
      omega
    rw [decide_eq_false low, Bool.false_and, Bytes.bit_toWord _ inside, Bytes.bit, none]

end Width

/-- What was stored of an address is loaded again. -/
theorem Memory.loadWord_cut (memory : Memory) (place : Nat) (width : Width) (address : UInt64) :
    (memory.storeWord place width.bytes address).loadWord place width.bytes
      = width.cut address := by
  apply Bits.eq_of_bit
  intro i inside
  rw [Width.bit_cut _ _ inside]
  by_cases low : i < width.bits
  · rw [Spot.bit_loadWord_storeWord memory place address low width.bytes_le, decide_eq_true low,
      Bool.true_and]
  · rw [Memory.bit_loadWord_beyond _ _ (Nat.not_lt.mp low), decide_eq_false low, Bool.false_and]

/-! ## What a slot takes from a value -/

/-- The address that is stored for a value is the one that it stands for. -/
theorem Heap.addressFor_of_addressOf? {heap : Heap} {value : Value} {address : UInt64}
    (denotes : heap.addressOf? value = some address) (natural : ∀ i, value = .int i → 0 ≤ i)
    (apart : ∀ x, value = .object x → x.type.isPointer = false) (type : CType) (target : Target) :
    ∃ item, addressFor type target value heap = (.ok (address, item), heap) := by
  cases value with
  | null | uint =>
    cases denotes
    exact ⟨_, rfl⟩
  | pointer p =>
    have located : p.address = .ok address := toOption_eq_some.mp denotes
    exact ⟨_, HeapM.bind_eq_ok.mpr ⟨address, heap, HeapM.lift_eq_ok.mpr ⟨located, rfl⟩, rfl⟩⟩
  | int i =>
    cases denotes
    rw [addressFor, if_pos (natural i rfl)]
    exact ⟨_, rfl⟩
  | object x =>
    rw [addressOf?, apart x rfl] at denotes
    cases denotes
    exact ⟨_, rfl⟩
  | _ => cases denotes

/-- An instance of a pointer type stands for the address that its bytes spell. -/
theorem Heap.bytes_of_addressOf? {heap : Heap} {x : Instance} {address : UInt64}
    (denotes : heap.addressOf? (.object x) = some address) (holder : x.type.isPointer = true) :
    ∃ bytes, x.bytes heap = .ok bytes ∧ Bytes.toWord bytes = address := by
  rw [addressOf?, holder] at denotes
  cases read : x.bytes heap with
  | error failure =>
    rw [read] at denotes
    cases denotes
  | ok bytes =>
    rw [read] at denotes
    exact ⟨bytes, rfl, Option.some.inj denotes⟩

namespace View

variable {view : View} {offset : Nat} {heap : Heap} {value : Value} {address : UInt64}

theorem exists_copyInstance {x : Instance} {bytes : Bytes} (read : x.bytes heap = .ok bytes)
    (inside : offset + bytes.length ≤ view.length) :
    ∃ after, view.copyInstance offset x heap = (.ok (), after)
      ∧ after.memory = heap.memory.store (view.place offset) bytes := by
  have looked : (liftM (x.bytes heap) : HeapM Bytes) heap = (.ok bytes, heap) :=
    lift_eq_ok.mpr ⟨read, rfl⟩
  have stored : view.writeBytes offset bytes heap
      = (.ok (), { heap with memory := heap.memory.store (view.place offset) bytes }) :=
    bind_of_ok (target_of_le inside)
  exact ⟨_, (bind_of_ok get_run).trans ((bind_of_ok looked).trans (bind_of_ok stored)), rfl⟩

theorem exists_copyPointer (type : CType) {x : Instance} {bytes : Bytes}
    (read : x.bytes heap = .ok bytes) (inside : offset + type.size ≤ view.length) :
    ∃ after, view.copyPointer type offset x heap = (.ok (), after)
      ∧ after.memory
        = heap.memory.storeWord (view.place offset) type.size (Bytes.toWord bytes) := by
  have looked : (liftM (x.bytes heap) : HeapM Bytes) heap = (.ok bytes, heap) :=
    lift_eq_ok.mpr ⟨read, rfl⟩
  have stored : view.writeWord offset type.size (Bytes.toWord bytes) heap
      = (.ok (), { heap with
          memory := heap.memory.storeWord (view.place offset) type.size (Bytes.toWord bytes) }) :=
    bind_of_ok (target_of_le inside)
  exact ⟨_, (bind_of_ok get_run).trans ((bind_of_ok looked).trans (bind_of_ok stored)), rfl⟩

/-- Each way of storing an instance of a pointer type puts into the slot what there is room for. -/
theorem exists_write_holder {target : Target} {width : Width} {x : Instance}
    (inside : offset + width.bytes ≤ view.length) (holder : x.type.isPointer = true)
    (denotes : heap.addressOf? (.object x) = some address) :
    ∃ after, view.write (.pointer target width) offset (.object x) heap = (.ok (), after)
      ∧ after.memory.loadWord (view.place offset) width.bytes = width.cut address := by
  obtain ⟨bytes, read, rfl⟩ := bytes_of_addressOf? denotes holder
  have run : view.write (.pointer target width) offset (.object x)
      = view.writeWhole (.pointer target width) offset (.object x) := rfl
  rw [run, writeWhole_object x rfl]
  split
  case isTrue same =>
    obtain ⟨target', kind⟩ := CType.eq_of_same_pointer same
    have length : bytes.length = width.bytes :=
      (length_bytes read).trans (congrArg CType.size kind)
    obtain ⟨after, ran, stored⟩ := exists_copyInstance read (length ▸ inside)
    refine ⟨after, ran, ?_⟩
    rw [stored, Memory.loadWord_store _ _ length, Width.cut_toWord length]
  case isFalse =>
    obtain ⟨after, ran, stored⟩ := exists_copyPointer (.pointer target width) read inside
    have pointers : (x.type.isPointer && (CType.pointer target width).isPointer) = true := by
      rw [holder]
      rfl
    rw [if_pos pointers]
    exact ⟨after, ran, stored ▸ heap.memory.loadWord_cut _ width _⟩

/-- What is no instance of a pointer type is stored as its address. -/
theorem write_of_apart (apart : ∀ x, value = .object x → x.type.isPointer = false)
    (target : Target) (width : Width) (offset : Nat) :
    view.write (.pointer target width) offset value
      = view.writeScalar (.pointer target width) offset value := by
  by_cases plain : ∀ x, value ≠ .object x
  · exact write_of_plain plain rfl rfl
  · obtain ⟨x, rfl⟩ := not_forall_not.mp plain
    have other : ¬(x.type == .pointer target width) = true := by
      intro same
      obtain ⟨target', kind⟩ := CType.eq_of_same_pointer same
      have holder : x.type.isPointer = true := kind ▸ rfl
      exact absurd (apart x rfl) (by rw [holder]; decide)
    show view.writeWhole (.pointer target width) offset (.object x) = _
    rw [writeWhole_object x rfl, if_neg other, apart x rfl]
    simp [CType.isPointer, CType.isComposite]

/-- Each way of storing an address puts into the slot what there is room for. -/
theorem exists_write_address (target : Target) {width : Width}
    (inside : offset + width.bytes ≤ view.length)
    (denotes : heap.addressOf? value = some address) (natural : ∀ i, value = .int i → 0 ≤ i) :
    ∃ after, view.write (.pointer target width) offset value heap = (.ok (), after)
      ∧ after.memory.loadWord (view.place offset) width.bytes = width.cut address := by
  by_cases apart : ∀ x, value = .object x → x.type.isPointer = false
  · obtain ⟨item, found⟩ :=
      addressFor_of_addressOf? denotes natural apart (.pointer target width) target
    rw [write_of_apart apart]
    exact ⟨_, writePointer_run inside found, heap.memory.loadWord_cut _ width address⟩
  · push Not at apart
    obtain ⟨x, rfl, holder⟩ := apart
    exact exists_write_holder inside (Bool.ne_false_iff.mp holder) denotes

end View

/-! ## Reading back -/

/-- What a slot of a block may read as when it holds an address: null and pointers have it, and a
text is what the block keeps alive there. A pointer into a block that reaches beyond the words has
the address up to the number of words. -/
inductive Heap.Shows (heap : Heap) (block : Block) (address : UInt64) : Value → Prop
  | null (zero : address = 0) : Shows heap block address .null
  | pointer {p : Pointer} (located : p.address = .ok address) :
    Shows heap block address (.pointer p)
  | beyond {target : CType} {other : Block} {offset : UInt64}
    (reaches : Word.modulus < other.base + other.length) (same : other.address + offset = address) :
    Shows heap block address (.pointer (.inBlock target other offset))
  | narrow {bytes : Bytes} (kept : heap.keptText? block address = some bytes) :
    Shows heap block address (.text (Text.Utf8.decode bytes))
  | wide {unit : Nat} {bytes : Bytes} (kept : heap.keptBlock? block address = some bytes) :
    Shows heap block address (.text (Text.Wide.decode unit bytes))

theorem Heap.shows_pointerValue (heap : Heap) (block : Block) (target : Target)
    (address : UInt64) : heap.Shows block address (heap.pointerValue block target address) := by
  cases text : target.isText with
  | false =>
    rcases heap.pointerValue_cases block text address with
      ⟨-, read⟩ | ⟨other, distance, found, read⟩
    · rw [read]
      exact .pointer (Place.address_ofAddress address)
    · obtain ⟨-, contained, rfl⟩ := resolve?_eq_some found
      rw [read]
      rcases Nat.lt_or_ge Word.modulus (other.base + other.length) with reaches | inside
      · exact .beyond reaches (other.address_add_distance address)
      · exact .pointer (Block.address_inBlock_distance inside contained)
  | true =>
    have foreign {pointee : CType} :
        heap.Shows block address (.pointer (.foreign pointee address)) :=
      .pointer (Place.address_ofAddress address)
    unfold pointerValue
    cases target with
    | untyped | typed => cases text
    | cstring =>
      dsimp only
      split
      case isTrue zero => exact .null zero
      case isFalse =>
        split
        case h_1 kept => exact .narrow kept
        case h_2 => exact foreign
    | wstring =>
      dsimp only
      split
      case isTrue zero => exact .null zero
      case isFalse =>
        split
        case h_1 kept => exact .wide kept
        case h_2 => exact foreign

namespace View

variable {view : View} {offset : Nat} {target : Target} {width : Width} {heap : Heap}
  {value : Value} {address : UInt64}

/-- A value that stands for an address is stored in every slot that lies in the view. The slot reads
as what the lowest bytes of the address stand for, which is the address just when it fits them. -/
theorem write_address (inside : offset + width.bytes ≤ view.length)
    (denotes : heap.addressOf? value = some address) (natural : ∀ i, value = .int i → 0 ≤ i) :
    ∃ after word result, view.write (.pointer target width) offset value heap = (.ok (), after)
      ∧ view.readWord after offset width.bytes = .ok word
      ∧ view.read after (.pointer target width) offset = .ok result
      ∧ after.Shows view.block word result
      ∧ word.toNat = address.toNat % 2 ^ width.bits
      ∧ (word = address ↔ address.toNat < 2 ^ width.bits) := by
  obtain ⟨after, ran, held⟩ := exists_write_address target inside denotes natural
  have word : view.readWord after offset width.bytes = .ok (width.cut address) := by
    rw [readWord_of_le inside]
    exact congrArg Except.ok held
  refine ⟨after, _, after.pointerValue view.block target (width.cut address), ran, word, ?read,
    after.shows_pointerValue .., Bits.toNat_and_mask _ width.bits_le, width.cut_eq_iff address⟩
  case read =>
    rw [View.read, word]
    rfl

/-- A slot of four bytes holds an address below 2 to the 32. -/
theorem write_address_narrow :
    0 + Width.w32.bytes ≤ slotsBlock.view.length
      ∧ slotsHeap.addressOf? (.uint 0x12345678) = some 0x12345678
      ∧ (∀ i, Value.uint 0x12345678 = .int i → 0 ≤ i)
      ∧ ∃ after result,
        slotsBlock.view.write (.pointer .untyped .w32) 0 (.uint 0x12345678) slotsHeap
            = (.ok (), after)
          ∧ slotsBlock.view.read after (.pointer .untyped .w32) 0 = .ok result
          ∧ after.Shows slotsBlock 0x12345678 result := by
  have inside : 0 + Width.w32.bytes ≤ slotsBlock.view.length := by decide
  have denotes : slotsHeap.addressOf? (.uint 0x12345678) = some 0x12345678 := rfl
  have natural : ∀ i, Value.uint 0x12345678 = .int i → 0 ≤ i := fun _ same => nomatch same
  obtain ⟨after, word, result, ran, -, read, shows, -, whole⟩ :=
    @write_address slotsBlock.view 0 .untyped .w32 slotsHeap _ _ inside denotes natural
  cases whole.mpr (by decide)
  exact ⟨inside, denotes, natural, after, result, ran, read, shows⟩

/-- A larger address is stored in such a slot as another one, without a failure. -/
theorem narrow_slot_cuts :
    (Registry.ofPlatform (.ofModel .ilp32)).pointerTo .void = .pointer .untyped .w32
      ∧ slotsHeap.addressOf? (.uint 0x100000001) = some 0x100000001
      ∧ ∃ after,
        slotsBlock.view.write (.pointer .untyped .w32) 0 (.uint 0x100000001) slotsHeap
            = (.ok (), after)
          ∧ slotsBlock.view.readWord after 0 4 = .ok 1
          ∧ slotsBlock.view.read after (.pointer .untyped .w32) 0
              = .ok (.pointer (.foreign .void 1))
          ∧ (Pointer.foreign .void 1).address = .ok 1 :=
  ⟨rfl, rfl, _, rfl, rfl, rfl, rfl⟩

end View

end CInterop
