import CInterop.Proofs.Heap.Footprint
import CInterop.Proofs.Sameness
import CInterop.Proofs.View.Assembly
import CInterop.Proofs.View.RoundTrip

/-!
# Writes stay in their place

Every store of a write changes the bytes that it locates in the view, and a bit-field only its own
bits of them; what is stored elsewhere, such as a text, takes free memory. The exception is a wide
character of a size that no other integer has: with it, the bytes behind it are stored.
-/

namespace CInterop.View

open HeapM

variable {view : View} {bits blocks : Nat → Prop} {type : CType} {offset length : Nat}

/-- The address at an offset of a view. -/
def place (view : View) (offset : Nat) : Nat := view.block.base + view.start + offset

theorem place_add (view : View) (offset distance : Nat) :
    view.place (offset + distance) = view.place offset + distance := by
  unfold place
  omega

/-- Some bytes at an offset of a view, as far as they lie in it, are among some bits. -/
def Covers (bits : Nat → Prop) (view : View) (offset length : Nat) : Prop :=
  ∀ i, 8 * view.place offset ≤ i → i < 8 * (view.place offset + length) →
    i < 8 * view.place view.length → bits i

theorem Covers.part {distance size : Nat} (covers : view.Covers bits offset length)
    (inside : distance + size ≤ length) : view.Covers bits (offset + distance) size := by
  intro i above below lies
  rw [place_add] at above below
  exact covers i (by omega) (by omega) lies

theorem Covers.spares {i : Nat} (covers : view.Covers bits offset length)
    (inside : offset + length ≤ view.length) (free : ¬bits i) :
    ¬(8 * view.place offset ≤ i ∧ i < 8 * (view.place offset + length)) := by
  rintro ⟨above, below⟩
  refine free (covers i above below ?_)
  unfold place at below ⊢
  omega

/-! ## Stores -/

theorem target_cases (view : View) (offset length : Nat) :
    (∃ failure, view.target offset length = throw failure)
      ∨ offset + length ≤ view.length ∧ view.target offset length = pure (view.place offset) := by
  unfold target locate
  split
  case isTrue inside => exact .inr ⟨inside, rfl⟩
  case isFalse => exact .inl ⟨_, rfl⟩

theorem target_of_le {heap : Heap} (inside : offset + length ≤ view.length) :
    view.target offset length heap = (.ok (view.place offset), heap) := by
  rw [View.target, lift_run, locate_of_le inside]
  rfl

theorem touches_located {change : Nat → Memory → Memory}
    (spares : offset + length ≤ view.length → ∀ memory i, ¬bits i →
      (change (view.place offset) memory).bit i = memory.bit i) :
    Touches bits blocks (do Heap.onMemory (change (← view.target offset length))) := by
  rcases view.target_cases offset length with ⟨failure, refused⟩ | ⟨inside, located⟩
  · rw [refused]
    exact touches_of_quiet (quiet_throw failure)
  · rw [located, pure_bind]
    exact touches_onMemory (spares inside)

theorem touches_writeBytes {bytes : Bytes} (covers : view.Covers bits offset bytes.length) :
    Touches bits blocks (view.writeBytes offset bytes) := by
  refine touches_located fun inside memory i free => ?_
  rw [Memory.bit_store, if_neg (covers.spares inside free)]

theorem touches_zero (covers : view.Covers bits offset length) :
    Touches bits blocks (view.zero offset length) := by
  refine touches_located fun inside memory i free => ?_
  rw [Memory.fill_eq_store, Memory.bit_store, List.length_replicate,
    if_neg (covers.spares inside free)]

theorem touches_writeWord {word : UInt64} (covers : view.Covers bits offset length) :
    Touches bits blocks (view.writeWord offset length word) := by
  refine touches_located fun inside memory i free => ?_
  rw [Memory.bit_storeWord, if_neg (covers.spares inside free)]

theorem touches_keep {item : Option Kept} (own : blocks view.block.id) :
    Touches bits blocks (view.keep offset length item) := Heap.touches_keepAt own _ _ _

/-- A bit-field is written back with its whole storage unit. -/
theorem touches_writeBits {slot : BitSlot} {value : Value}
    (spares : offset + type.size ≤ view.length → slot.offset < 64 →
      ∀ (memory : Memory) word i, ¬bits i →
        (memory.storeWord (view.place offset) (Bits.unitBytes type.size)
          (Bits.replace (memory.loadWord (view.place offset) (Bits.unitBytes type.size))
            slot.offset slot.width word)).bit i = memory.bit i) :
    Touches bits blocks (view.writeBits type offset slot value) := by
  unfold writeBits
  refine (touches_of_quiet quiet_get).bind fun heap => ?_
  refine (touches_of_quiet (quiet_lift _)).bind fun word => ?_
  rcases view.target_cases offset type.size with ⟨failure, refused⟩ | ⟨inside, located⟩
  · rw [refused]
    exact touches_of_quiet (quiet_throw failure)
  · rw [located, pure_bind]
    by_cases small : slot.offset < 64
    · rw [Word.shift_of_lt small]
      exact touches_onMemory fun memory i free => spares inside small memory word i free
    · unfold Word.shift
      rw [if_neg small]
      exact touches_of_quiet fun _ => rfl

/-- Storing an integer of so many bytes, if they lie in the view, changes some bits only. -/
def SparesUnit (bits : Nat → Prop) (view : View) (offset size : Nat) : Prop :=
  offset + size ≤ view.length → ∀ (memory : Memory) word i, ¬bits i →
    (memory.storeWord (view.place offset) (Bits.unitBytes size) word).bit i = memory.bit i

/-- An integer is stored in its own bytes, unless it is short. -/
theorem sparesUnit_of_covers (integral : type.isIntegral = true) (own : type.isShort = false)
    (covers : view.Covers bits offset type.size) : view.SparesUnit bits offset type.size := by
  intro inside memory word i free
  have unit := Spot.unitBytes_le integral own
  rw [Memory.bit_storeWord, if_neg fun within => covers.spares inside free (by omega)]

theorem touches_writeScalar {value : Value} (covers : view.Covers bits offset type.size)
    (unit : ∀ size, type = .stray size → view.SparesUnit bits offset size)
    (own : blocks view.block.id) : Touches bits blocks (view.writeScalar type offset value) := by
  unfold writeScalar
  split
  case h_1 | h_2 =>
    refine (touches_of_quiet quiet_get).bind fun heap => ?_
    exact (touches_of_quiet (quiet_lift _)).bind fun word => touches_writeWord covers
  case h_3 size =>
    refine (touches_of_quiet quiet_get).bind fun heap => ?_
    refine (touches_of_quiet (quiet_lift _)).bind fun word => ?_
    exact touches_located fun inside memory i free => unit size rfl inside memory word i free
  case h_4 | h_5 =>
    exact (touches_of_quiet (quiet_lift _)).bind fun word => touches_writeWord covers
  case h_6 target width =>
    rcases view.target_cases offset width.bytes with ⟨failure, refused⟩ | ⟨inside, located⟩
    · rw [refused]
      exact touches_of_quiet (quiet_throw failure)
    · rw [located, pure_bind]
      replace covers : view.Covers bits offset width.bytes := covers
      refine (Heap.touches_addressFor _ target value).bind fun found => ?_
      refine (touches_onMemory fun memory i free => ?_).bind fun _ => touches_keep own
      rw [Memory.bit_storeWord, if_neg (covers.spares inside free)]
  case h_7 => exact touches_of_quiet (quiet_throw _)

/-- The bytes of an instance are as many as those of its type. -/
theorem touches_bytes {α : Type} {source : Instance} {next : Bytes → HeapM α}
    (rest : ∀ bytes : Bytes, bytes.length = source.type.size → Touches bits blocks (next bytes)) :
    Touches bits blocks (do next (← liftM (source.bytes (← get)))) := by
  intro heap
  rw [bind_of_ok get_run, bind_run, lift_run]
  cases read : source.bytes heap with
  | error failure => exact .refl heap
  | ok bytes => exact rest bytes (length_bytes read) heap

theorem touches_copyInstance {source : Instance} (same : (source.type == type) = true)
    (covers : view.Covers bits offset type.size) (own : blocks view.block.id) :
    Touches bits blocks (view.copyInstance offset source) := by
  unfold copyInstance
  refine touches_bytes fun bytes length => ?_
  rw [← CType.size_eq_of_same same, ← length] at covers
  exact (touches_writeBytes covers).bind fun _ => touches_keep own

theorem touches_copyPointer {source : Instance} (covers : view.Covers bits offset type.size)
    (own : blocks view.block.id) : Touches bits blocks (view.copyPointer type offset source) := by
  unfold copyPointer
  refine touches_bytes fun bytes _ => ?_
  exact (touches_writeWord covers).bind fun _ => touches_keep own

theorem touches_writeText {count : Nat} {text : String} (covers : view.Covers bits offset count) :
    Touches bits blocks (view.writeText type count offset text) := by
  unfold writeText
  dsimp only
  split
  case isTrue short =>
    have stored : view.Covers bits offset (Text.Utf8.encode text).length :=
      fun i above below lies => covers i above (by omega) lies
    refine (touches_writeBytes stored).bind fun _ => ?_
    split
    case isTrue shorter => exact touches_zero (covers.part (by omega))
    case isFalse => exact touches_of_quiet (quiet_pure _)
  case isFalse => exact touches_of_quiet (quiet_throw _)

/-! ## Writes -/

/-- Writes touch no more than some bits if the parts of what is written lie among them. -/
theorem touching {fits : CType → Nat → Prop} {fitsBits : CType → Nat → BitSlot → Prop}
    (own : blocks view.block.id)
    (covers : ∀ {type offset}, fits type offset → view.Covers bits offset type.size)
    (unit : ∀ {size offset}, fits (.stray size) offset → view.SparesUnit bits offset size)
    (spares : ∀ {type offset slot}, fitsBits type offset slot → offset + type.size ≤ view.length →
      slot.offset < 64 → ∀ (memory : Memory) word i, ¬bits i →
        (memory.storeWord (view.place offset) (Bits.unitBytes type.size)
          (Bits.replace (memory.loadWord (view.place offset) (Bits.unitBytes type.size))
            slot.offset slot.width word)).bit i = memory.bit i)
    (item : ∀ {element count offset i}, fits (.array element count) offset → i < count →
      fits element (offset + i * element.size))
    (member : ∀ {layout offset member}, fits (.composite layout) offset →
      member ∈ layout.members → MemberFits fits fitsBits offset member) :
    Assembly view view (fun operation _ => Touches bits blocks operation) fits fitsBits := by
  refine assembly_of_stores touches_of_quiet ?looking ?both ?scalar ?copied ?held ?text
    (fun _ fit => touches_writeBits (spares fit)) item member
  case looking => exact fun quiet rest => (touches_of_quiet quiet).bind rest
  case both => exact fun first rest => first.bind fun _ => rest
  case scalar =>
    exact fun _ fit => touches_writeScalar (covers fit) (fun _ same => unit (same ▸ fit)) own
  case copied => exact fun fit same => touches_copyInstance same (covers fit) own
  case held => exact fun _ fit => touches_copyPointer (covers fit) own
  case text =>
    intro element count offset text fit single
    have covered := covers fit
    rw [CType.size, single, Nat.one_mul] at covered
    exact touches_writeText covered

/-- The bits of a view, and those of one more word behind it. -/
def window (view : View) (i : Nat) : Prop :=
  8 * view.place 0 ≤ i ∧ i < 8 * (view.place view.length + 8)

/-- The storage unit of an integer reaches no further than a word behind the view. -/
theorem sparesUnit_window (view : View) (offset size : Nat) :
    view.SparesUnit view.window offset size := by
  intro inside memory word i free
  have start : view.place 0 ≤ view.place offset := by
    unfold place
    omega
  have last : view.place offset + size ≤ view.place view.length := by
    unfold place
    omega
  have unit := Spot.unitBytes_le_word size
  rw [Memory.bit_storeWord, if_neg]
  rintro ⟨above, below⟩
  exact free ⟨by omega, by omega⟩

/-- A write touches the bits of its view only. The storage unit of an integer may reach a word
further if no other integer has its size. -/
theorem touches_write (view : View) (type : CType) (offset : Nat) (value : Value) :
    Touches view.window (· = view.block.id) (view.write type offset value) := by
  have assembly : Assembly view view
      (fun operation _ => Touches view.window (· = view.block.id) operation) (fun _ _ => True)
      (fun _ _ _ => True) := by
    refine touching rfl ?covers (fun _ => view.sparesUnit_window _ _)
      (fun _ inside _ memory _ => view.sparesUnit_window _ _ inside memory _) (fun _ _ => trivial)
      fun _ _ => memberFits_true _ _
    case covers =>
      intro type offset _ i above _ lies
      have first : view.place 0 ≤ view.place offset := by
        unfold place
        omega
      exact ⟨by omega, by omega⟩
  exact assembly.write type offset value trivial

end CInterop.View
