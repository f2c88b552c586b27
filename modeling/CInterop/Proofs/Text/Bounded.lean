import CInterop.Proofs.Instance.Routes
import CInterop.Proofs.Text.Buffers

/-!
# Text that ends with its block

Narrow text is read from a block up to the first zero byte, the end of the block or a limit,
whichever comes first (`Block.EndsText`); nothing behind the block is looked at. Through a foreign
pointer the block is not known, so that only a zero byte or the limit can end the text. The two ways
find the same text wherever one of these lies in the block (`Pointer.readText_inBlock`).

The text is looked for at the address of the pointer, and a pointer that was moved before the start
of its block has none: there the sum of address and offset overflows (`Pointer.before_overflows`).
-/

namespace CInterop

namespace Memory

variable {memory other : Memory} {address limit n : Nat}

/-! ## Reading up to a zero byte -/

/-- A text of `n` bytes is ended by a zero byte or by the limit, but not before. -/
structure EndsAt (memory : Memory) (address limit n : Nat) : Prop where
  inside : n ≤ limit
  solid : ∀ i < n, memory.byte (address + i) ≠ 0
  stop : n = limit ∨ memory.byte (address + n) = 0

theorem endsAt_zero (stop : limit = 0 ∨ memory.byte address = 0) : memory.EndsAt address limit 0 :=
  ⟨Nat.zero_le _, fun _ before => absurd before (Nat.not_lt_zero _), stop.imp Eq.symm id⟩

theorem endsAt_succ_iff (nonzero : memory.byte address ≠ 0) :
    memory.EndsAt address (limit + 1) (n + 1) ↔ memory.EndsAt (address + 1) limit n := by
  have next (i : Nat) : address + (i + 1) = address + 1 + i := by omega
  constructor
  · rintro ⟨inside, solid, stop⟩
    refine ⟨Nat.le_of_succ_le_succ inside, fun i before => ?_, ?_⟩
    · exact next i ▸ solid (i + 1) (Nat.succ_lt_succ before)
    · exact stop.imp Nat.succ.inj (next n ▸ ·)
  · rintro ⟨inside, solid, stop⟩
    refine ⟨Nat.succ_le_succ inside, fun i before => ?_, stop.imp (congrArg _) (next n ▸ ·)⟩
    cases i with
    | zero => exact nonzero
    | succ i => exact next i ▸ solid i (Nat.lt_of_succ_lt_succ before)

theorem exists_endsAt (memory : Memory) (address limit : Nat) :
    ∃ n, memory.EndsAt address limit n := by
  induction limit generalizing address with
  | zero => exact ⟨0, endsAt_zero (.inl rfl)⟩
  | succ limit ih =>
    by_cases zero : memory.byte address = 0
    · exact ⟨0, endsAt_zero (.inr zero)⟩
    · obtain ⟨n, ends⟩ := ih (address + 1)
      exact ⟨n + 1, (endsAt_succ_iff zero).mpr ends⟩

/-- Text is read up to its end. -/
theorem untilZero_of_endsAt (ends : memory.EndsAt address limit n) :
    memory.untilZero limit address = memory.load address n := by
  induction limit generalizing address n with
  | zero =>
    obtain rfl := Nat.le_zero.mp ends.inside
    rfl
  | succ limit ih =>
    rw [untilZero]
    cases n with
    | zero =>
      have zero : memory.byte address = 0 := ends.stop.resolve_left (Nat.succ_ne_zero limit).symm
      rw [if_pos zero]
      rfl
    | succ n =>
      have nonzero : memory.byte address ≠ 0 := ends.solid 0 (Nat.succ_pos n)
      rw [if_neg nonzero, load_succ, ih ((endsAt_succ_iff nonzero).mp ends)]

/-- Looking for the zero byte while reading finds the same as looking for it afterwards. -/
theorem beforeZero_load (memory : Memory) (address limit : Nat) :
    (memory.load address limit).beforeZero = memory.untilZero limit address := by
  induction limit generalizing address with
  | zero => rfl
  | succ limit ih =>
    rw [load_succ, untilZero, ← ih, Bytes.beforeZero, List.takeWhile_cons]
    by_cases zero : memory.byte address = 0
    · rw [if_neg (by simp [zero]), if_pos zero]
    · rw [if_pos (bne_iff_ne.mpr zero), if_neg zero, Bytes.beforeZero]

theorem load_congr {count : Nat}
    (same : ∀ i < count, other.byte (address + i) = memory.byte (address + i)) :
    other.load address count = memory.load address count :=
  List.map_congr_left fun i mem => same i (List.mem_range.mp mem)

end Memory

/-! ## Blocks -/

/-- A block that was allocated lies ahead of the frontier, without wrapping around. -/
structure Block.Allocated (block : Block) (heap : Heap) : Prop extends block.Owned where
  inside : block.base + block.length < heap.frontier
  words : heap.frontier ≤ Word.modulus

theorem Heap.allocated_of_allocate {length : Nat} {block : Block} {heap after : Heap}
    (allocated : allocate length heap = (.ok block, after))
    (words : after.frontier ≤ Word.modulus) : block.Allocated after := by
  have owned := owned_of_allocate allocated
  have ran := allocate_run heap (le_of_allocate_eq_ok allocated)
  rw [allocated] at ran
  obtain ⟨same, rfl⟩ := Prod.mk.inj ran
  cases same
  exact ⟨owned, frontier_reserve length heap, words⟩

theorem Block.Allocated.toNat_address {block : Block} {heap : Heap}
    (allocated : block.Allocated heap) : block.address.toNat = block.base :=
  Block.toNat_address (Nat.lt_of_le_of_lt (Nat.le_add_right _ _)
    (Nat.lt_of_lt_of_le allocated.inside allocated.words))

theorem Block.Allocated.offset_fits {block : Block} {heap : Heap} {offset : Nat}
    (allocated : block.Allocated heap) (within : offset ≤ block.length) :
    block.base + offset < Word.modulus := by
  have inside := allocated.inside
  have words := allocated.words
  omega

/-- Where a text in a block ends: at the first zero byte, at the end of the block or behind as many
bytes as the limit says. -/
structure Block.EndsText (block : Block) (heap : Heap) (offset : Nat) (limit : Option Nat)
    (n : Nat) : Prop where
  inside : offset + n ≤ block.length
  bounded : ∀ most, limit = some most → n ≤ most
  solid : ∀ i < n, heap.memory.byte (block.base + offset + i) ≠ 0
  stop : offset + n = block.length ∨ limit = some n
    ∨ heap.memory.byte (block.base + offset + n) = 0

/-- How many bytes from an offset on belong to the block, or fewer if there is a limit. -/
def Block.textLimit (block : Block) (offset : Nat) (limit : Option Nat) : Nat :=
  min (limit.getD (block.length - offset)) (block.length - offset)

theorem Block.add_textLimit_le {block : Block} {offset : Nat} (within : offset ≤ block.length)
    (limit : Option Nat) : offset + block.textLimit offset limit ≤ block.length := by
  have fewer : block.textLimit offset limit ≤ block.length - offset := Nat.min_le_right _ _
  omega

namespace Pointer

variable {heap : Heap} {block : Block} {p : Pointer} {offset : UInt64} {limit : Option Nat}
  {n : Nat}

/-- The end of the block is one more limit. -/
theorem endsText_of_endsAt {start : Nat} (within : start ≤ block.length)
    (ends : heap.memory.EndsAt (block.base + start) (block.textLimit start limit) n) :
    block.EndsText heap start limit n := by
  obtain ⟨inside, solid, stop⟩ := ends
  have fits := block.add_textLimit_le within limit
  refine ⟨by omega, ?_, solid, ?_⟩
  · rintro most rfl
    exact Nat.le_trans inside (Nat.min_le_left _ _)
  · rcases stop with last | zero
    · unfold Block.textLimit at last
      cases limit with
      | none => exact .inl (by rw [Option.getD_none, Nat.min_self] at last; omega)
      | some most =>
        rw [Option.getD_some] at last
        rcases Nat.le_total most (block.length - start) with fewer | more
        · exact .inr (.inl (congrArg some (last.trans (Nat.min_eq_left fewer)).symm))
        · exact .inl (by omega)
    · exact .inr (.inr zero)

theorem address_of_fits (place : p.place = .inBlock block offset)
    (base : block.address.toNat = block.base) (fits : block.base + offset.toNat < Word.modulus) :
    p.address = .ok (.ofNat (block.base + offset.toNat)) := by
  rw [Pointer.address, place, Place.address, base, Word.sum_of_lt fits]
  rfl

theorem address_of_overflows (place : p.place = .inBlock block offset)
    (base : block.address.toNat = block.base) (large : Word.modulus ≤ block.base + offset.toNat) :
    p.address = .error (.overflow "add") := by
  rw [Pointer.address, place, Place.address, base, Word.sum_of_le large]
  rfl

/-- The text is looked for at the offset of the pointer, once the address is known. -/
theorem readText_of_fits (place : p.place = .inBlock block offset)
    (base : block.address.toNat = block.base) (fits : block.base + offset.toNat < Word.modulus)
    (heap : Heap) (limit : Option Nat) :
    p.readText heap limit = (do
      let bytes ← block.view.readBytes heap offset.toNat (block.textLimit offset.toNat limit)
      pure (Text.Utf8.decode bytes.beforeZero)) := by
  have start : (UInt64.ofNat (block.base + offset.toNat)).toNat - block.base = offset.toNat := by
    rw [UInt64.toNat_ofNat_of_lt' fits, Nat.add_sub_cancel_left]
  rw [readText, address_of_fits place base fits, place]
  show (do
    let bytes ← block.view.readBytes heap
      ((UInt64.ofNat (block.base + offset.toNat)).toNat - block.address.toNat) _
    pure (Text.Utf8.decode bytes.beforeZero)) = _
  rw [base, start]
  rfl

theorem readText_of_overflows (place : p.place = .inBlock block offset)
    (base : block.address.toNat = block.base) (large : Word.modulus ≤ block.base + offset.toNat)
    (heap : Heap) (limit : Option Nat) : p.readText heap limit = .error (.overflow "add") := by
  rw [readText, address_of_overflows place base large, place]
  rfl

theorem readText_of_within (place : p.place = .inBlock block offset)
    (allocated : block.Allocated heap) (within : offset.toNat ≤ block.length) (other : Heap)
    (limit : Option Nat) :
    p.readText other limit = .ok (Text.Utf8.decode (other.memory.untilZero
      (block.textLimit offset.toNat limit) (block.base + offset.toNat))) := by
  have inside : offset.toNat + block.textLimit offset.toNat limit ≤ block.view.length :=
    block.add_textLimit_le within limit
  rw [readText_of_fits place allocated.toNat_address (allocated.offset_fits within)]
  simp only [View.readBytes, View.locate, if_pos inside]
  rw [← Memory.beforeZero_load]
  rfl

/-- A text in a block has an end, up to which it is read. -/
theorem exists_readText (place : p.place = .inBlock block offset)
    (allocated : block.Allocated heap) (within : offset.toNat ≤ block.length)
    (limit : Option Nat) :
    ∃ n, block.EndsText heap offset.toNat limit n ∧ p.readText heap limit
      = .ok (Text.Utf8.decode (heap.memory.load (block.base + offset.toNat) n)) := by
  obtain ⟨n, ends⟩ := heap.memory.exists_endsAt (block.base + offset.toNat)
    (block.textLimit offset.toNat limit)
  refine ⟨n, endsText_of_endsAt within ends, ?_⟩
  rw [readText_of_within place allocated within, Memory.untilZero_of_endsAt ends]

theorem readText_of_beyond (place : p.place = .inBlock block offset)
    (base : block.address.toNat = block.base) (beyond : block.length < offset.toNat)
    (fits : block.base + offset.toNat < Word.modulus) (heap : Heap) (limit : Option Nat) :
    p.readText heap limit
      = .error (.outOfBounds "read" (Word.signed offset.toNat) 0 block.length) := by
  have none : block.textLimit offset.toNat limit = 0 := by
    rw [Block.textLimit, Nat.sub_eq_zero_of_le (Nat.le_of_lt beyond), Nat.min_zero]
  have leaves : ¬ offset.toNat + 0 ≤ block.view.length := by
    show ¬ _ ≤ block.length
    omega
  rw [readText_of_fits place base fits]
  simp only [none, View.readBytes, View.locate, if_neg leaves]
  rfl

/-- The limit that a reader of foreign memory knows. -/
def foreignLimit (heap : Heap) (address : UInt64) (limit : Option Nat) : Nat :=
  limit.getD (heap.frontier - address.toNat)

theorem readText_of_foreign {q : Pointer} {address : UInt64} (place : q.place = .foreign address)
    (granted : q.granted = true) (heap : Heap) (limit : Option Nat) :
    q.readText heap limit = .ok (Text.Utf8.decode
      (heap.memory.untilZero (foreignLimit heap address limit) address.toNat)) := by
  rw [readText, place]
  simp only [granted, if_true]
  cases limit <;> rfl

/-- A text that a zero byte or the limit ends in its block ends there for a reader that does not
know the block. -/
theorem endsAt_of_endsText {start : Nat} {address : UInt64}
    (lies : address.toNat = block.base + start)
    (room : block.base + block.length ≤ heap.frontier) (ends : block.EndsText heap start limit n)
    (ended : (∃ i, start ≤ i ∧ i < block.length ∧ heap.memory.byte (block.base + i) = 0)
      ∨ ∃ most, limit = some most ∧ start + most ≤ block.length) :
    heap.memory.EndsAt address.toNat (foreignLimit heap address limit) n := by
  obtain ⟨inside, bounded, solid, stop⟩ := ends
  rw [lies]
  refine ⟨?_, solid, ?_⟩
  · cases limit with
    | none =>
      show n ≤ heap.frontier - address.toNat
      omega
    | some most => exact bounded most rfl
  · rcases stop with whole | rfl | zero
    · rcases ended with ⟨i, behind, before, zero⟩ | ⟨most, rfl, fits⟩
      · have nonzero := solid (i - start) (by omega)
        rw [show block.base + start + (i - start) = block.base + i by omega] at nonzero
        exact absurd zero nonzero
      · have fewer := bounded most rfl
        exact .inl (show n = most by omega)
    · exact .inl rfl
    · exact .inr zero

/-- How text is read through a pointer into a block. -/
structure ReadsText (p : Pointer) (block : Block) (start : Nat) (heap : Heap) (limit : Option Nat) :
    Prop where
  /-- In the block and at its end the pointer has an address. -/
  located : start ≤ block.length → p.address = .ok (.ofNat (block.base + start))
  /-- The text ends where it should. -/
  found : start ≤ block.length → ∃ n, block.EndsText heap start limit n
    ∧ p.readText heap limit
      = .ok (Text.Utf8.decode (heap.memory.load (block.base + start) n))
  /-- Only the bytes from the pointer to the end of the block matter. -/
  confined : ∀ other : Heap, (∀ i, start ≤ i → i < block.length →
      other.memory.byte (block.base + i) = heap.memory.byte (block.base + i)) →
    p.readText other limit = p.readText heap limit
  /-- A foreign pointer finds the same text if a zero byte or the limit ends it in the block. -/
  foreign : start ≤ block.length → ∀ (q : Pointer) (address : UInt64), p.address = .ok address →
    q.place = .foreign address → q.granted = true →
    ((∃ i, start ≤ i ∧ i < block.length ∧ heap.memory.byte (block.base + i) = 0)
      ∨ ∃ most, limit = some most ∧ start + most ≤ block.length) →
    q.readText heap limit = p.readText heap limit
  /-- Past the end of the block nothing is read. -/
  outside : block.length < start → block.base + start < Word.modulus →
    p.readText heap limit = .error (.outOfBounds "read" (Word.signed start) 0 block.length)
  /-- A pointer without an address reads nothing either. -/
  overflows : Word.modulus ≤ block.base + start → p.readText heap limit = .error (.overflow "add")

/-- Text is read through a pointer into an allocated block from the address that the pointer holds,
as far as the block goes. -/
theorem readText_inBlock (allocated : block.Allocated heap)
    (place : p.place = .inBlock block offset) (limit : Option Nat) :
    p.ReadsText block offset.toNat heap limit := by
  have base : block.address.toNat = block.base := allocated.toNat_address
  have located (within : offset.toNat ≤ block.length) :
      p.address = .ok (.ofNat (block.base + offset.toNat)) :=
    address_of_fits place base (allocated.offset_fits within)
  refine ⟨located, ?found, ?confined, ?foreign, ?outside, ?overflows⟩
  case found => exact fun within => exists_readText place allocated within limit
  case confined =>
    intro other same
    by_cases within : offset.toNat ≤ block.length
    · have inside := block.add_textLimit_le within limit
      rw [readText_of_within place allocated within, readText_of_within place allocated within,
        ← Memory.beforeZero_load, ← Memory.beforeZero_load, Memory.load_congr fun i before => ?_]
      rw [Nat.add_assoc]
      exact same _ (Nat.le_add_right _ _) (by omega)
    · rcases Nat.lt_or_ge (block.base + offset.toNat) Word.modulus with fits | large
      · rw [readText_of_beyond place base (by omega) fits,
          readText_of_beyond place base (by omega) fits]
      · rw [readText_of_overflows place base large, readText_of_overflows place base large]
  case foreign =>
    intro within q address found foreign granted ended
    have lies : address.toNat = block.base + offset.toNat := by
      rw [← Except.ok.inj ((located within).symm.trans found)]
      exact UInt64.toNat_ofNat_of_lt' (allocated.offset_fits within)
    obtain ⟨n, ends, found⟩ := exists_readText place allocated within limit
    have same := endsAt_of_endsText lies (Nat.le_of_lt allocated.inside) ends ended
    rw [readText_of_foreign foreign granted, Memory.untilZero_of_endsAt same, lies, found]
  case outside => exact fun beyond fits => readText_of_beyond place base beyond fits heap limit
  case overflows => exact fun large => readText_of_overflows place base large heap limit

/-- A block of four bytes. -/
def lettersBlock : Block := ⟨0, 0x10000000000, 4, false⟩

/-- A heap in which the block was allocated and filled: a letter, a zero byte and two letters. -/
def lettersHeap : Heap :=
  { (Heap.reserve 4 .empty).2 with
    nextId := 1, memory := Memory.blank.store 0x10000000000 [0x61, 0, 0x62, 0x63] }

/-- A pointer into the block. -/
def lettersAt (offset : UInt64) : Pointer := inBlock TextBuffer.char lettersBlock offset

/-- Text that a zero byte ends, text that the end of the block ends, and none behind the block or in
front of it. -/
theorem readText_letters :
    lettersBlock.Allocated lettersHeap
      ∧ (lettersAt 0).readText lettersHeap none = .ok "a"
      ∧ (foreign TextBuffer.char 0x10000000000).grant.readText lettersHeap none = .ok "a"
      ∧ (lettersAt 2).readText lettersHeap none = .ok "bc"
      ∧ (lettersAt 2).readText lettersHeap (some 1) = .ok "b"
      ∧ (lettersAt 5).readText lettersHeap none = .error (.outOfBounds "read" 5 0 4)
      ∧ (lettersAt (-1)).readText lettersHeap none = .error (.overflow "add") := by
  have fresh := Heap.allocated_of_allocate
    (rfl : Heap.allocate 4 .empty = (.ok lettersBlock, _)) (by decide)
  have allocated : lettersBlock.Allocated lettersHeap :=
    ⟨fresh.toOwned, fresh.inside, fresh.words⟩
  have reads (offset : UInt64) : (lettersAt offset).ReadsText lettersBlock offset.toNat lettersHeap
      none := readText_inBlock allocated rfl none
  have first : (lettersAt 0).readText lettersHeap none = .ok "a" := by decide
  have same := (reads 0).foreign (by decide) (foreign TextBuffer.char 0x10000000000).grant
    0x10000000000 (by decide) (by decide) rfl (.inl ⟨1, by decide, by decide, by decide⟩)
  have outside := (reads 5).outside (by decide) (by decide)
  have overflows := (reads (-1)).overflows (by decide)
  exact ⟨allocated, first, same.trans first, by decide, by decide, outside, overflows⟩

/-- A pointer that was moved from the start of the block to the byte before it reads no text, but
not because it is out of bounds: the sum of address and offset overflows. -/
theorem before_overflows :
    ((lettersAt 0).offset (-1)).place = .inBlock lettersBlock (-1)
      ∧ ((lettersAt 0).offset (-1)).readText lettersHeap none = .error (.overflow "add") :=
  ⟨by decide, by decide⟩

end Pointer

end CInterop
