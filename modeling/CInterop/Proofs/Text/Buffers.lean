import CInterop.Proofs.Instance.Bounds
import CInterop.Proofs.Text.Stored
import CInterop.Proofs.View.Confined

/-!
# Buffers of text

A text buffer is an array on fresh memory that a text is stored in. Free memory is zero
(`Heap.Blank`), so that the text is followed by zeros as far as the buffer goes, and is read back up
to the first of them (`TextBuffer.exists_ofBytes`, `TextBuffer.exists_ofText`). A buffer that is
refused leaves the heap as it was.
-/

namespace CInterop

open HeapM Heap

/-! ## Fresh memory -/

/-- Memory that was not handed out yet is zero. -/
def Heap.Blank (heap : Heap) : Prop :=
  ∀ address, heap.frontier ≤ address → heap.memory.byte address = 0

theorem Heap.blank_empty : Heap.empty.Blank := fun _ _ => rfl

/-- Free memory stays zero when nothing but what was handed out is changed. -/
theorem Heap.Blank.of_changed {heap after : Heap} {bits blocks : Nat → Prop} (blank : heap.Blank)
    (changed : ChangedOnly bits blocks heap after) (below : ∀ i, bits i → i < 8 * after.frontier) :
    after.Blank := by
  intro address free
  have grown := changed.frontier
  rw [changed.byte (fun i _ touched => by have := below _ touched; omega) (.inr free)]
  exact blank address (by omega)

/-- Bytes that were stored on free memory are followed by zeros. -/
theorem Heap.Blank.load_store {heap : Heap} (blank : heap.Blank) {bytes : Bytes} {count : Nat}
    (inside : bytes.length ≤ count) :
    (heap.memory.store heap.frontier bytes).load heap.frontier count = bytes.padded count := by
  obtain ⟨more, rfl⟩ := Nat.exists_eq_add_of_le inside
  have behind : (heap.memory.store heap.frontier bytes).load (heap.frontier + bytes.length) more
      = Bytes.zeros more := by
    rw [Memory.load_store_of_behind _ (Nat.le_refl _)]
    refine List.eq_replicate_iff.mpr ⟨Memory.length_load .., fun byte mem => ?_⟩
    obtain ⟨i, -, rfl⟩ := List.mem_map.mp mem
    exact blank _ (by omega)
  rw [Memory.load_add, Memory.load_store, behind, Bytes.padded, Nat.add_sub_cancel_left]

theorem Heap.allocate_error {length : Nat} (large : largestBlock < length) (heap : Heap) :
    ∃ failure, allocate length heap = (.error failure, heap) := by
  refine ⟨.outOfBounds "allocate_block" 0 length 0x7FFFFFFFFFFFFFFF, ?_⟩
  unfold allocate
  rw [if_pos large]
  rfl

/-! ## Zeros in texts and behind them -/

theorem Bytes.beforeZero_padded {bytes : Bytes} {count : Nat} (solid : 0 ∉ bytes) :
    (bytes.padded count).beforeZero = bytes := by
  have whole : bytes.takeWhile (· != 0) = bytes :=
    List.takeWhile_eq_self_iff.mpr fun byte mem => bne_iff_ne.mpr fun zero => solid (zero ▸ mem)
  rw [beforeZero, padded, List.takeWhile_append, whole, if_pos rfl, zeros]
  simp

theorem Text.Utf8.zero_mem_encode_iff {text : String} :
    0 ∈ encode text ↔ '\x00' ∈ text.toList := by
  constructor
  · exact fun mem => Classical.not_not.mp fun solid => zero_notMem_encode solid mem
  · exact fun mem => List.mem_flatMap.mpr ⟨_, mem, List.mem_singleton_self _⟩

namespace Text.Wide

theorem flatMap_zeros {size : Nat} (word : size = 2 ∨ size = 4) (count : Nat) :
    (List.replicate count 0).flatMap (unitBytes size) = Bytes.zeros (size * count) := by
  have unit : unitBytes size 0 = Bytes.zeros size := by rcases word with rfl | rfl <;> rfl
  induction count with
  | zero => rfl
  | succ count ih =>
    rw [List.replicate_succ, List.flatMap_cons, ih, unit, Bytes.zeros, Bytes.zeros,
      List.replicate_append_replicate, Nat.mul_succ, Nat.add_comm]
    rfl

/-- What an array of wide characters holds of a text: all its units, and zeros behind them. -/
theorem padded_take_encode {size count : Nat} {text : String} (word : size = 2 ∨ size = 4)
    (enough : (units size text).length ≤ count) :
    Bytes.padded (size * count) ((encode size text).take (size * count))
      = (units size text ++ List.replicate (count - (units size text).length) 0).flatMap
          (unitBytes size) := by
  have whole := length_flatMap word (units size text)
  obtain ⟨more, rfl⟩ := Nat.exists_eq_add_of_le enough
  rw [Nat.add_sub_cancel_left, List.flatMap_append, flatMap_zeros word]
  cases more with
  | zero =>
    -- There is no room for the terminator.
    rw [encode, List.flatMap_append, Nat.add_zero, List.take_left' whole, Bytes.padded, whole,
      Nat.sub_self, Nat.mul_zero]
  | succ more =>
    have room : (encode size text).length ≤ size * ((units size text).length + (more + 1)) := by
      rw [length_encode word]
      exact Nat.mul_le_mul_left _ (by omega)
    have rest : size * ((units size text).length + (more + 1)) - (encode size text).length
        = size * more := by
      rw [length_encode word, ← Nat.mul_sub]
      congr 1
      omega
    have last : [0].flatMap (unitBytes size) = Bytes.zeros size := by
      simpa using flatMap_zeros word 1
    rw [List.take_of_length_le room, Bytes.padded, rest, encode, List.flatMap_append,
      List.append_assoc, last, Bytes.zeros, Bytes.zeros, List.replicate_append_replicate,
      Nat.mul_succ, Nat.add_comm]
    rfl

end Text.Wide

/-! ## Buffers -/

namespace TextBuffer

/-- A fresh array that bytes are stored in, which may depend on how many it has. -/
def filled (element : CType) (count : Nat) (content : Nat → Bytes) : HeapM Instance := do
  let buffer ← Instance.create (← liftM (Registry.array element count))
  (← liftM buffer.view).writeBytes 0 (content buffer.type.size)
  pure buffer

section Filled

variable {element : CType} {count : Nat} {heap : Heap} {bytes : Bytes}

/-- Bytes are stored at the start of an instance. -/
theorem fill_run {x : Instance} (within : x.Inside) (room : bytes.length ≤ x.type.size) :
    (do
      (← liftM x.view).writeBytes 0 bytes
      pure x : HeapM Instance) heap
      = (.ok x, { heap with memory := heap.memory.store (x.block.base + x.offset) bytes }) := by
  have inside : 0 + bytes.length ≤ (⟨x.block, x.offset, x.type.size⟩ : View).length :=
    (Nat.zero_add _).symm ▸ room
  have stored : View.writeBytes ⟨x.block, x.offset, x.type.size⟩ 0 bytes heap = (.ok (), _) :=
    bind_of_ok (View.target_of_le inside)
  refine (bind_of_ok (lift_eq_ok.mpr ⟨Instance.view_of_inside within, rfl⟩)).trans ?_
  exact bind_of_ok stored

/-- A fresh array holds the bytes that were stored in it, and zeros behind them. -/
theorem exists_filled (content : Nat → Bytes) (present : element.isVoid = false)
    (blank : heap.Blank) (fits : element.size * count ≤ largestBlock)
    (inside : (content (element.size * count)).length ≤ element.size * count) :
    ∃ buffer after, filled element count content heap = (.ok buffer, after)
      ∧ buffer.type = .array element count
      ∧ buffer.bytes after
        = .ok ((content (element.size * count)).padded (element.size * count)) := by
  let buffer : Instance :=
    ⟨.array element count, ⟨heap.nextId, heap.frontier, element.size * count, false⟩, 0⟩
  have within : buffer.Inside := Nat.le_of_eq (Nat.zero_add _)
  have sized : Registry.array element count = .ok (.array element count) := by
    have word : largestBlock < Word.modulus := by decide
    rw [Registry.array, present, if_neg Bool.false_ne_true,
      if_pos (Nat.lt_of_le_of_lt fits word)]
    rfl
  have created : Instance.create (.array element count) heap
      = (.ok buffer,
        { (reserve (element.size * count) heap).2 with nextId := heap.nextId + 1 }) :=
    bind_of_ok (allocate_run heap fits)
  have ran : filled element count content heap = (.ok buffer, _) :=
    (bind_of_ok (lift_eq_ok.mpr ⟨sized, rfl⟩)).trans
      ((bind_of_ok created).trans (fill_run within inside))
  refine ⟨buffer, _, ran, rfl, ?_⟩
  rw [Instance.bytes_of_inside within]
  exact congrArg Except.ok (blank.load_store inside)

theorem filled_error (element : CType) (large : largestBlock < element.size * count)
    (content : Nat → Bytes) (heap : Heap) :
    ∃ failure, filled element count content heap = (.error failure, heap) := by
  unfold filled Registry.array
  split
  case isTrue => exact ⟨_, rfl⟩
  case isFalse =>
    split
    case isTrue =>
      obtain ⟨failure, failed⟩ := allocate_error large heap
      have uncreated : Instance.create (.array element count) heap = (.error failure, heap) := by
        show (allocate (element.size * count) >>= _) heap = _
        rw [bind_run, failed]
      refine ⟨failure, (bind_of_ok (lift_eq_ok.mpr ⟨rfl, rfl⟩)).trans ?_⟩
      rw [bind_run, uncreated]
    case isFalse => exact ⟨_, rfl⟩

theorem text_of_bytes {buffer : Instance} (kind : buffer.type = .array element count)
    (read : buffer.bytes heap = .ok bytes) :
    text heap buffer
      = .ok (if 1 < element.size then Text.Wide.decode element.size bytes
        else Text.Utf8.decode bytes.beforeZero) := by
  rw [text, read, kind]
  rfl

end Filled

/-! ## Narrow text -/

section Narrow

variable {s : String} {heap : Heap}

/-- The type of narrow characters. -/
def char : CType := .natural "int8" .w8 true

theorem size_char (count : Nat) : char.size * count = count := Nat.one_mul count

theorem ofBytes_eq (registry : Registry) (bytes : Bytes) :
    ofBytes registry bytes =
      if bytes.contains 0 then throw (.invalidString .zeroInInitializer)
      else filled char (bytes.length + 1) fun _ => bytes := by
  have sized : ofSize registry (bytes.length + 1)
      = (do Instance.create (← liftM (Registry.array char (bytes.length + 1)))) := rfl
  unfold ofBytes
  split
  case isTrue => rfl
  case isFalse =>
    show (ofSize registry (bytes.length + 1) >>= _) = _
    rw [sized, bind_assoc]
    rfl

theorem ofBytes_of_solid (solid : '\x00' ∉ s.toList) (registry : Registry) :
    ofBytes registry (Text.Utf8.encode s)
      = filled char ((Text.Utf8.encode s).length + 1) fun _ => Text.Utf8.encode s := by
  have clear : ¬ (Text.Utf8.encode s).contains 0 = true := by
    simpa using Text.Utf8.zero_notMem_encode solid
  rw [ofBytes_eq, if_neg clear]

/-- A narrow text without zero characters is read back from its buffer. -/
theorem exists_ofBytes (blank : heap.Blank) (solid : '\x00' ∉ s.toList)
    (fits : (Text.Utf8.encode s).length + 1 ≤ largestBlock) (registry : Registry) :
    ∃ buffer after, ofBytes registry (Text.Utf8.encode s) heap = (.ok buffer, after)
      ∧ text after buffer = .ok s := by
  rw [ofBytes_of_solid solid]
  rw [← size_char ((Text.Utf8.encode s).length + 1)] at fits
  obtain ⟨buffer, after, ran, kind, read⟩ := exists_filled
    (fun _ => Text.Utf8.encode s) rfl blank fits
    (size_char _ ▸ Nat.le_succ (Text.Utf8.encode s).length)
  refine ⟨buffer, after, ran, (text_of_bytes kind read).trans ?_⟩
  rw [Bytes.beforeZero_padded (Text.Utf8.zero_notMem_encode solid), Text.Utf8.decode_encode]
  rfl

/-- A text is refused for a zero character, or else for its length. -/
theorem ofBytes_error (refused : ¬('\x00' ∉ s.toList
      ∧ (Text.Utf8.encode s).length + 1 ≤ largestBlock)) (registry : Registry) (heap : Heap) :
    ∃ failure, ofBytes registry (Text.Utf8.encode s) heap = (.error failure, heap)
      ∧ ('\x00' ∈ s.toList → ∃ fault, failure = .invalidString fault) := by
  by_cases zero : '\x00' ∈ s.toList
  · have held : (Text.Utf8.encode s).contains 0 = true := by
      simpa using Text.Utf8.zero_mem_encode_iff.mpr zero
    rw [ofBytes_eq, if_pos held]
    exact ⟨_, rfl, fun _ => ⟨_, rfl⟩⟩
  · have large := Nat.not_le.mp fun fits => refused ⟨zero, fits⟩
    rw [← size_char ((Text.Utf8.encode s).length + 1)] at large
    obtain ⟨failure, failed⟩ := filled_error char large (fun _ => Text.Utf8.encode s) heap
    rw [ofBytes_of_solid zero]
    exact ⟨failure, failed, fun mem => absurd mem zero⟩

end Narrow

/-! ## Wide text -/

section Wide

variable {registry : Registry} {s : String} {size : Option Nat} {heap : Heap}

/-- The type of the wide characters of a platform. -/
def wchar (registry : Registry) : CType := .wide registry.platform.wchar

theorem size_wchar (registry : Registry) : (wchar registry).size = registry.platform.wchar :=
  CType.size_wide _

theorem isVoid_wchar (registry : Registry) : (wchar registry).isVoid = false := by
  unfold wchar
  rcases CType.wide_cases registry.platform.wchar with ⟨width, -, wide⟩ | stray
  · rw [wide]
    rfl
  · rw [stray]
    rfl

/-- The number of characters of a wide buffer. -/
def wideCount (registry : Registry) (s : String) (size : Option Nat) : Nat :=
  size.getD ((Text.Wide.units registry.platform.wchar s).length + 1)

/-- A wide buffer has room for a text. The terminator may be missing. -/
structure HasRoom (registry : Registry) (s : String) (size : Option Nat) : Prop where
  enough : (Text.Wide.units registry.platform.wchar s).length ≤ wideCount registry s size
  fits : registry.platform.wchar * wideCount registry s size ≤ largestBlock

theorem ofText_eq (wide : Text.Wide.IsUnit registry.platform.wchar) (s : String)
    (size : Option Nat) :
    let length := (Text.Wide.units registry.platform.wchar s).length
    let count := wideCount registry s size
    ofText registry s size =
      if count < length then
        throw (.typeMismatch "create_unicode_buffer" s!"wchar_t[{count}]"
          s!"string of {length} characters")
      else filled (wchar registry) count
        (Text.Wide.encode registry.platform.wchar s).take := by
  intro length count
  have described : registry.describe .wchar = pure (wchar registry) := rfl
  have needed : Word.quotient (Text.Wide.encode registry.platform.wchar s).length
      registry.platform.wchar = pure (length + 1) := by
    unfold Word.quotient
    rw [if_neg (Nat.ne_of_gt wide.pos), Text.Wide.length_encode wide,
      Nat.mul_div_cancel_left _ wide.pos]
  have shorter : Word.difference (length + 1) 1 = pure length := if_pos (Nat.le_add_left 1 length)
  simp only [ofText, described, size_wchar, needed, shorter, liftM_pure, pure_bind]
  show (if count < length then _ else _) = _
  split <;> rfl

/-- A wide text is read back from its buffer up to the first zero character. -/
theorem exists_ofText (blank : heap.Blank) (wide : Text.Wide.IsUnit registry.platform.wchar)
    (room : HasRoom registry s size) :
    ∃ buffer after, ofText registry s size heap = (.ok buffer, after)
      ∧ text after buffer = .ok (Text.Wide.beforeNul s) := by
  rw [ofText_eq wide, if_neg (Nat.not_lt.mpr room.enough)]
  obtain ⟨buffer, after, ran, kind, read⟩ := exists_filled
    (Text.Wide.encode registry.platform.wchar s).take
    (isVoid_wchar registry) blank (size_wchar registry ▸ room.fits) (List.length_take_le _ _)
  have several : 1 < (wchar registry).size := by
    rw [size_wchar]
    rcases wide with two | four <;> omega
  refine ⟨buffer, after, ran, (text_of_bytes kind read).trans ?_⟩
  rw [if_pos several]
  rw [size_wchar]
  exact congrArg Except.ok ((congrArg _ (Text.Wide.padded_take_encode wide room.enough)).trans
    (Text.Wide.decode_padded wide s _))

theorem ofText_error (wide : Text.Wide.IsUnit registry.platform.wchar)
    (refused : ¬ HasRoom registry s size) (heap : Heap) :
    ∃ failure, ofText registry s size heap = (.error failure, heap) := by
  rw [ofText_eq wide]
  split
  case isTrue => exact ⟨_, rfl⟩
  case isFalse enough =>
    have large := Nat.not_le.mp fun fits => refused ⟨Nat.not_lt.mp enough, fits⟩
    exact filled_error (wchar registry) ((size_wchar registry).symm ▸ large) _ heap

end Wide

end TextBuffer

end CInterop
