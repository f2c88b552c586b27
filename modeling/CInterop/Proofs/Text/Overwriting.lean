import CInterop.Proofs.Text.Bounded

/-!
# Overwriting text

A text that is written to an array of bytes ends at a zero byte where there is room for one, and
with the array where there is none. A reader stops at both, so that the text is read back whole,
whatever the array held before, and what lies behind its end is not looked at and not changed
(`Instance.setValue_text`). A text of too many bytes is refused before anything is stored.
-/

namespace CInterop

open HeapM

theorem Text.Utf8.length_encode (text : String) : (encode text).length = text.utf8ByteSize := by
  rw [String.utf8ByteSize, ← String.utf8Encode_toList, List.utf8Encode, List.size_toByteArray]
  rfl

namespace Memory

/-- Memory after a text was stored in an array of `count` bytes, with a zero byte behind it where
there is room for one. -/
def overwrite (memory : Memory) (address count : Nat) (bytes : Bytes) : Memory :=
  if bytes.length < count then (memory.store address bytes).fill (address + bytes.length) 1 0
  else memory.store address bytes

variable {memory : Memory} {address count other : Nat} {bytes : Bytes}

/-- The terminator is stored behind the text. -/
theorem overwrite_of_lt (room : bytes.length < count) :
    memory.overwrite address count bytes = (memory.store address bytes).store
      (address + bytes.length) [0] := by
  rw [overwrite, if_pos room, fill_eq_store]
  rfl

theorem overwrite_of_le (full : count ≤ bytes.length) :
    memory.overwrite address count bytes = memory.store address bytes := by
  rw [overwrite, if_neg (Nat.not_lt.mpr full)]

/-- Only the bytes of the text and of its terminator are changed. -/
theorem byte_overwrite_of_outside (short : bytes.length ≤ count)
    (outside : other < address ∨ address + min (bytes.length + 1) count ≤ other) :
    (memory.overwrite address count bytes).byte other = memory.byte other := by
  have beside : other < address ∨ address + bytes.length ≤ other := by omega
  by_cases room : bytes.length < count
  · have behind : other < address + bytes.length
        ∨ address + bytes.length + [(0 : UInt8)].length ≤ other := by
      rw [List.length_singleton]
      omega
    rw [overwrite_of_lt room, byte_store_of_outside _ behind, byte_store_of_outside _ beside]
  · rw [overwrite_of_le (Nat.not_lt.mp room), byte_store_of_outside _ beside]

theorem byte_overwrite {i : Nat} (inside : i < bytes.length) :
    (memory.overwrite address count bytes).byte (address + i) = bytes[i] := by
  by_cases room : bytes.length < count
  · rw [overwrite_of_lt room, byte_store_of_outside _ (.inl (Nat.add_lt_add_left inside address)),
      byte_store_of_inside _ inside]
  · rw [overwrite_of_le (Nat.not_lt.mp room), byte_store_of_inside _ inside]

theorem load_overwrite :
    (memory.overwrite address count bytes).load address bytes.length = bytes := by
  refine List.ext_getElem (length_load ..) fun i _ inside => ?_
  simpa [load] using byte_overwrite inside

/-- The text ends where it was made to end, at its terminator or with the array. -/
theorem endsAt_overwrite (short : bytes.length ≤ count) (solid : 0 ∉ bytes) :
    (memory.overwrite address count bytes).EndsAt address count bytes.length := by
  refine ⟨short, fun i inside => ?_, ?_⟩
  · rw [byte_overwrite inside]
    exact fun zero => solid (zero ▸ List.getElem_mem inside)
  · rcases Nat.lt_or_eq_of_le short with room | full
    · refine .inr ?_
      rw [overwrite_of_lt room]
      have inside : 0 < [(0 : UInt8)].length := Nat.one_pos
      exact byte_store_of_inside _ inside
    · exact .inl full

end Memory

/-- A heap after a text was stored in an array of `count` bytes. -/
def Heap.overwrite (heap : Heap) (address count : Nat) (s : String) : Heap :=
  { heap with memory := heap.memory.overwrite address count (Text.Utf8.encode s) }

/-! ## Arrays of bytes -/

section

variable {element : CType} {count : Nat} {s : String}

theorem CType.size_array_of_narrow (narrow : element.size = 1) :
    (CType.array element count).size = count := by
  show element.size * count = count
  rw [narrow, Nat.one_mul]

/-- The failure of a text that has more bytes than an array. -/
def Failure.tooManyBytes (type : CType) (s : String) : Failure :=
  .typeMismatch "write" type.name s!"string of {s.utf8ByteSize} bytes"

/-- A text is stored in an array of bytes that has room for it, and refused by any other. -/
theorem View.write_text_run {view : View} {offset : Nat} (narrow : element.size = 1)
    (integral : element.isIntegral = true) (inside : offset + count ≤ view.length) (heap : Heap) :
    view.write (.array element count) offset (.text s) heap =
      if s.utf8ByteSize ≤ count then (.ok (), heap.overwrite (view.place offset) count s)
      else (.error (.tooManyBytes (.array element count) s), heap) := by
  have located : view.target offset (CType.array element count).size heap
      = (.ok (view.place offset), heap) :=
    target_of_le ((CType.size_array_of_narrow narrow).symm ▸ inside)
  have written : view.write (.array element count) offset (.text s) heap
      = view.writeText (.array element count) count offset s heap := by
    have kinds : (element.size = 1 && element.isIntegral : Bool) = true := by
      rw [decide_eq_true narrow, integral]
      rfl
    show (view.target offset _ >>= fun _ => _) heap = _
    rw [bind_of_ok located]
    simp only [kinds, if_true]
  rw [written, writeText, ← Text.Utf8.length_encode]
  split
  case isFalse =>
    rw [Failure.tooManyBytes, ← Text.Utf8.length_encode]
    rfl
  case isTrue short =>
    have stored : view.writeBytes offset (Text.Utf8.encode s) heap = (.ok (), _) :=
      bind_of_ok (target_of_le (Nat.le_trans (Nat.add_le_add_left short offset) inside))
    rw [bind_of_ok stored, Heap.overwrite, Memory.overwrite]
    split
    case isFalse => rfl
    case isTrue room =>
      have ended : offset + (Text.Utf8.encode s).length + 1 ≤ view.length := by omega
      refine (bind_of_ok (target_of_le ended)).trans ?_
      rw [place_add]
      rfl

/-- What comes of writing a text to an array of bytes. -/
structure Instance.Overwritten (x : Instance) (count : Nat) (s : String) (heap : Heap)
    (outcome : Except Failure Unit × Heap) : Prop where
  /-- A text is accepted if it has no more bytes than the array, with or without a terminator. -/
  accepted : outcome.1 = .ok () ↔ s.utf8ByteSize ≤ count
  /-- What is read back is the text. -/
  read : outcome.1 = .ok () → TextBuffer.text outcome.2 x = .ok s
  /-- The bytes behind the terminator are as before. -/
  tail : outcome.1 = .ok () → ∀ i, s.utf8ByteSize < i → i < count →
    outcome.2.memory.byte (x.block.base + x.offset + i)
      = heap.memory.byte (x.block.base + x.offset + i)
  /-- So are all bytes outside of the array, and all else that the heap holds. -/
  beside : (∀ address, address < x.block.base + x.offset
      ∨ x.block.base + x.offset + count ≤ address →
        outcome.2.memory.byte address = heap.memory.byte address)
    ∧ outcome.2 = { heap with memory := outcome.2.memory }
  /-- A refused text changes nothing. -/
  refused : outcome.1 ≠ .ok () → outcome = (.error (.tooManyBytes x.type s), heap)
  /-- The text may as well be written through any view that shows the array. -/
  viewed : ∀ (view : View) offset, view.block = x.block → view.start + offset = x.offset →
    offset + count ≤ view.length → view.write x.type offset (.text s) heap = outcome

namespace Instance

variable {x : Instance}

theorem text_overwrite (kind : x.type = .array element count) (narrow : element.size = 1)
    (inside : x.Inside) (solid : '\x00' ∉ s.toList) (short : s.utf8ByteSize ≤ count) (heap : Heap) :
    TextBuffer.text (heap.overwrite (x.block.base + x.offset) count s) x = .ok s := by
  have size : x.type.size = count := kind ▸ CType.size_array_of_narrow narrow
  have ends : (heap.memory.overwrite (x.block.base + x.offset) count (Text.Utf8.encode s)).EndsAt
      (x.block.base + x.offset) count (Text.Utf8.encode s).length :=
    Memory.endsAt_overwrite (Text.Utf8.length_encode s ▸ short)
      (Text.Utf8.zero_notMem_encode solid)
  have narrow : ¬ 1 < element.size := by
    rw [narrow]
    decide
  rw [TextBuffer.text_of_bytes kind (bytes_of_inside inside _), size, if_neg narrow,
    Memory.beforeZero_load, Heap.overwrite, Memory.untilZero_of_endsAt ends,
    Memory.load_overwrite, Text.Utf8.decode_encode]

/-- What writing a text to an array of `count` bytes comes to. -/
def afterText (x : Instance) (count : Nat) (s : String) (heap : Heap) :
    Except Failure Unit × Heap :=
  if s.utf8ByteSize ≤ count then (.ok (), heap.overwrite (x.block.base + x.offset) count s)
  else (.error (.tooManyBytes x.type s), heap)

/-- It is the same through each view that shows the array. -/
theorem write_text (kind : x.type = .array element count) (narrow : element.size = 1)
    (integral : element.isIntegral = true) {view : View} {offset : Nat}
    (same : view.block = x.block) (start : view.start + offset = x.offset)
    (within : offset + count ≤ view.length) (heap : Heap) :
    view.write x.type offset (.text s) heap = x.afterText count s heap := by
  have place : view.place offset = x.block.base + x.offset := by
    rw [View.place, same, Nat.add_assoc, start]
  rw [afterText, kind, View.write_text_run narrow integral within, place]

/-- Only the text and its terminator are stored, as far as there is room for it. -/
theorem byte_afterText_of_outside {address : Nat} (outside : address < x.block.base + x.offset
    ∨ x.block.base + x.offset + min (s.utf8ByteSize + 1) count ≤ address) (heap : Heap) :
    (x.afterText count s heap).2.memory.byte address = heap.memory.byte address := by
  have length := Text.Utf8.length_encode s
  unfold afterText
  split
  case isTrue short => exact Memory.byte_overwrite_of_outside (length ▸ short) (length ▸ outside)
  case isFalse => rfl

theorem afterText_eq_ok_iff (heap : Heap) :
    (x.afterText count s heap).1 = .ok () ↔ s.utf8ByteSize ≤ count := by
  unfold afterText
  split
  case isTrue short => exact iff_of_true rfl short
  case isFalse long =>
    refine iff_of_false (fun same => ?_) long
    cases same

/-- A text without zero characters is accepted by an array of bytes just if it has no more bytes
than the array, and then it is what is read back, whatever was there before. -/
theorem setValue_text (kind : x.type = .array element count) (narrow : element.size = 1)
    (integral : element.isIntegral = true) (inside : x.Inside) (solid : '\x00' ∉ s.toList)
    (heap : Heap) : x.Overwritten count s heap (x.setValue (.text s) heap) := by
  have size : x.type.size = count := kind ▸ CType.size_array_of_narrow narrow
  have ran : x.setValue (.text s) heap = x.afterText count s heap := by
    rw [setValue_of_inside inside]
    exact write_text kind narrow integral rfl rfl (Nat.le_of_eq ((Nat.zero_add _).trans size.symm))
      heap
  rw [ran]
  refine ⟨afterText_eq_ok_iff heap, ?read, ?tail, ⟨?beside, ?rest⟩, ?refused, ?viewed⟩
  case read =>
    intro done
    have short := (afterText_eq_ok_iff heap).mp done
    rw [afterText, if_pos short]
    exact text_overwrite kind narrow inside solid short heap
  case tail => exact fun _ i behind below => byte_afterText_of_outside (by omega) heap
  case beside => exact fun address outside => byte_afterText_of_outside (by omega) heap
  case rest =>
    unfold afterText
    split <;> rfl
  case refused =>
    intro failed
    rw [afterText, if_neg (mt (afterText_eq_ok_iff heap).mpr failed)]
  case viewed =>
    exact fun view offset same start within =>
      write_text kind narrow integral same start within heap

/-- A heap in which six bytes of an array of seven are in use. -/
def inUse : Heap := { Heap.empty with memory := Heap.empty.memory.store 16 [1, 2, 3, 4, 5, 6] }

/-- A text of three bytes is written over six others. Two of them are left behind its end. -/
theorem setValue_text_over :
    let x : Instance := ⟨.array TextBuffer.char 7, ⟨0, 16, 7, false⟩, 0⟩
    let after := (x.setValue (.text "né") inUse).2
    TextBuffer.char.size = 1 ∧ TextBuffer.char.isIntegral = true ∧ x.Inside
      ∧ '\x00' ∉ "né".toList ∧ TextBuffer.text after x = .ok "né"
      ∧ (List.range 7).map (fun i => after.memory.byte (16 + i)) = [110, 195, 169, 0, 5, 6, 0] := by
  intro x after
  have inside : x.Inside := Nat.le_refl 7
  have solid : '\x00' ∉ "né".toList := by decide
  have written : x.Overwritten 7 "né" inUse (x.setValue (.text "né") inUse) :=
    setValue_text rfl rfl rfl inside solid inUse
  have short : "né".utf8ByteSize ≤ 7 := by decide
  exact ⟨rfl, rfl, inside, solid, written.read (written.accepted.mpr short), by decide⟩

end Instance

end

end CInterop
