import CInterop.Proofs.Text.Buffers
import CInterop.Proofs.Text.Terminated

/-!
# Bounded output

A function that prints into a buffer of `n` characters stores as much of its text as fits in front
of a terminator, and returns how many characters the whole text has (`BoundedOutput.Printed`). The
capacity that the number is compared with is one of bytes: the verdict is right for narrow
characters, and for wide ones unless the text is cut and its length is below the number of bytes of
the buffer (`BoundedOutput.inspect_printed`).
-/

namespace CInterop

/-! ## Characters of one, two and four bytes -/

theorem Bytes.beforeZero_append {bytes : Bytes} (solid : 0 ∉ bytes) (tail : Bytes) :
    (bytes ++ 0 :: tail).beforeZero = bytes := by
  have nonzero : ∀ byte ∈ bytes, (byte != 0) = true :=
    fun byte mem => bne_iff_ne.mpr fun zero => solid (zero ▸ mem)
  rw [beforeZero, List.takeWhile_append_of_pos nonzero]
  simp

namespace Text

/-- The characters that a text is made of in memory: bytes, or units of two or four bytes. -/
def characters (size : Nat) (text : String) : List Nat :=
  if 1 < size then Wide.units size text else (Utf8.encode text).map UInt8.toNat

/-- The bytes of characters of some size. -/
def bytesOf (size : Nat) (chars : List Nat) : Bytes :=
  chars.flatMap fun char => Bytes.ofWord size (.ofNat char)

/-- The text that some characters are read as. -/
def ofCharacters (size : Nat) (chars : List Nat) : String :=
  if 1 < size then
    String.ofList (if size = 2 then Wide.decodeUtf16 chars else chars.map Wide.scalar)
  else Utf8.decode (chars.map UInt8.ofNat)

/-- What a buffer of some bytes is read as. -/
def ofBytes (size : Nat) (bytes : Bytes) : String :=
  if 1 < size then Wide.decode size bytes else Utf8.decode bytes.beforeZero

/-- Characters other than the terminator, of some size. -/
def Solid (size : Nat) (chars : List Nat) : Prop := ∀ char ∈ chars, 0 < char ∧ char < 2 ^ (8 * size)

variable {size : Nat} {chars : List Nat}

theorem Solid.take (solid : Solid size chars) (count : Nat) : Solid size (chars.take count) :=
  fun char mem => solid char (List.mem_of_mem_take mem)

theorem bytesOf_one (chars : List Nat) : bytesOf 1 chars = chars.map UInt8.ofNat := by
  have byte (char : Nat) : Bytes.ofWord 1 (.ofNat char) = [UInt8.ofNat char] := by
    simp [Bytes.ofWord]
  rw [bytesOf, List.map_eq_flatMap]
  exact List.flatMap_congr fun char _ => byte char

theorem bytesOf_wide (word : size = 2 ∨ size = 4) (chars : List Nat) :
    bytesOf size chars = chars.flatMap (Wide.unitBytes size) := by
  have same : (if size = 2 then 2 else 4) = size := by split <;> omega
  rw [bytesOf]
  exact List.flatMap_congr fun char _ => by rw [Wide.unitBytes, same]

theorem length_bytesOf (size : Nat) (chars : List Nat) :
    (bytesOf size chars).length = size * chars.length := by
  induction chars with
  | nil => rfl
  | cons char rest ih =>
    rw [bytesOf, List.flatMap_cons, List.length_append, Bytes.length_ofWord, ← bytesOf, ih,
      List.length_cons, Nat.mul_succ, Nat.add_comm]

/-- No narrow character but the terminator is a zero byte. -/
theorem Solid.zero_notMem (solid : Solid 1 chars) : 0 ∉ chars.map UInt8.ofNat := by
  intro mem
  obtain ⟨char, held, zero⟩ := List.mem_map.mp mem
  obtain ⟨positive, fits⟩ := solid char held
  refine Nat.ne_of_gt positive ?_
  rw [← UInt8.toNat_ofNat_of_lt' fits, zero]
  rfl

/-- Characters are read up to the terminator, whatever lies behind it. -/
theorem Solid.ofBytes_terminated (solid : Solid size chars)
    (word : size = 1 ∨ size = 2 ∨ size = 4) (tail : Bytes) :
    ofBytes size (bytesOf size (chars ++ [0]) ++ tail) = ofCharacters size chars := by
  have fits : ∀ char ∈ chars ++ [0], char < 2 ^ (8 * size) :=
    List.forall_mem_append.mpr ⟨fun char mem => (solid char mem).2,
      List.forall_mem_singleton.mpr (Nat.two_pow_pos _)⟩
  have ends (more : List Nat) : (chars ++ [0] ++ more).takeWhile (· != 0) = chars := by
    have nonzero : ∀ char ∈ chars, (char != 0) = true :=
      fun char mem => bne_iff_ne.mpr (Nat.ne_of_gt (solid char mem).1)
    rw [List.append_assoc, List.takeWhile_append_of_pos nonzero]
    simp
  unfold ofBytes ofCharacters
  rcases word with rfl | rfl | rfl
  · have narrow : bytesOf 1 (chars ++ [0]) ++ tail = chars.map UInt8.ofNat ++ 0 :: tail := by
      simp [bytesOf_one]
    rw [if_neg (by decide), if_neg (by decide), narrow,
      Bytes.beforeZero_append solid.zero_notMem]
  · rw [if_pos (by decide), if_pos (by decide), bytesOf_wide (.inl rfl), Wide.decode, if_pos rfl,
      if_pos rfl, Wide.pairs_flatMap_append _ fits, ends]
  · rw [if_pos (by decide), if_pos (by decide), bytesOf_wide (.inr rfl), Wide.decode,
      if_neg (by decide), if_neg (by decide), Wide.quads_flatMap_append _ fits, ends]

/-- The characters of a text are read as the text. -/
theorem ofCharacters_characters (word : size = 1 ∨ size = 2 ∨ size = 4) (text : String) :
    ofCharacters size (characters size text) = text := by
  unfold ofCharacters characters
  rcases word with rfl | rfl | rfl
  · have again : (Utf8.encode text).map (UInt8.ofNat ∘ UInt8.toNat) = Utf8.encode text := by
      simp [Function.comp_def]
    rw [if_neg (by decide), if_neg (by decide), List.map_map, again, Utf8.decode_encode]
  · have several : 1 < 2 := by decide
    rw [if_pos several, if_pos several, if_pos rfl, Wide.units, if_pos rfl,
      Wide.decodeUtf16_flatMap, String.ofList_toList]
  · have several : 1 < 4 := by decide
    have four : ¬ 4 = 2 := by decide
    have scalars : Wide.scalar ∘ Char.toNat = id := funext Wide.scalar_toNat
    rw [if_pos several, if_pos several, if_neg four, Wide.units, if_neg four, List.map_map, scalars,
      List.map_id, String.ofList_toList]

end Text

/-! ## What a function printed -/

namespace BoundedOutput

/-- What a function stores that prints some characters into a buffer: as many as fit in front of a
terminator. -/
def printed (size count : Nat) (chars : List Nat) : Bytes :=
  Text.bytesOf size (chars.take (count - 1) ++ [0])

/-- A function printed some characters into a buffer that has room for `count`, and returned how
many there were to print. -/
structure Printed (heap : Heap) (buffer : Instance) (element : CType) (count : Nat)
    (chars : List Nat) (returned : Value) : Prop where
  kind : buffer.type = .array element count
  word : element.size = 1 ∨ element.size = 2 ∨ element.size = 4
  room : 0 < count
  inside : buffer.Inside
  solid : Text.Solid element.size chars
  stored : heap.memory.load (buffer.block.base + buffer.offset)
    (printed element.size count chars).length = printed element.size count chars
  counted : returned.toInt? = some (.ofNat chars.length)
  small : (chars.length : Int) ≤ Word.maxSigned

/-- The heap after a function stored what it prints. -/
def print (heap : Heap) (buffer : Instance) (size count : Nat) (chars : List Nat) : Heap :=
  { heap with
    memory := heap.memory.store (buffer.block.base + buffer.offset) (printed size count chars) }

/-- An output is judged rightly if it is said to be cut exactly when its characters leave no room
for the terminator, and if its text is the whole one when it is not said to be cut. -/
structure Right (output : BoundedOutput) (size count : Nat) (chars : List Nat) : Prop where
  detected : output.truncated = true ↔ count ≤ chars.length
  whole : output.truncated = false → ∀ s, Text.characters size s = chars → output.text = s

variable {heap : Heap} {buffer : Instance} {element : CType} {count : Nat} {chars : List Nat}
  {returned : Value}

/-- The terminator has a place in the buffer. -/
theorem length_printed_le (size : Nat) (room : 0 < count) (chars : List Nat) :
    (printed size count chars).length ≤ size * count := by
  have fewer : (chars.take (count - 1)).length ≤ count - 1 := List.length_take_le _ _
  rw [printed, Text.length_bytesOf, List.length_append, List.length_singleton]
  exact Nat.mul_le_mul_left size (by omega)

/-- The text in the buffer is made of the characters in front of the terminator. -/
theorem Printed.text (call : Printed heap buffer element count chars returned) :
    TextBuffer.text heap buffer
      = .ok (Text.ofCharacters element.size (chars.take (count - 1))) := by
  obtain ⟨more, whole⟩ :=
    Nat.exists_eq_add_of_le (length_printed_le element.size call.room chars)
  have size : buffer.type.size
      = (printed element.size count chars).length + more := by
    rw [call.kind, ← whole]
    rfl
  have read := Instance.bytes_of_inside call.inside heap
  rw [size, Memory.load_add, call.stored] at read
  rw [TextBuffer.text_of_bytes call.kind read]
  exact congrArg Except.ok ((call.solid.take _).ofBytes_terminated call.word _)

/-- The length is taken from the function, the capacity is one of bytes. -/
theorem Printed.inspect (call : Printed heap buffer element count chars returned) :
    inspect heap returned buffer = .ok ⟨.ofNat chars.length, element.size * count,
      Text.ofCharacters element.size (chars.take (count - 1))⟩ := by
  have capacity : buffer.type.size = element.size * count := by
    rw [call.kind]
    rfl
  rw [BoundedOutput.inspect, call.counted, call.text, capacity]
  rfl

/-- A length is compared with a capacity as a number. -/
theorem truncated_eq {capacity length : Nat} (small : (length : Int) ≤ Word.maxSigned)
    (text : String) :
    truncated ⟨.ofNat length, capacity, text⟩ = decide (capacity ≤ length) := by
  have below : length < 2 ^ 63 := by
    have limit : Word.maxSigned = 2 ^ 63 - 1 := rfl
    omega
  have number : (Int64.ofNat length).toUInt64.toNat = length := by
    have same : (Int64.ofNat length).toUInt64 = .ofNat length := rfl
    rw [same]
    exact UInt64.toNat_ofNat_of_lt' (Nat.lt_trans below (by decide))
  have signed : ¬ Int64.ofNat length < 0 := by
    rw [Int64.lt_iff_toInt_lt, Int64.toInt_ofNat_of_lt below]
    exact Int.not_lt.mpr (Int.natCast_nonneg length)
  rw [truncated, number, decide_eq_false signed, Bool.false_or]

/-- An inspection gives the part of the text that is in the buffer, and says that it was cut if
there were as many characters to print as the buffer has bytes. For wide characters this is too
late, so that the verdict is wrong for each length between the two. -/
theorem inspect_printed (call : Printed heap buffer element count chars returned) :
    ∃ output, inspect heap returned buffer = .ok output
      ∧ output.text = Text.ofCharacters element.size (chars.take (count - 1))
      ∧ (output.truncated = true ↔ element.size * count ≤ chars.length)
      ∧ (output.Right element.size count chars
        ↔ element.size = 1 ∨ chars.length < count ∨ element.size * count ≤ chars.length) := by
  let output : BoundedOutput := ⟨.ofNat chars.length, element.size * count,
    Text.ofCharacters element.size (chars.take (count - 1))⟩
  have judged : output.truncated = true ↔ element.size * count ≤ chars.length := by
    rw [truncated_eq call.small, decide_eq_true_eq]
  have wider : count ≤ element.size * count :=
    Nat.le_mul_of_pos_left count (by have := call.word; omega)
  refine ⟨output, call.inspect, rfl, judged, fun right => ?_,
    fun apart => ⟨?_, fun uncut s same => ?_⟩⟩
  · have late := judged.symm.trans right.detected
    omega
  · rw [judged]
    rcases apart with one | short | long
    · rw [one, Nat.one_mul]
    · omega
    · omega
  · have short : chars.length < count := by
      have below := mt judged.mpr (Bool.eq_false_iff.mp uncut)
      rcases apart with one | short | long
      · rw [one, Nat.one_mul] at below
        omega
      · exact short
      · exact absurd long below
    have all : chars.take (count - 1) = chars := List.take_of_length_le (by omega)
    show Text.ofCharacters element.size (chars.take (count - 1)) = s
    rw [all, ← same, Text.ofCharacters_characters call.word]

/-- Five characters. -/
def letters : List Nat := [97, 98, 99, 100, 101]

/-- An array of characters at the start of a block. -/
def bufferOf (element : CType) (count : Nat) : Instance :=
  ⟨.array element count, ⟨0, 16, element.size * count, false⟩, 0⟩

theorem printed_letters (element : CType) (count : Nat)
    (word : element.size = 1 ∨ element.size = 2 ∨ element.size = 4) (room : 0 < count) :
    Printed (print .empty (bufferOf element count) element.size count letters)
      (bufferOf element count) element count letters (.int 5) := by
  refine ⟨rfl, word, room, Nat.le_of_eq (Nat.zero_add _), ?_, Memory.load_store .., rfl, by decide⟩
  intro char mem
  have small : char < 2 ^ 8 := by revert char; decide
  have positive : 0 < char := by revert char; decide
  have wider : 2 ^ 8 ≤ 2 ^ (8 * element.size) := Nat.pow_le_pow_right (by decide) (by omega)
  exact ⟨positive, Nat.lt_of_lt_of_le small wider⟩

/-- Three of five narrow characters have a place in a buffer of four. -/
theorem inspect_printed_letters :
    let buffer := bufferOf TextBuffer.char 4
    let heap := print .empty buffer 1 4 letters
    Printed heap buffer TextBuffer.char 4 letters (.int 5)
      ∧ ∃ output, inspect heap (.int 5) buffer = .ok output ∧ output.text = "abc"
        ∧ output.truncated = true ∧ output.Right 1 4 letters := by
  have call := printed_letters TextBuffer.char 4 (.inl rfl) (by decide)
  obtain ⟨output, found, text, cut, right⟩ := inspect_printed call
  have abc : Text.ofCharacters 1 [97, 98, 99] = "abc" :=
    Text.ofCharacters_characters (.inl rfl) "abc"
  exact ⟨call, output, found, text.trans abc, cut.mpr (by decide), right.mpr (.inl rfl)⟩

/-- The type of wide characters of four bytes. -/
def wide : CType := .natural "wchar_t" .w32 true

/-- Of five wide characters three have a place in a buffer of four, and the cut is not seen. -/
theorem inspect_unseen_cut :
    let buffer := bufferOf wide 4
    let heap := print .empty buffer 4 4 letters
    Printed heap buffer wide 4 letters (.int 5)
      ∧ ∃ output, inspect heap (.int 5) buffer = .ok output ∧ output.text = "abc"
        ∧ output.truncated = false ∧ ¬ output.Right 4 4 letters := by
  have call := printed_letters wide 4 (.inr (.inr rfl)) (by decide)
  have abc : Text.ofCharacters 4 [97, 98, 99] = "abc" :=
    Text.ofCharacters_characters (.inr (.inr rfl)) "abc"
  have unseen : truncated ⟨.ofNat 5, 16, "abc"⟩ = false := by decide
  have found : inspect _ _ (bufferOf wide 4) = .ok ⟨.ofNat 5, 16, "abc"⟩ := abc ▸ call.inspect
  refine ⟨call, _, found, rfl, unseen, fun right => ?_⟩
  exact absurd (right.detected.mpr (by decide)) (Bool.eq_false_iff.mp unseen)

end BoundedOutput

end CInterop
