import CInterop.Proofs.Text.Buffers
import CInterop.Proofs.View.AddressWidth

/-!
# Handing text over

A text is handed to native memory in the slot of a string pointer or in a buffer of characters, and
is read back from there. Each way takes the texts that there is room for, but narrow ways refuse
zero characters, behind which a reader would not look. Wide ways store them: what is read back then
ends before the first (`Handover.give_text`). The ways are open in every state that stores of
pointers lead to (`View.SlotFree.of_run`, `Heap.Blank.of_run`).
-/

namespace CInterop

open HeapM Heap PointerStore

/-! ## Ways of handing text over -/

/-- A way of handing a text to native memory. -/
inductive Handover where
  | narrowSlot (view : View) (offset : Nat) (pointer : Width)
  | wideSlot (view : View) (offset : Nat) (pointer : Width) (unit : Nat)
  | narrowBuffer (registry : Registry)
  | wideBuffer (registry : Registry) (size : Option Nat)

namespace Handover

/-- Whether the text is stored in wide characters. -/
def isWide : Handover → Bool
  | narrowSlot .. | narrowBuffer _ => false
  | wideSlot .. | wideBuffer .. => true

/-- Hands a text over. The result says how it is read back. -/
def give (way : Handover) (text : String) : HeapM (Heap → Except Failure Value) :=
  match way with
  | narrowSlot view offset pointer => do
    view.write (.pointer .cstring pointer) offset (.text text)
    pure fun heap => view.read heap (.pointer .cstring pointer) offset
  | wideSlot view offset pointer unit => do
    view.write (.pointer (.wstring unit) pointer) offset (.text text)
    pure fun heap => view.read heap (.pointer (.wstring unit) pointer) offset
  | narrowBuffer registry => do
    let buffer ← TextBuffer.ofBytes registry (Text.Utf8.encode text)
    pure fun heap => .text <$> TextBuffer.text heap buffer
  | wideBuffer registry size => do
    let buffer ← TextBuffer.ofText registry text size
    pure fun heap => .text <$> TextBuffer.text heap buffer

/-- The texts that a way takes: those that there is room for, and in narrow characters those
without a zero character. -/
def Takes (text : String) : Handover → Prop
  | narrowSlot .. => '\x00' ∉ text.toList
  | wideSlot _ _ _ unit => (Text.Wide.encode unit text).length ≤ largestBlock
  | narrowBuffer _ =>
    '\x00' ∉ text.toList ∧ (Text.Utf8.encode text).length + 1 ≤ largestBlock
  | wideBuffer registry size => TextBuffer.HasRoom registry text size

/-- What is read back of a text. -/
def kept (way : Handover) (text : String) : String :=
  if way.isWide then Text.Wide.beforeNul text else text

end Handover

/-! ## Slots -/

/-- An item does not begin at the address of a place. -/
def Kept.Elsewhere (place : Nat) : Kept → Prop
  | .block other => other.address ≠ .ofNat place
  | .text start _ => start ≠ place

/-- A slot that can take the next free address. Nothing that its block keeps begins there. -/
structure View.SlotFree (view : View) (offset : Nat) (pointer : Width) (heap : Heap) : Prop where
  inside : offset + pointer.bytes ≤ view.length
  behind : view.place offset + pointer.bytes ≤ heap.frontier
  known : view.block.id < heap.nextId
  fits : heap.frontier < 2 ^ pointer.bits
  free : ∀ entry ∈ heap.keptBy view.block, entry.2.Elsewhere heap.frontier

section Slots

variable {view : View} {offset : Nat} {pointer : Width} {unit : Nat} {heap middle : Heap}
  {target : Target} {item : Kept} {text : String} {limit : Nat} {given items : List Kept}
  {stores : List PointerStore} {start : Heap}

theorem View.SlotFree.toNat_frontier (slot : view.SlotFree offset pointer heap) :
    (UInt64.ofNat heap.frontier).toNat = heap.frontier ∧ UInt64.ofNat heap.frontier ≠ 0 := by
  have word : 2 ^ pointer.bits ≤ 2 ^ 64 := Nat.pow_le_pow_right (by decide) pointer.bits_le
  have same : (UInt64.ofNat heap.frontier).toNat = heap.frontier :=
    UInt64.toNat_ofNat_of_lt' (Nat.lt_of_lt_of_le slot.fits word)
  refine ⟨same, fun zero => ?_⟩
  rw [zero, UInt64.toNat_zero] at same
  have behind := slot.behind
  have positive := pointer.bytes_pos
  omega

/-- Nothing that a block keeps begins where memory is still free. -/
theorem Heap.Tidy.elsewhere {block : Block} (tidy : Tidy limit block items heap)
    (room : heap.frontier < limit) (words : limit < Word.modulus) :
    ∀ entry ∈ heap.keptBy block, entry.2.Elsewhere heap.frontier := by
  rintro ⟨place, item⟩ mem
  have known := tidy.kept _ mem
  have lies := tidy.lies _ known
  cases item with
  | text first length =>
    have apart : first ≠ heap.frontier := by
      simp only [Kept.start, Kept.length] at lies
      omega
    exact apart
  | block other =>
    intro same
    have first : other.base = heap.frontier := by
      rw [← Block.toNat_address (tidy.words other known).1, same,
        UInt64.toNat_ofNat_of_lt' (Nat.lt_trans room words)]
    simp only [Kept.start, Kept.length] at lies
    omega

/-- The slots of a block that keeps nothing but tidy items are free. -/
theorem View.SlotFree.of_tidy (tidy : Tidy limit view.block items heap)
    (room : heap.frontier < limit) (words : limit < Word.modulus)
    (within : view.start + view.length ≤ view.block.length)
    (inside : offset + pointer.bytes ≤ view.length) (fits : heap.frontier < 2 ^ pointer.bits) :
    view.SlotFree offset pointer heap := by
  have below := tidy.below
  refine { inside, fits, behind := ?behind, known := tidy.known _ tidy.own
           free := tidy.elsewhere room words }
  case behind =>
    unfold View.place
    omega

/-- The slots of a block are free whatever was stored in it before. -/
theorem View.SlotFree.of_run (run : Run view.block given start stores items heap)
    (tidy : Tidy limit view.block given start) (room : heap.frontier < limit)
    (words : limit < Word.modulus) (within : view.start + view.length ≤ view.block.length)
    (inside : offset + pointer.bytes ≤ view.length) (fits : heap.frontier < 2 ^ pointer.bits) :
    view.SlotFree offset pointer heap :=
  .of_tidy (consistent_of_run run tidy (Nat.le_of_lt room) words).tidy room words within inside fits

/-- Free memory stays zero while values are stored in a block. -/
theorem Heap.Blank.of_run {block : Block} (run : Run block given start stores items heap)
    (below : block.base + block.length ≤ start.frontier) (blank : start.Blank) :
    block.base + block.length ≤ heap.frontier ∧ heap.Blank := by
  induction run with
  | start => exact ⟨below, blank⟩
  | store run allowed ran ih =>
    have changed := allowed.changed ran
    have inside := allowed.slot_le
    have grown := changed.frontier
    refine ⟨Nat.le_trans ih.1 grown, ih.2.of_changed changed fun i touched => ?_⟩
    omega
  | allocate run ran ih =>
    have changed : ChangedOnly ChangedOnly.Nothing ChangedOnly.Nothing _ _ :=
      (touches_allocate _).changed ran
    exact ⟨Nat.le_trans ih.1 changed.frontier, ih.2.of_changed changed fun _ => False.elim⟩

/-- A slot in which the next free address was stored: it is read from there, and the block keeps one
item that begins there. -/
structure View.Filled (view : View) (offset : Nat) (pointer : Width) (target : Target)
    (heap after : Heap) (item : Kept) : Prop where
  read : view.read after (.pointer target pointer) offset
    = .ok (after.pointerValue view.block target (.ofNat heap.frontier))
  listed : ∃ place, (place, item) ∈ after.keptBy view.block
  only : ∀ entry ∈ after.keptBy view.block, entry.2 = item ∨ entry.2.Elsewhere heap.frontier

theorem Heap.mem_insertKept_self (offset : Nat) (item : Kept) (entries : List (Nat × Kept)) :
    (offset, item) ∈ insertKept offset item entries := by
  induction entries with
  | nil => exact List.mem_singleton_self _
  | cons entry rest ih =>
    unfold insertKept
    split
    case isTrue => exact List.mem_cons_self
    case isFalse =>
      split
      case isTrue => exact List.mem_cons_self
      case isFalse => exact List.mem_cons_of_mem _ ih

/-- A text for which memory was found is stored in a slot. -/
theorem View.SlotFree.exists_write (slot : view.SlotFree offset pointer heap) (target : Target)
    (found : addressFor (.pointer target pointer) target (.text text) heap
      = (.ok (.ofNat heap.frontier, some item), middle))
    (foreign : isSelf view.block item = false) (same : middle.kept = heap.kept) :
    ∃ after, view.write (.pointer target pointer) offset (.text text) heap = (.ok (), after)
      ∧ after.memory = middle.memory.storeWord (view.place offset) pointer.bytes
          (.ofNat heap.frontier)
      ∧ view.Filled offset pointer target heap after item := by
  refine ⟨_, writePointer_run slot.inside found, rfl, ?read, ?listed, ?only⟩
  case read =>
    have whole : pointer.cut (.ofNat heap.frontier) = .ofNat heap.frontier := by
      rw [Width.cut_eq_iff, slot.toNat_frontier.1]
      exact slot.fits
    have word :=
      Memory.loadWord_cut middle.memory (view.place offset) pointer (.ofNat heap.frontier)
    rw [whole] at word
    rw [View.read, readWord_of_le slot.inside]
    exact congrArg (fun address => Except.ok (Heap.pointerValue _ view.block target address)) word
  all_goals
    have own : view.block.same view.block = true := beq_self_eq_true _
    have held : (some item).filter (!isSelf view.block ·) = some item := by simp [foreign]
    rw [Note.keptBy_apply_of_same own, Note.revise, Note.kept]
    simp only [View.span, held]
  case listed => exact ⟨_, mem_insertKept_self _ _ _⟩
  case only =>
    rintro ⟨place, other⟩ mem
    refine (mem_of_mem_insertKept mem).imp_right fun old => ?_
    have earlier := (mem_releaseKept.mp old).2
    rw [keptBy, same] at earlier
    exact slot.free _ earlier

namespace View.Filled

variable {after : Heap}

/-- The text that the slot refers to is the only one at its address. -/
theorem keptText? {length : Nat}
    (filled : view.Filled offset pointer target heap after (.text heap.frontier length))
    (word : (UInt64.ofNat heap.frontier).toNat = heap.frontier) :
    after.keptText? view.block (.ofNat heap.frontier)
      = some (after.memory.load heap.frontier length) := by
  obtain ⟨place, listed⟩ := filled.listed
  unfold Heap.keptText?
  refine findSome?_of_unique listed (by simp only [word, if_true]) ?_
  rintro ⟨other, another | ⟨start, length'⟩⟩ mem found same
  · cases same
  · simp only at same
    split at same
    case isFalse => cases same
    case isTrue at_address =>
      cases same
      rcases filled.only _ mem with own | apart
      · cases own
        rfl
      · exact absurd (at_address.trans word) apart

theorem keptBlock? {other : Block}
    (filled : view.Filled offset pointer target heap after (.block other))
    (fresh : other.base = heap.frontier) :
    after.keptBlock? view.block (.ofNat heap.frontier)
      = some (after.memory.load heap.frontier other.length) := by
  obtain ⟨place, listed⟩ := filled.listed
  have address : other.address = .ofNat heap.frontier := congrArg UInt64.ofNat fresh
  unfold Heap.keptBlock?
  refine findSome?_of_unique listed (by simp only [address, if_true, fresh]) ?_
  rintro ⟨place', another | ⟨start, length⟩⟩ mem found same
  · simp only at same
    split at same
    case isFalse => cases same
    case isTrue at_address =>
      cases same
      rcases filled.only _ mem with own | apart
      · cases own
        rw [fresh]
      · exact absurd at_address apart
  · cases same

end View.Filled

/-- A narrow text without zero bytes is read back from its slot. -/
theorem View.SlotFree.narrow (slot : view.SlotFree offset pointer heap)
    (solid : 0 ∉ Text.Utf8.encode text) :
    ∃ after, view.write (.pointer .cstring pointer) offset (.text text) heap = (.ok (), after)
      ∧ view.read after (.pointer .cstring pointer) offset = .ok (.text text) := by
  obtain ⟨word, nonzero⟩ := slot.toNat_frontier
  obtain ⟨after, ran, memory, filled⟩ :=
    slot.exists_write .cstring (bind_of_ok (storeText_run solid heap)) rfl rfl
  have bytes := heap.memory.load_fresh (Text.Utf8.encode text) [0] (.ofNat heap.frontier)
    slot.behind
  refine ⟨after, ran, filled.read.trans ?_⟩
  simp only [pointerValue, if_neg nonzero, filled.keptText? word]
  rw [memory, bytes, Text.Utf8.decode_encode]

/-- A wide text is read back from its slot up to the first zero character. -/
theorem View.SlotFree.wide (slot : view.SlotFree offset pointer heap) (wide : Text.Wide.IsUnit unit)
    (fits : (Text.Wide.encode unit text).length ≤ largestBlock) :
    ∃ after, view.write (.pointer (.wstring unit) pointer) offset (.text text) heap
        = (.ok (), after)
      ∧ view.read after (.pointer (.wstring unit) pointer) offset
        = .ok (.text (Text.Wide.beforeNul text)) := by
  obtain ⟨-, nonzero⟩ := slot.toNat_frontier
  have foreign (length : Nat) :
      isSelf view.block (.block ⟨heap.nextId, heap.frontier, length, false⟩) = false :=
    beq_eq_false_iff_ne.mpr (Nat.ne_of_lt slot.known)
  obtain ⟨after, ran, memory, filled⟩ := slot.exists_write (.wstring unit)
    (bind_of_ok (storeWide_run heap fits)) (foreign _) rfl
  have bytes := heap.memory.load_fresh (Text.Wide.encode unit text) []
    (.ofNat heap.frontier) slot.behind
  rw [List.append_nil] at bytes
  refine ⟨after, ran, filled.read.trans ?_⟩
  simp only [pointerValue, if_neg nonzero, filled.keptBlock? rfl]
  rw [memory, bytes, Text.Wide.decode_encode wide]

theorem Heap.storeText_error {text : String} (zero : 0 ∈ Text.Utf8.encode text) (heap : Heap) :
    ∃ position, storeText text heap = (.error (.invalidString (.zeroByte position)), heap) := by
  unfold storeText
  cases found : (Text.Utf8.encode text).findIdx? (· == 0) with
  | some position => exact ⟨position, rfl⟩
  | none => exact absurd (List.findIdx?_eq_none_iff.mp found 0 zero) (by decide)

/-- A slot is not written when no memory is found for a text. -/
theorem View.SlotFree.write_error {failure : Failure} (slot : view.SlotFree offset pointer heap)
    (failed : addressFor (.pointer target pointer) target (.text text) heap
      = (.error failure, middle)) :
    view.write (.pointer target pointer) offset (.text text) heap = (.error failure, middle) := by
  refine (bind_of_ok (target_of_le slot.inside)).trans ?_
  rw [bind_run, failed]

end Slots

/-! ## Texts that are read back -/

namespace Handover

variable {way : Handover} {text : String} {heap : Heap}

/-- The state in which a way is open: its slot can take an address, or free memory is zero. Wide
characters have a unit of two or four bytes. -/
def Ready (heap : Heap) : Handover → Prop
  | narrowSlot view offset pointer => view.SlotFree offset pointer heap
  | wideSlot view offset pointer unit => view.SlotFree offset pointer heap ∧ Text.Wide.IsUnit unit
  | narrowBuffer _ => heap.Blank
  | wideBuffer registry _ => heap.Blank ∧ Text.Wide.IsUnit registry.platform.wchar

/-- Exactly the texts without zero characters are kept as a whole in wide characters. -/
theorem kept_eq_iff (way : Handover) (text : String) :
    way.kept text = text ↔ way.isWide = false ∨ '\x00' ∉ text.toList := by
  unfold kept
  cases way.isWide with
  | false => simp
  | true =>
    simp only [if_true, Bool.true_eq_false, false_or]
    refine ⟨fun same mem => ?_, Text.Wide.beforeNul_of_solid⟩
    rw [← same, Text.Wide.beforeNul, String.toList_ofList] at mem
    exact absurd (List.mem_takeWhile_imp mem) (by decide)

/-- What a way takes is read back from it. -/
theorem exists_give (ready : way.Ready heap) (takes : way.Takes text) :
    ∃ read after, way.give text heap = (.ok read, after)
      ∧ read after = .ok (.text (way.kept text)) := by
  cases way with
  | narrowSlot view offset pointer =>
    obtain ⟨after, ran, read⟩ := View.SlotFree.narrow ready (Text.Utf8.zero_notMem_encode takes)
    exact ⟨_, after, bind_of_ok ran, read⟩
  | wideSlot view offset pointer unit =>
    obtain ⟨after, ran, read⟩ := View.SlotFree.wide ready.1 ready.2 takes
    exact ⟨_, after, bind_of_ok ran, read⟩
  | narrowBuffer registry =>
    obtain ⟨buffer, after, ran, read⟩ :=
      TextBuffer.exists_ofBytes ready takes.1 takes.2 registry
    exact ⟨_, after, bind_of_ok ran, congrArg (Value.text <$> ·) read⟩
  | wideBuffer registry size =>
    obtain ⟨buffer, after, ran, read⟩ := TextBuffer.exists_ofText ready.1 ready.2 takes
    exact ⟨_, after, bind_of_ok ran, congrArg (Value.text <$> ·) read⟩

/-- Whatever a way does not take is refused, and leaves no trace. A zero character is named as the
reason where it is one. -/
theorem exists_give_error (ready : way.Ready heap) (refused : ¬ way.Takes text) :
    ∃ failure, way.give text heap = (.error failure, heap)
      ∧ (way.isWide = false → '\x00' ∈ text.toList → ∃ fault, failure = .invalidString fault) := by
  cases way with
  | narrowSlot view offset pointer =>
    have zero := Text.Utf8.zero_mem_encode_iff.mpr (Classical.not_not.mp refused)
    obtain ⟨position, failed⟩ := storeText_error zero heap
    have unfound : addressFor (.pointer .cstring pointer) .cstring (.text text) heap
        = (.error (.invalidString (.zeroByte position)), heap) := by
      rw [addressFor, bind_run, failed]
    have unwritten := View.SlotFree.write_error ready unfound
    exact ⟨_, by rw [give, bind_run, unwritten], fun _ _ => ⟨_, rfl⟩⟩
  | wideSlot view offset pointer unit =>
    obtain ⟨failure, failed⟩ := allocate_error (Nat.not_le.mp refused) heap
    have unfound : addressFor (.pointer (.wstring unit) pointer) (.wstring unit) (.text text) heap
        = (.error failure, heap) := by
      rw [addressFor, bind_run, storeWide, bind_run, failed]
    have unwritten := View.SlotFree.write_error ready.1 unfound
    exact ⟨failure, by rw [give, bind_run, unwritten], by rintro ⟨⟩⟩
  | narrowBuffer registry =>
    obtain ⟨failure, unmade, named⟩ := TextBuffer.ofBytes_error refused registry heap
    exact ⟨failure, by rw [give, bind_run, unmade], fun _ => named⟩
  | wideBuffer registry size =>
    obtain ⟨failure, unmade⟩ := TextBuffer.ofText_error ready.2 refused heap
    exact ⟨failure, by rw [give, bind_run, unmade], by rintro ⟨⟩⟩

/-- A text is handed over exactly if the way takes it, and is read back as what the way keeps of it.
This is the whole text unless it has a zero character and is stored in wide ones. -/
theorem give_text (ready : way.Ready heap) (text : String) :
    (way.Takes text → ∃ read after, way.give text heap = (.ok read, after)
        ∧ read after = .ok (.text (way.kept text)))
      ∧ (¬ way.Takes text → ∃ failure, way.give text heap = (.error failure, heap)
        ∧ (way.isWide = false → '\x00' ∈ text.toList → ∃ fault, failure = .invalidString fault))
      ∧ (way.kept text = text ↔ way.isWide = false ∨ '\x00' ∉ text.toList) :=
  ⟨exists_give ready, exists_give_error ready, way.kept_eq_iff text⟩

/-- The ways stay open while pointers are stored in the slots of a block. -/
theorem slots_ready {stores : List PointerStore} {items : List Kept}
    (run : Run slotsBlock [.block slotsBlock] slotsHeap stores items heap)
    (room : heap.frontier ≤ 0x800000000000) :
    slotsBlock.view.SlotFree 0 .w64 heap ∧ heap.Blank := by
  have ran : allocate 32 .empty = (.ok slotsBlock, slotsHeap) := rfl
  have changed : ChangedOnly ChangedOnly.Nothing ChangedOnly.Nothing .empty slotsHeap :=
    (touches_allocate 32).changed ran
  have tidy : Tidy 0x800000000001 slotsBlock [.block slotsBlock] slotsHeap :=
    tidy_of_allocate ran (fun _ => .nil) rfl (by decide)
  have blank := blank_empty.of_changed changed fun _ => False.elim
  exact ⟨.of_run run tidy (Nat.lt_succ_of_le room) (by decide) (by decide) (by decide)
    (Nat.lt_of_le_of_lt room (by decide)), (blank.of_run run tidy.below).2⟩

/-- A slot in which other pointers were stored before, and a buffer that has no room for the
terminator. -/
theorem give_text_whole :
    ∃ items heap, Run slotsBlock [.block slotsBlock] slotsHeap mixedStores items heap
      ∧ (narrowSlot slotsBlock.view 0 .w64).Ready heap
      ∧ (wideBuffer .host (some 2)).Ready heap
      ∧ (∃ read after, (narrowSlot slotsBlock.view 0 .w64).give "λμ" heap = (.ok read, after)
        ∧ read after = .ok (.text "λμ"))
      ∧ ∃ read after, (wideBuffer .host (some 2)).give "λμ" heap = (.ok read, after)
        ∧ read after = .ok (.text "λμ") := by
  obtain ⟨items, heap, run, room⟩ := exists_mixedRun
  obtain ⟨free, blank⟩ := slots_ready run room
  have slot : (narrowSlot slotsBlock.view 0 .w64).Ready heap := free
  have buffer : (wideBuffer .host (some 2)).Ready heap := ⟨blank, .inr rfl⟩
  have solid : '\x00' ∉ "λμ".toList := by decide
  obtain ⟨taken, -, whole⟩ := give_text buffer "λμ"
  obtain ⟨read, after, ran, found⟩ := taken ⟨by decide, by decide⟩
  rw [whole.mpr (.inr solid)] at found
  exact ⟨items, heap, run, slot, buffer, (give_text slot "λμ").1 solid, read, after, ran, found⟩

/-- A zero character cuts a text in a slot of wide characters, where one of narrow characters
refuses it. -/
theorem wide_cuts :
    (wideSlot slotsBlock.view 0 .w64 4).Ready slotsHeap
      ∧ (∃ read after,
        (wideSlot slotsBlock.view 0 .w64 4).give "a\x00b" slotsHeap = (.ok read, after)
        ∧ read after = .ok (.text "a") ∧ "a" ≠ "a\x00b")
      ∧ ∃ fault, (narrowSlot slotsBlock.view 0 .w64).give "a\x00b" slotsHeap
          = (.error (.invalidString fault), slotsHeap) := by
  have slot := (slots_ready .start (by decide)).1
  have ready : (wideSlot slotsBlock.view 0 .w64 4).Ready slotsHeap := ⟨slot, .inr rfl⟩
  have room : (wideSlot slotsBlock.view 0 .w64 4).Takes "a\x00b" := by
    show (Text.Wide.encode 4 "a\x00b").length ≤ largestBlock
    decide
  have zero : '\x00' ∈ "a\x00b".toList := by decide
  have refused : ¬ (narrowSlot slotsBlock.view 0 .w64).Takes "a\x00b" :=
    fun solid => solid zero
  obtain ⟨read, after, ran, found⟩ := exists_give ready room
  obtain ⟨failure, failed, named⟩ := exists_give_error
    (show (narrowSlot slotsBlock.view 0 .w64).Ready _ from slot) refused
  obtain ⟨fault, rfl⟩ := named rfl zero
  exact ⟨ready, ⟨read, after, ran, found, by decide⟩, fault, failed⟩

end Handover

end CInterop
