import CInterop.Call.Passing
import CInterop.Proofs.View.Storing

/-!
# What a callback sees of an argument

A call writes each argument to a slot, and a callback decodes the slots that it is entered with.
Decoding the slot of an argument gives a value that denotes the argument: numbers are converted to
the type of the parameter, pointers hold the address of the argument, texts are equal, and structs
have equal bytes (`Frame.decode_push`). Arrays are the exception: their slot holds the address of
the elements, but is decoded as if it held the elements themselves.
-/

namespace CInterop

/-- Pointers are as wide as addresses, and wide characters have a size that data models give
them. -/
def CType.OnHost : CType → Prop
  | .pointer (.wstring unit) width => width = .w64 ∧ Text.Wide.IsUnit unit
  | .pointer _ width => width = .w64
  | .stray _ => False
  | _ => True

namespace Heap

/-- What a narrow string pointer with an address stands for. -/
def textValue (heap : Heap) (address : UInt64) : Value :=
  if address = 0 then .null else .text (Text.Utf8.decode (heap.textAt address))

/-- What a wide string pointer with an address stands for. -/
def wideTextValue (heap : Heap) (unit : Nat) (address : UInt64) : Value :=
  if address = 0 then .null
  else .text (Text.Wide.decode unit (heap.wideTextAt unit address))

variable {heap : Heap} {address : UInt64} {text : String}

theorem textValue_of_holds (nonzero : address ≠ 0) (solid : 0 ∉ Text.Utf8.encode text)
    (holds : heap.Holds address (Text.Utf8.encode text ++ [0])) :
    heap.textValue address = .text text := by
  rw [textValue, if_neg nonzero, holds.textAt solid, Text.Utf8.decode_encode]

theorem wideTextValue_of_holds {unit : Nat} (nonzero : address ≠ 0) (wide : Text.Wide.IsUnit unit)
    (holds : heap.Holds address (Text.Wide.encode unit text)) :
    heap.wideTextValue unit address = .text (Text.Wide.beforeNul text) := by
  rw [wideTextValue, if_neg nonzero, holds.wideTextAt wide]

end Heap

namespace Frame

/-- A slot was opened in a heap, which is as before otherwise. -/
structure Opened (heap fresh : Heap) (slot : Block) (size : Nat) : Prop where
  length : slot.length = max size slotSize
  fits : slot.length ≤ Heap.largestBlock
  behind : slot.base + slot.length ≤ fresh.frontier
  rest : ∃ frontier nextId, fresh = { heap with frontier, nextId }

/-- A decoded value denotes an argument of a type. The heap `before` is the one in which the
argument was passed, `after` that in which its slot was filled, and `later` that in which it was
decoded. -/
inductive Denotes (before after later : Heap) (slot : Block) : CType → Value → Value → Prop
  /-- A number is converted as C would do it. -/
  | number {type : CType} {value plain decoded : Value} (gives : before.Gives value plain)
    (converts : plain.Converts type decoded) : Denotes before after later slot type value decoded
  /-- An instance of the type of the parameter is a number already. -/
  | copied {type : CType} {x : Instance} {decoded : Value} (numeric : type.isNumber = true)
    (same : (x.type == type) = true) (read : x.value before = .ok decoded) :
    Denotes before after later slot type (.object x) decoded
  /-- A pointer holds the address of the argument. -/
  | address {target : Target} {width : Width} {value : Value} {p : Pointer} {address : UInt64}
    (plain : target = .untyped ∨ ∃ pointee, target = .typed pointee)
    (pointee : p.target = target.pointee) (located : p.address = .ok address)
    (found : before.addressOf? value = some address) :
    Denotes before after later slot (.pointer target width) value (.pointer p)
  /-- An untyped pointer may hold the address of a copy of a text. -/
  | bytes {width : Width} {text : String} {p : Pointer} {address : UInt64}
    (pointee : p.target = .void) (located : p.address = .ok address)
    (found : after.textAt address = Text.Utf8.encode text) :
    Denotes before after later slot (.pointer .untyped width) (.text text) (.pointer p)
  /-- A narrow text arrives as it is. -/
  | text {width : Width} {text : String} :
    Denotes before after later slot (.pointer .cstring width) (.text text) (.text text)
  /-- An address is read as the text that lies there. -/
  | textAt {width : Width} {value : Value} {address : UInt64}
    (found : before.addressOf? value = some address) :
    Denotes before after later slot (.pointer .cstring width) value (after.textValue address)
  /-- A wide text arrives as it is, up to its first zero character. -/
  | wide {unit : Nat} {width : Width} {text : String} :
    Denotes before after later slot (.pointer (.wstring unit) width) (.text text)
      (.text (Text.Wide.beforeNul text))
  | wideAt {unit : Nat} {width : Width} {value : Value} {address : UInt64}
    (found : before.addressOf? value = some address) :
    Denotes before after later slot (.pointer (.wstring unit) width) value
      (after.wideTextValue unit address)
  /-- A struct arrives as an instance with the bytes that the argument was written as; these are the
  bytes of the argument if that is an instance. -/
  | struct {layout : Layout} {value : Value} {x : Instance} {fresh : Heap}
    (type : x.type = .composite layout) (opened : Opened before fresh slot layout.size)
    (written : slot.view.write (.composite layout) 0 value fresh = (.ok (), after))
    (bytes : x.bytes later = .ok (after.memory.load slot.base layout.size))
    (copied : ∀ source, value = .object source →
      source.bytes before = .ok (after.memory.load slot.base layout.size)) :
    Denotes before after later slot (.composite layout) value (.object x)

variable {frame pushed : Frame} {function : String} {position : Nat} {type : CType} {value : Value}
  {heap after : Heap} {slot : Block}

theorem blame_eq_ok {action : HeapM Unit}
    (ran : blame function position action heap = (.ok (), after)) :
    action heap = (.ok (), after) := by
  unfold blame at ran
  split at ran
  · cases ran
  · rename_i done
    cases ran
    exact done

theorem materialize_of_flat (flat : type.element? = none) (value : Value) :
    materialize type value = pure value := by
  cases type with
  | array => cases flat
  | _ => cases value <;> rfl

theorem decayed_of_flat (flat : type.element? = none) : decayed type = type := by
  cases type with
  | array => cases flat
  | _ => rfl

theorem opened_of_allocate {fresh : Heap} {size : Nat}
    (allocated : Heap.allocate (max size slotSize) heap = (.ok slot, fresh)) :
    Opened heap fresh slot size := by
  have fits := Heap.le_of_allocate_eq_ok allocated
  have ahead := Heap.frontier_reserve (max size slotSize) heap
  rw [Heap.allocate_run heap fits] at allocated
  cases allocated
  exact ⟨rfl, fits, Nat.le_of_lt ahead, _, _, rfl⟩

/-- A pushed argument was written to a fresh slot. -/
theorem push_eq_ok (flat : type.element? = none)
    (ran : frame.push function position type value heap = (.ok pushed, after)) :
    ∃ slot fresh, pushed = frame ++ [slot] ∧ Opened heap fresh slot type.size
      ∧ slot.view.write type 0 value fresh = (.ok (), after) := by
  obtain ⟨slot, fresh, allocated, rest⟩ := HeapM.bind_eq_ok.mp ran
  rw [materialize_of_flat flat, pure_bind, decayed_of_flat flat] at rest
  obtain ⟨_, _, written, same⟩ := HeapM.bind_eq_ok.mp rest
  cases same
  exact ⟨slot, fresh, rfl, opened_of_allocate allocated, blame_eq_ok written⟩

namespace Opened

variable {fresh : Heap} {size : Nat}

/-- The place at the start of a slot. -/
def start (slot : Block) : Spot := ⟨slot.view, 0⟩

theorem holds (opened : Opened heap fresh slot size) : (start slot).Holds size := by
  have length := opened.length
  refine ⟨?_⟩
  show 0 + size ≤ slot.length
  omega

theorem bytes_eq (opened : Opened heap fresh slot size) (x : Instance) :
    x.bytes fresh = x.bytes heap := by
  obtain ⟨frontier, nextId, rfl⟩ := opened.rest
  rfl

theorem addressOf_eq (opened : Opened heap fresh slot size) (value : Value) :
    fresh.addressOf? value = heap.addressOf? value := by
  obtain ⟨frontier, nextId, rfl⟩ := opened.rest
  cases value <;> rfl

theorem value_eq (opened : Opened heap fresh slot size) {x : Instance}
    (scalar : x.type.isScalar = true) : x.value fresh = x.value heap := by
  obtain ⟨frontier, nextId, rfl⟩ := opened.rest
  unfold Instance.value
  refine bind_congr fun window => ?_
  generalize x.type = type at scalar
  cases type with
  | float precision => cases precision <;> rfl
  | array => cases scalar
  | composite => cases scalar
  | _ => rfl

/-- What is stored behind a slot has an address that is not zero. -/
theorem ne_zero (opened : Opened heap fresh slot size) {address : UInt64}
    (new : address.toNat = fresh.frontier) : address ≠ 0 := by
  have length := opened.length
  have behind := opened.behind
  have used : 0 < slotSize := by decide
  rintro rfl
  have zero : (0 : UInt64).toNat = 0 := rfl
  omega

theorem gives (opened : Opened heap fresh slot size) {value plain : Value}
    (given : fresh.Gives value plain) : heap.Gives value plain := by
  cases given with
  | itself => exact .itself value
  | held scalar read => exact .held scalar ((opened.value_eq scalar).symm.trans read)

end Opened

/-- Decoding a number looks at its bytes only. -/
theorem decode_number (numeric : type.isNumber = true) (bytes : Bytes) (heap : Heap) :
    Value.decode type bytes heap
      = (.ok (.ofWord type (Bytes.toWord (bytes.take type.size))), heap) := by
  cases type with
  | bool => rfl
  | int => rfl
  | float precision => cases precision <;> rfl
  | _ => cases numeric

/-- Decoding a string pointer reads the text at its address. -/
theorem decode_text (width : Width) (bytes : Bytes) (heap : Heap) :
    Value.decode (.pointer .cstring width) bytes heap
      = (.ok (heap.textValue (Bytes.toWord (bytes.take width.bytes))), heap) := by
  unfold Value.decode Heap.textValue
  dsimp only
  split <;> rfl

theorem decode_wideText (unit : Nat) (width : Width) (bytes : Bytes) (heap : Heap) :
    Value.decode (.pointer (.wstring unit) width) bytes heap
      = (.ok (heap.wideTextValue unit (Bytes.toWord (bytes.take width.bytes))), heap) := by
  unfold Value.decode Heap.wideTextValue
  dsimp only
  split <;> rfl

/-- An instance that fills its block. -/
theorem viewRange_whole {block : Block} {size : Nat} (length : block.length = size) :
    block.viewRange 0 size = .ok ⟨block, 0, size⟩ :=
  bind_eq_ok.mpr ⟨_, View.locate_of_le (by rw [Block.view, length, Nat.zero_add]), rfl⟩

/-- Decoding a struct copies it to a fresh block. -/
theorem decode_composite (layout : Layout) (bytes : Bytes) (fits : layout.size ≤ Heap.largestBlock)
    (whole : layout.size ≤ bytes.length) (heap : Heap) :
    ∃ x later, Value.decode (.composite layout) bytes heap = (.ok (.object x), later)
      ∧ x.type = .composite layout ∧ x.bytes later = .ok (bytes.take layout.size) := by
  obtain ⟨block, fresh, allocated, size⟩ : ∃ block fresh,
      Heap.allocate layout.size heap = (.ok block, fresh) ∧ block.length = layout.size :=
    ⟨_, _, Heap.allocate_run heap fits, rfl⟩
  have seen := viewRange_whole size
  let x : Instance := ⟨.composite layout, block, 0⟩
  have placed : Instance.inBlock (.composite layout) block 0 = .ok x :=
    bind_eq_ok.mpr ⟨_, seen, rfl⟩
  refine ⟨x, { fresh with memory := fresh.memory.store block.base (bytes.take layout.size) },
    ?decoded, rfl, ?bytes⟩
  case decoded =>
    exact HeapM.bind_eq_ok.mpr ⟨block, fresh, allocated, HeapM.bind_eq_ok.mpr ⟨(), _, rfl,
      HeapM.bind_eq_ok.mpr ⟨x, _, HeapM.lift_eq_ok.mpr ⟨placed, rfl⟩, rfl⟩⟩⟩
  case bytes =>
    have length : (bytes.take layout.size).length = layout.size := List.length_take_of_le whole
    have loaded := fresh.memory.load_store block.base (bytes.take layout.size)
    rw [length] at loaded
    exact bind_eq_ok.mpr ⟨_, seen, bind_eq_ok.mpr
      ⟨_, View.locate_of_le (Nat.le_of_eq (Nat.zero_add _)), congrArg Except.ok loaded⟩⟩

/-- Decoding the bytes of a slot gives a value that denotes the argument. -/
def Arrives (before after : Heap) (slot : Block) (type : CType) (value : Value) : Prop :=
  ∃ decoded later,
    Value.decode type (after.memory.load slot.base slot.length) after = (.ok decoded, later)
      ∧ Denotes before after later slot type value decoded

variable {fresh : Heap}

theorem Opened.take {size : Nat} (opened : Opened heap fresh slot size) (memory : Memory) :
    (memory.load slot.base slot.length).take size = memory.load slot.base size :=
  Memory.take_load _ _ (opened.length ▸ Nat.le_max_left ..)

theorem arrives_number (numeric : type.isNumber = true)
    (opened : Opened heap fresh slot type.size)
    (written : slot.view.Written type 0 fresh after value) :
    Arrives heap after slot type value := by
  refine ⟨_, _, decode_number numeric _ after, ?_⟩
  rw [opened.take]
  rcases View.number_of_written (Opened.start slot) numeric opened.holds written with
    ⟨plain, given, converts⟩ | ⟨x, rfl, same, read⟩
  · exact .number (opened.gives given) converts
  · obtain ⟨-, -, own⟩ := Value.ofWord_congr same numeric
    have scalar := CType.isScalar_of_isNumber own
    exact .copied numeric same ((opened.value_eq scalar).symm.trans read)

theorem arrives_struct {layout : Layout} (opened : Opened heap fresh slot layout.size)
    (stored : slot.view.write (.composite layout) 0 value fresh = (.ok (), after)) :
    Arrives heap after slot (.composite layout) value := by
  have length := opened.length
  have fits := opened.fits
  obtain ⟨x, later, decoded, own, bytes⟩ := decode_composite layout
    (after.memory.load slot.base slot.length) (by omega) (by rw [Memory.length_load]; omega) after
  rw [opened.take] at bytes
  refine ⟨_, later, decoded, .struct own opened stored bytes ?_⟩
  rintro source rfl
  have written := View.write_cases rfl stored
  exact (opened.bytes_eq source).symm.trans
    (View.bytes_of_written (Opened.start slot) opened.holds written)

/-- The address that was stored for an argument is decoded to what denotes the argument. -/
theorem denotes_of_refers {target : Target} {width : Width} {bytes : Bytes} {address : UInt64}
    (opened : Opened heap fresh slot width.bytes) (host : (CType.pointer target width).OnHost)
    (found : Bytes.toWord (bytes.take width.bytes) = address)
    (refers : Heap.Refers fresh after target address value) :
    ∃ decoded, Value.decode (.pointer target width) bytes after = (.ok decoded, after)
      ∧ Denotes heap after after slot (.pointer target width) value decoded := by
  subst found
  cases refers with
  | value given =>
    rw [opened.addressOf_eq] at given
    have located := Place.address_ofAddress (Bytes.toWord (bytes.take width.bytes))
    cases target with
    | untyped => exact ⟨_, rfl, .address (.inl rfl) rfl located given⟩
    | typed pointee => exact ⟨_, rfl, .address (.inr ⟨pointee, rfl⟩) rfl located given⟩
    | cstring => exact ⟨_, decode_text .., .textAt given⟩
    | wstring => exact ⟨_, decode_wideText .., .wideAt given⟩
  | narrow narrow new solid holds =>
    rcases narrow with rfl | rfl
    · exact ⟨_, rfl, .bytes rfl (Place.address_ofAddress _) (holds.textAt solid)⟩
    · refine ⟨_, decode_text .., ?_⟩
      rw [Heap.textValue_of_holds (opened.ne_zero new) solid holds]
      exact .text
  | wide wide new holds =>
    subst wide
    refine ⟨_, decode_wideText .., ?_⟩
    rw [Heap.wideTextValue_of_holds (opened.ne_zero new) host.2 holds]
    exact .wide

theorem arrives_pointer {target : Target} {width : Width}
    (host : (CType.pointer target width).OnHost) (opened : Opened heap fresh slot width.bytes)
    (words : after.frontier ≤ Word.modulus)
    (written : slot.view.Written (.pointer target width) 0 fresh after value) :
    Arrives heap after slot (.pointer target width) value := by
  obtain rfl : width = .w64 := by
    cases target with
    | wstring => exact host.1
    | _ => exact host
  have behind : slot.base + 8 ≤ fresh.frontier := by
    have length : slot.length = max 8 slotSize := opened.length
    have ahead := opened.behind
    omega
  obtain ⟨decoded, ran, denotes⟩ := denotes_of_refers opened host
    (congrArg Bytes.toWord (opened.take after.memory))
    (View.refers_of_written (Opened.start slot) opened.holds behind words written)
  exact ⟨decoded, after, ran, denotes⟩

/-- What a callback decodes from the slot of an argument denotes the argument. -/
theorem decode_push {shape : Passed} (passable : type.passed = .ok shape)
    (flat : type.element? = none) (host : type.OnHost)
    (ran : frame.push function position type value heap = (.ok pushed, after))
    (words : after.frontier ≤ Word.modulus) :
    ∃ slot, pushed = frame ++ [slot] ∧ Arrives heap after slot type value := by
  obtain ⟨slot, fresh, rfl, opened, stored⟩ := push_eq_ok flat ran
  have written := View.write_cases flat stored
  refine ⟨slot, rfl, ?_⟩
  cases type with
  | void => cases passable
  | stray => exact host.elim
  | bool => exact arrives_number rfl opened written
  | int => exact arrives_number rfl opened written
  | float => exact arrives_number rfl opened written
  | pointer => exact arrives_pointer host opened words written
  | array => cases flat
  | composite => exact arrives_struct opened stored

theorem decode_push_text :
    let passed := push [] "puts" 1 (.pointer .cstring .w64) (.text "hi") Heap.empty
    (CType.pointer .cstring .w64).passed = .ok .address
      ∧ passed.2.frontier ≤ Word.modulus
      ∧ ∃ slot, passed.1 = .ok [slot]
        ∧ Arrives Heap.empty passed.2 slot (.pointer .cstring .w64) (.text "hi") := by
  intro passed
  have passable : (CType.pointer .cstring .w64).passed = .ok .address := rfl
  have ran : push [] "puts" 1 (.pointer .cstring .w64) (.text "hi") Heap.empty
      = (.ok [⟨0, 0x10000000000, 8, false⟩], passed.2) := rfl
  have words : passed.2.frontier ≤ Word.modulus := by decide
  obtain ⟨slot, same, arrives⟩ := decode_push passable rfl rfl ran words
  exact ⟨passable, words, slot, congrArg Except.ok same, arrives⟩

/-- An array of one unsigned byte. -/
def oneByte : CType := .array (.natural "uint8" .w8 false) 1

/-- An array is passed as the address of its elements, and this address is decoded as the elements:
77 arrives as 16, the lowest byte of the address. -/
theorem array_misread : ∃ slot after x later,
    push [] "f" 1 oneByte (.list [.uint 77]) Heap.empty = (.ok [slot], after)
      ∧ Value.decode oneByte (after.memory.load slot.base slot.length) after
          = (.ok (.object x), later)
      ∧ x.value later = .ok (.list [.uint 16])
      ∧ x.value later ≠ .ok (.list [.uint 77]) :=
  ⟨_, _, _, _, rfl, rfl, rfl, fun same => nomatch same⟩

end Frame

end CInterop
