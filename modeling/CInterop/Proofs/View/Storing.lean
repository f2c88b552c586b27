import CInterop.Proofs.Text.Stored
import CInterop.Proofs.View.Conversion
import CInterop.Proofs.View.Effects

/-!
# The ways of storing a value

A value of a type without elements is stored in one of few ways: an instance may be copied, or its
address or number taken; any other value is a number, an address, or the parts of a composite
(`View.write_cases`). Each way says what the bytes of the slot are afterwards, but for a wide
character of an odd size, whose bytes do not stay in its slot.
-/

namespace CInterop

namespace View

/-- How a value was stored. -/
inductive Written (view : View) (type : CType) (offset : Nat) (heap after : Heap) : Value → Prop
  /-- An instance of the type is copied. -/
  | copied {x : Instance} (same : (x.type == type) = true)
    (ran : view.copyInstance offset x heap = (.ok (), after)) :
    Written view type offset heap after (.object x)
  /-- The address is taken that an instance of a pointer type holds. -/
  | held {x : Instance} (pointer : type.isPointer = true) (holder : x.type.isPointer = true)
    (ran : view.copyPointer type offset x heap = (.ok (), after)) :
    Written view type offset heap after (.object x)
  /-- The number is taken that an instance holds. -/
  | read {x : Instance} {number : Value} (numeric : type.isNumber = true)
    (scalar : x.type.isScalar = true) (found : x.value heap = .ok number)
    (ran : view.writeScalar type offset number heap = (.ok (), after)) :
    Written view type offset heap after (.object x)
  /-- A number is converted. -/
  | number {value : Value} (numeric : type.isNumber = true) (plain : ∀ x, value ≠ .object x)
    (ran : view.writeScalar type offset value heap = (.ok (), after)) :
    Written view type offset heap after value
  /-- The address of a value is taken. -/
  | address {value : Value} (pointer : type.isPointer = true)
    (apart : ∀ x, value = .object x → x.type.isPointer = false)
    (ran : view.writeScalar type offset value heap = (.ok (), after)) :
    Written view type offset heap after value
  /-- A wide character of an odd size is stored, whatever gives its bits. -/
  | stray {value : Value} (odd : type.isStray = true) : Written view type offset heap after value
  /-- The parts of a composite are stored. -/
  | parts {value : Value} (composite : type.isComposite = true) (plain : ∀ x, value ≠ .object x) :
    Written view type offset heap after value

variable {view : View} {type : CType} {offset : Nat} {heap after : Heap} {value : Value}

theorem written_of_writeScalar (plain : ∀ x, value ≠ .object x)
    (ran : view.writeScalar type offset value heap = (.ok (), after)) :
    Written view type offset heap after value := by
  cases type with
  | bool => exact .number rfl plain ran
  | int => exact .number rfl plain ran
  | float => exact .number rfl plain ran
  | pointer => exact .address rfl (fun x same => absurd same (plain x)) ran
  | stray => exact .stray rfl
  | void | array | composite => cases ran

/-- An instance that is not a scalar has no number. -/
theorem not_writeScalar_object {x : Instance} (numeric : type.isNumber = true)
    (whole : x.type.isScalar = false) :
    view.writeScalar type offset (.object x) heap ≠ (.ok (), after) := by
  have integral : x.type.isIntegral = false := by
    simp only [CType.isScalar, Bool.or_eq_false_iff] at whole
    exact whole.1.1
  have none : (Value.object x).integerBits heap type
      = .error (.typeMismatch "write" type.name "cdata") := by
    rw [Value.integerBits, integral]
    rfl
  have unread {store : UInt64 → HeapM Unit} :
      (do store (← liftM ((Value.object x).integerBits (← get) type))) heap ≠ (.ok (), after) := by
    intro ran
    obtain ⟨_, _, got, rest⟩ := HeapM.bind_eq_ok.mp ran
    cases got
    obtain ⟨bits, _, found, -⟩ := HeapM.bind_eq_ok.mp rest
    cases none.symm.trans (HeapM.lift_eq_ok.mp found).1
  intro ran
  cases type with
  | bool => exact unread ran
  | int => exact unread ran
  | float precision => cases precision <;> cases ran
  | _ => cases numeric

/-- The order in which the ways of storing an instance are tried. -/
theorem writeWhole_object (x : Instance) (flat : type.element? = none) :
    view.writeWhole type offset (.object x) =
      if x.type == type then view.copyInstance offset x
      else if x.type.isPointer && type.isPointer then view.copyPointer type offset x
      else if x.type.isScalar && type.isScalar && !type.isPointer then do
        view.writeScalar type offset (← liftM (x.value (← get)))
      else if type.isComposite then do
        let _ ← view.target offset type.size
        throw (.typeMismatch "write" type.name "cdata")
      else view.writeScalar type offset (.object x) := by
  cases type with
  | array => cases flat
  | _ => rfl

/-- An instance is copied to a slot of its own type. -/
theorem write_of_same {x : Instance} (same : (x.type == type) = true) :
    view.write type offset (.object x) = view.copyInstance offset x := by
  show view.writeWhole type offset (.object x) = _
  unfold writeWhole
  simp only [same, if_true]

/-- An instance of a scalar type is stored in a slot of another scalar type as what it holds. -/
theorem write_of_read {x : Instance} {plain : Value} (other : ¬(x.type == type) = true)
    (scalar_x : x.type.isScalar = true) (scalar : type.isScalar = true)
    (no_pointer : type.isPointer = false) (read : x.value heap = .ok plain) :
    view.write type offset (.object x) heap = view.writeScalar type offset plain heap := by
  have flat : type.element? = none := by
    cases type with
    | array => cases scalar
    | _ => rfl
  have scalars : (x.type.isScalar && type.isScalar && !false) = true := by
    rw [scalar_x, scalar]
    rfl
  show view.writeWhole type offset (.object x) heap = _
  rw [writeWhole_object x flat, if_neg other, no_pointer, Bool.and_false,
    if_neg Bool.false_ne_true, if_pos scalars, HeapM.bind_of_ok HeapM.get_run, read]
  rfl

/-- What is no instance is stored as a scalar in a slot that has no parts. -/
theorem write_of_plain (plain : ∀ x, value ≠ .object x) (flat : type.element? = none)
    (whole : type.isComposite = false) :
    view.write type offset value = view.writeScalar type offset value := by
  cases type with
  | array => cases flat
  | composite => cases whole
  | _ =>
    cases value with
    | object x => exact absurd rfl (plain x)
    | _ => rfl

theorem written_of_writeWhole {x : Instance} (flat : type.element? = none)
    (ran : view.writeWhole type offset (.object x) heap = (.ok (), after)) :
    Written view type offset heap after (.object x) := by
  rw [writeWhole_object x flat] at ran
  split at ran
  case isTrue same => exact .copied same ran
  split at ran
  case isTrue pointers =>
    rw [Bool.and_eq_true] at pointers
    exact .held pointers.2 pointers.1 ran
  case isFalse apart =>
  split at ran
  case isTrue scalars =>
    simp only [Bool.and_eq_true, Bool.not_eq_true'] at scalars
    obtain ⟨_, _, got, rest⟩ := HeapM.bind_eq_ok.mp ran
    cases got
    obtain ⟨number, _, look, stored⟩ := HeapM.bind_eq_ok.mp rest
    obtain ⟨found, rfl⟩ := HeapM.lift_eq_ok.mp look
    cases type with
    | bool | int | float => exact .read rfl scalars.1.1 found stored
    | stray => exact .stray rfl
    | pointer => cases scalars.2
    | void | array | composite => cases scalars.1.2
  case isFalse other =>
  split at ran
  case isTrue composite =>
    obtain ⟨_, _, -, failed⟩ := HeapM.bind_eq_ok.mp ran
    cases failed
  case isFalse whole =>
  have unread (scalar : type.isScalar = true) (number : type.isPointer = false) :
      x.type.isScalar = false := by
    rw [scalar, number] at other
    simpa using other
  cases type with
  | void => cases ran
  | array => cases flat
  | composite => exact absurd rfl whole
  | stray => exact .stray rfl
  | pointer =>
    refine .address rfl (fun y same => ?_) ran
    cases same
    simpa [CType.isPointer] using apart
  | bool => exact absurd ran (not_writeScalar_object rfl (unread rfl rfl))
  | int => exact absurd ran (not_writeScalar_object rfl (unread rfl rfl))
  | float => exact absurd ran (not_writeScalar_object rfl (unread rfl rfl))

/-- A value that was stored in a slot without elements was stored in one of these ways. -/
theorem write_cases (flat : type.element? = none)
    (ran : view.write type offset value heap = (.ok (), after)) :
    Written view type offset heap after value := by
  by_cases plain : ∀ x, value ≠ .object x
  · cases whole : type.isComposite with
    | true => exact .parts whole plain
    | false => exact written_of_writeScalar plain (write_of_plain plain flat whole ▸ ran)
  · obtain ⟨x, rfl⟩ := not_forall_not.mp plain
    exact written_of_writeWhole flat ran

/-! ## What is in the slot -/

variable {spot : Spot}

theorem copyInstance_eq_ok {x : Instance} (holds : spot.Holds x.type.size)
    (ran : spot.view.copyInstance spot.offset x heap = (.ok (), after)) :
    ∃ bytes, x.bytes heap = .ok bytes ∧ bytes.length = x.type.size
      ∧ after.memory = heap.memory.store spot.address bytes ∧ after.frontier = heap.frontier := by
  obtain ⟨_, _, got, rest⟩ := HeapM.bind_eq_ok.mp ran
  cases got
  obtain ⟨bytes, _, look, rest⟩ := HeapM.bind_eq_ok.mp rest
  obtain ⟨read, rfl⟩ := HeapM.lift_eq_ok.mp look
  have length := length_bytes read
  have located : spot.view.target spot.offset bytes.length heap = (.ok spot.address, heap) :=
    Spot.target_spot (length ▸ holds)
  obtain ⟨_, _, written, kept⟩ := HeapM.bind_eq_ok.mp rest
  obtain ⟨_, _, found, stored⟩ := HeapM.bind_eq_ok.mp written
  cases located.symm.trans found
  cases stored
  cases kept
  exact ⟨bytes, read, length, rfl, rfl⟩

theorem copyPointer_eq_ok {x : Instance} (holds : spot.Holds type.size)
    (ran : spot.view.copyPointer type spot.offset x heap = (.ok (), after)) :
    ∃ bytes, x.bytes heap = .ok bytes
      ∧ after.memory = heap.memory.storeWord spot.address type.size (Bytes.toWord bytes)
      ∧ after.frontier = heap.frontier := by
  obtain ⟨_, _, got, rest⟩ := HeapM.bind_eq_ok.mp ran
  cases got
  obtain ⟨bytes, _, look, rest⟩ := HeapM.bind_eq_ok.mp rest
  obtain ⟨read, rfl⟩ := HeapM.lift_eq_ok.mp look
  obtain ⟨_, _, written, kept⟩ := HeapM.bind_eq_ok.mp rest
  cases (Spot.writeWord_spot holds _).symm.trans written
  cases kept
  exact ⟨bytes, read, rfl, rfl⟩

theorem writePointer_eq_ok {target : Target} {width : Width} (holds : spot.Holds width.bytes)
    (ran : spot.view.writeScalar (.pointer target width) spot.offset value heap
      = (.ok (), after)) :
    ∃ address item middle,
      Heap.addressFor (.pointer target width) target value heap = (.ok (address, item), middle)
        ∧ after.memory = middle.memory.storeWord spot.address width.bytes address
        ∧ after.frontier = middle.frontier := by
  obtain ⟨_, _, located, rest⟩ := HeapM.bind_eq_ok.mp ran
  cases (Spot.target_spot holds).symm.trans located
  obtain ⟨⟨address, item⟩, middle, found, rest⟩ := HeapM.bind_eq_ok.mp rest
  cases rest
  exact ⟨address, item, middle, found, rfl, rfl⟩

end View

/-! ## Numbers -/

/-- The value of a number, or the number that an instance of a scalar type holds. -/
inductive Heap.Gives (heap : Heap) : Value → Value → Prop
  | itself (value : Value) : heap.Gives value value
  | held {x : Instance} {value : Value} (scalar : x.type.isScalar = true)
    (read : x.value heap = .ok value) : heap.Gives (.object x) value

namespace View

variable {type : CType} {heap after : Heap} {value : Value} (spot : Spot)

/-- What is in the slot of a number is the number converted, or a copy of an instance. -/
theorem number_of_written (numeric : type.isNumber = true) (holds : spot.Holds type.size)
    (written : spot.view.Written type spot.offset heap after value) :
    (∃ plain, heap.Gives value plain
        ∧ plain.Converts type (.ofWord type (after.memory.loadWord spot.address type.size)))
      ∨ ∃ x, value = .object x ∧ (x.type == type) = true
        ∧ x.value heap = .ok (.ofWord type (after.memory.loadWord spot.address type.size)) := by
  have apart : type.isPointer = false ∧ type.isComposite = false := by
    cases type <;> first | exact ⟨rfl, rfl⟩ | cases numeric
  cases written with
  | copied same ran =>
    rename_i x
    obtain ⟨reads, size, own⟩ := Value.ofWord_congr same numeric
    obtain ⟨bytes, read, length, stored, -⟩ := copyInstance_eq_ok (size ▸ holds) ran
    refine .inr ⟨x, rfl, same, ?_⟩
    rw [Instance.value_of_bytes own read, reads, stored,
      Memory.loadWord_store _ _ (length.trans size)]
  | held pointer => cases apart.1.symm.trans pointer
  | stray odd => cases (CType.not_stray_of_isNumber numeric).symm.trans odd
  | read _ scalar found ran =>
    refine .inl ⟨_, .held scalar found, ?_⟩
    exact Value.converts_writeScalar (fun y same => Instance.value_ne_object scalar (same ▸ found))
      numeric holds ran
  | number _ plain ran =>
    exact .inl ⟨value, .itself value, Value.converts_writeScalar plain numeric holds ran⟩
  | address pointer => cases apart.1.symm.trans pointer
  | parts composite => cases apart.2.symm.trans composite

end View

/-! ## Addresses -/

namespace Heap

variable {heap middle after : Heap} {target : Target} {value : Value} {address : UInt64}

/-- The address that a value stands for: an instance of a pointer type stands for the address that
it holds, any other instance for its own. A pointer whose address overflows stands for none. -/
def addressOf? (heap : Heap) : Value → Option UInt64
  | .null => some 0
  | .int i => some i.toUInt64
  | .uint u => some u
  | .pointer p => p.address.toOption
  | .object x =>
    if x.type.isPointer then (x.bytes heap).toOption.map Bytes.toWord else some x.address
  | _ => none

/-- What an address that was stored for a value refers to: it is the value's, or that of a copy of
a text. -/
inductive Refers (heap after : Heap) (target : Target) (address : UInt64) : Value → Prop
  | value {value : Value} (found : heap.addressOf? value = some address) :
    Refers heap after target address value
  | narrow {text : String} (narrow : target = .untyped ∨ target = .cstring)
    (fresh : address.toNat = heap.frontier) (solid : 0 ∉ Text.Utf8.encode text)
    (holds : after.Holds address (Text.Utf8.encode text ++ [0])) :
    Refers heap after target address (.text text)
  | wide {text : String} {unit : Nat} (wide : target = .wstring unit)
    (fresh : address.toNat = heap.frontier)
    (holds : after.Holds address (Text.Wide.encode unit text)) :
    Refers heap after target address (.text text)

theorem refers_of_addressFor {type : CType} {item : Option Kept}
    (apart : ∀ x, value = .object x → x.type.isPointer = false)
    (found : addressFor type target value heap = (.ok (address, item), middle))
    (words : middle.frontier ≤ Word.modulus) : Refers heap middle target address value := by
  cases value with
  | null =>
    cases found
    exact .value rfl
  | int i =>
    by_cases natural : 0 ≤ i
    · rw [addressFor, if_pos natural] at found
      cases found
      exact .value rfl
    · rw [addressFor, if_neg natural] at found
      cases found
  | uint u =>
    cases found
    exact .value rfl
  | pointer p =>
    obtain ⟨own, _, lifted, same⟩ := HeapM.bind_eq_ok.mp found
    obtain ⟨located, rfl⟩ := HeapM.lift_eq_ok.mp lifted
    cases same
    exact .value (congrArg Except.toOption located)
  | object x =>
    cases found
    refine .value ?_
    rw [addressOf?, apart x rfl]
    rfl
  | text s =>
    cases target with
    | untyped | cstring =>
      obtain ⟨⟨_, _⟩, _, stored, same⟩ := HeapM.bind_eq_ok.mp found
      cases same
      obtain ⟨fresh, solid, holds⟩ := storeText_eq_ok stored words
      exact .narrow (by simp) fresh solid holds
    | wstring unit =>
      obtain ⟨⟨_, _⟩, _, stored, same⟩ := HeapM.bind_eq_ok.mp found
      cases same
      obtain ⟨fresh, holds⟩ := storeWide_eq_ok stored words
      exact .wide rfl fresh holds
    | typed => cases found
  | _ => cases found

/-- What was stored behind a slot stays when the slot is filled. -/
theorem Refers.store (refers : Refers heap middle target address value) {start count : Nat}
    {word : UInt64} (before : start + count ≤ heap.frontier)
    (memory : after.memory = middle.memory.storeWord start count word)
    (frontier : after.frontier = middle.frontier) : Refers heap after target address value := by
  cases refers with
  | value found => exact .value found
  | narrow narrow fresh solid holds =>
    exact .narrow narrow fresh solid (holds.store (by simpa [fresh] using before) memory frontier)
  | wide wide fresh holds =>
    exact .wide wide fresh (holds.store (by simpa [fresh] using before) memory frontier)

end Heap

namespace View

variable {heap after : Heap} {value : Value} (spot : Spot)

/-- The address in a pointer slot refers to what was stored. -/
theorem refers_of_written {target : Target} (holds : spot.Holds 8)
    (behind : spot.address + 8 ≤ heap.frontier) (words : after.frontier ≤ Word.modulus)
    (written : spot.view.Written (.pointer target .w64) spot.offset heap after value) :
    Heap.Refers heap after target (after.memory.loadWord spot.address 8) value := by
  have again (memory : Memory) (word : UInt64) :
      (memory.storeWord spot.address 8 word).loadWord spot.address 8 = word :=
    Spot.loadWord_storeWord memory spot.address (by decide) fun i beyond => Bits.bit_of_ge _ beyond
  cases written with
  | copied same ran =>
    rename_i x
    obtain ⟨target', kind⟩ := CType.eq_of_same_pointer same
    have size : x.type.size = 8 := congrArg CType.size kind
    obtain ⟨bytes, read, length, stored, -⟩ := copyInstance_eq_ok (size ▸ holds) ran
    refine .value ?_
    rw [Heap.addressOf?, kind, read, stored, Memory.loadWord_store _ _ (length.trans size)]
    rfl
  | held _ holder ran =>
    obtain ⟨bytes, read, stored, -⟩ := copyPointer_eq_ok holds ran
    refine .value ?_
    rw [Heap.addressOf?, holder, read, stored]
    exact congrArg some (again heap.memory _).symm
  | address _ apart ran =>
    obtain ⟨address, item, middle, found, stored, frontier⟩ := writePointer_eq_ok holds ran
    have refers := Heap.refers_of_addressFor apart found (frontier ▸ words)
    have loaded : after.memory.loadWord spot.address 8 = address := by
      rw [stored]
      exact again middle.memory address
    rw [loaded]
    exact refers.store behind stored frontier
  | read numeric => cases numeric
  | number numeric => cases numeric
  | stray odd => cases odd
  | parts composite => cases composite

/-- An instance that was stored as a composite was copied byte by byte. -/
theorem bytes_of_written {layout : Layout} {x : Instance} (holds : spot.Holds layout.size)
    (written : spot.view.Written (.composite layout) spot.offset heap after (.object x)) :
    x.bytes heap = .ok (after.memory.load spot.address layout.size) := by
  cases written with
  | copied same ran =>
    obtain ⟨layout', kind, sizes⟩ := CType.eq_of_same_composite same
    have size : x.type.size = layout.size := (congrArg CType.size kind).trans sizes
    obtain ⟨bytes, read, length, stored, -⟩ := copyInstance_eq_ok (size ▸ holds) ran
    rw [read, stored, ← length.trans size, Memory.load_store]
  | held pointer => cases pointer
  | read numeric => cases numeric
  | number numeric => cases numeric
  | address pointer => cases pointer
  | stray odd => cases odd
  | parts _ plain => exact absurd rfl (plain x)

end View

end CInterop
