import CInterop.Proofs.Instance.Copying

/-!
# Numbers in slots of integral types

A value is stored as an integer or as a truth value if it is a number, or an instance that holds one
(`Heap.Number`), and only then. It is the bits of the number that are stored, of which a slot keeps
as many as it has: they are read as the residue of the number (`Value.residue_ofBits`). An instance
of the very type of the slot is copied instead (`View.write_integral`).
-/

namespace CInterop

namespace Value

variable {type : CType} {value : Value} {bits : UInt64} {n : Int} {width : Nat}

/-- The residue of a number that so many bits hold, in two's complement if they are signed. -/
inductive Residue (width : Nat) (n : Int) : Bool → Value → Prop
  | signed {i : Int64} (balanced : i.toInt = n.bmod (2 ^ width)) : Residue width n true (.int i)
  | unsigned {u : UInt64} (natural : (u.toNat : Int) = n % 2 ^ width) :
    Residue width n false (.uint u)

theorem residue_ofBits (word : (bits.toNat : Int) = n % 2 ^ 64) (positive : 0 < width)
    (small : width ≤ 64) (signed : Bool) : Residue width n signed (ofBits bits width signed) := by
  cases signed with
  | true => exact .signed (Bits.toInt_signExtend_of_emod word positive small)
  | false => exact .unsigned (Bits.toNat_and_mask_of_emod word small)

theorem exists_plainBits (number : value.number? = some n) (type : CType) :
    ∃ bits, plainBits type value = .ok bits := by
  cases value with
  | int i => exact ⟨_, rfl⟩
  | uint u => exact ⟨_, rfl⟩
  | bool b => exact ⟨_, rfl⟩
  | _ => cases number

theorem exists_plainBits_ofWord (integral : type.isIntegral = true) (even : type.isStray = false)
    (word : UInt64) : ∃ bits, plainBits type (ofWord type word) = .ok bits := by
  cases type with
  | bool => exact ⟨_, rfl⟩
  | int _ _ signed => cases signed <;> exact ⟨_, rfl⟩
  | stray => cases even
  | _ => cases integral

end Value

theorem CType.flat_of_isIntegral {type : CType} (integral : type.isIntegral = true) :
    type.element? = none ∧ type.isComposite = false ∧ type.isPointer = false := by
  cases type with
  | bool | int | stray => exact ⟨rfl, rfl, rfl⟩
  | _ => cases integral

namespace Heap

variable {heap : Heap} {type : CType} {value : Value} {bits : UInt64} {n : Int}

/-- A value is a number: an integer, a truth value, or an instance that holds one. -/
def Number (heap : Heap) (value : Value) (n : Int) : Prop :=
  ∃ plain, heap.Gives value plain ∧ plain.number? = some n

theorem number?_pointerValue (heap : Heap) (block : Block) (target : Target) (address : UInt64) :
    (heap.pointerValue block target address).number? = none := by
  unfold pointerValue
  cases target with
  | untyped | typed =>
    dsimp only
    split <;> rfl
  | cstring | wstring =>
    dsimp only
    split
    · rfl
    · split <;> rfl

/-- Only instances of integral types hold numbers. -/
theorem integral_of_number {x : Instance} (scalar : x.type.isScalar = true)
    (read : x.value heap = .ok value) (number : value.number? = some n) :
    x.type.isIntegral = true := by
  obtain ⟨window, -, read⟩ := bind_eq_ok.mp read
  generalize x.type = type at scalar read ⊢
  cases type with
  | bool | int | stray => rfl
  | float precision =>
    cases precision <;> obtain ⟨_, -, same⟩ := bind_eq_ok.mp read <;> cases same <;> cases number
  | pointer target =>
    obtain ⟨_, -, same⟩ := bind_eq_ok.mp read
    rw [← Except.ok.inj same, number?_pointerValue] at number
    cases number
  | _ => cases scalar

/-- The bits of a number are its residue, and zero only for zero. -/
theorem exists_integerBits (number : heap.Number value n) (type : CType) :
    ∃ bits, value.integerBits heap type = .ok bits ∧ (bits.toNat : Int) = n % 2 ^ 64
      ∧ (bits = 0 ↔ n = 0) := by
  obtain ⟨plain, gives, is⟩ := number
  obtain ⟨bits, found⟩ := Value.exists_plainBits is type
  obtain ⟨m, same, word, zero⟩ := Value.plainBits_eq_ok found
  cases is.symm.trans same
  refine ⟨bits, ?_, word, zero⟩
  cases gives with
  | itself =>
    rw [Value.integerBits_of_plain fun x same => ?_]
    · exact found
    · rw [same] at is
      cases is
  | held scalar read =>
    rw [Value.integerBits, if_pos (integral_of_number scalar read is)]
    exact bind_eq_ok.mpr ⟨plain, read, found⟩

/-- An instance has the bits of the number that it holds. -/
theorem integerBits_object {x : Instance}
    (found : (Value.object x).integerBits heap type = .ok bits) :
    x.type.isIntegral = true
      ∧ ∃ plain, x.value heap = .ok plain ∧ Value.plainBits type plain = .ok bits := by
  cases integral : x.type.isIntegral with
  | true =>
    rw [Value.integerBits, if_pos integral] at found
    exact ⟨rfl, bind_eq_ok.mp found⟩
  | false =>
    rw [Value.integerBits, integral] at found
    cases found

/-- An instance of an integral type that lies in its block holds a number. -/
theorem exists_number {x : Instance} (integral : x.type.isIntegral = true)
    (even : x.type.isStray = false) (inside : x.Inside) (heap : Heap) :
    ∃ n, heap.Number (.object x) n := by
  have numeric := CType.isNumber_of_isIntegral integral even
  have read := Instance.value_of_bytes numeric (Instance.bytes_of_inside inside heap)
  obtain ⟨bits, own⟩ := Value.exists_plainBits_ofWord integral even
    (Bytes.toWord (heap.memory.load (x.block.base + x.offset) x.type.size))
  obtain ⟨n, number, -⟩ := Value.plainBits_eq_ok own
  exact ⟨n, _, .held (CType.isScalar_of_isIntegral integral) read, number⟩

/-- Only numbers have bits. -/
theorem number_of_integerBits (found : value.integerBits heap type = .ok bits) :
    ∃ n, heap.Number value n ∧ (bits.toNat : Int) = n % 2 ^ 64 := by
  obtain ⟨plain, gives, own⟩ : ∃ plain, heap.Gives value plain
      ∧ Value.plainBits type plain = .ok bits := by
    by_cases plain : ∀ x, value ≠ .object x
    · exact ⟨value, .itself value, Value.integerBits_of_plain plain ▸ found⟩
    · obtain ⟨x, rfl⟩ := not_forall_not.mp plain
      obtain ⟨integral, held, read, own⟩ := integerBits_object found
      exact ⟨held, .held (CType.isScalar_of_isIntegral integral) read, own⟩
  obtain ⟨n, number, word, -⟩ := Value.plainBits_eq_ok own
  exact ⟨n, ⟨plain, gives, number⟩, word⟩

end Heap

/-! ## Stores -/

/-- The word that is stored for the bits of a number. A truth value is 0 or 1. -/
def CType.numeral (type : CType) (bits : UInt64) : UInt64 :=
  match type with
  | .bool => if bits = 0 then 0 else 1
  | _ => bits

namespace View

variable {spot : Spot} {heap after : Heap} {type : CType} {value : Value} {bits : UInt64}

theorem writeScalar_integral (integral : type.isIntegral = true) (even : type.isStray = false)
    (holds : spot.Holds type.size) (found : value.integerBits heap type = .ok bits) :
    spot.view.writeScalar type spot.offset value heap = (.ok (), { heap with
      memory := heap.memory.storeWord spot.address type.size (type.numeral bits) }) := by
  cases type with
  | bool | int =>
    unfold writeScalar
    dsimp only
    rw [HeapM.bind_of_ok HeapM.get_run, found]
    exact Spot.writeWord_spot holds _
  | stray => cases even
  | _ => cases integral

theorem integerBits_of_writeScalar (integral : type.isIntegral = true)
    (ran : spot.view.writeScalar type spot.offset value heap = (.ok (), after)) :
    ∃ bits, value.integerBits heap type = .ok bits := by
  cases type with
  | bool | int | stray =>
    obtain ⟨_, _, got, rest⟩ := HeapM.bind_eq_ok.mp ran
    cases got
    obtain ⟨bits, _, found, -⟩ := HeapM.bind_eq_ok.mp rest
    exact ⟨bits, (HeapM.lift_eq_ok.mp found).1⟩
  | _ => cases integral

/-- How a number is stored: an instance of the type is copied, any other number is converted. -/
theorem write_integral (integral : type.isIntegral = true) (even : type.isStray = false)
    (holds : spot.Holds type.size) (found : value.integerBits heap type = .ok bits) :
    (∃ x bytes after, value = .object x ∧ (x.type == type) = true ∧ x.bytes heap = .ok bytes
        ∧ spot.view.write type spot.offset value heap = (.ok (), after)
        ∧ after.memory = heap.memory.store spot.address bytes)
      ∨ (∀ x, value = .object x → (x.type == type) = false)
        ∧ spot.view.write type spot.offset value heap = (.ok (), { heap with
          memory := heap.memory.storeWord spot.address type.size (type.numeral bits) }) := by
  obtain ⟨flat, whole, no_pointer⟩ := CType.flat_of_isIntegral integral
  by_cases plain : ∀ x, value ≠ .object x
  · rw [write_of_plain plain flat whole]
    exact .inr ⟨fun x object => absurd object (plain x),
      writeScalar_integral integral even holds found⟩
  · obtain ⟨x, rfl⟩ := not_forall_not.mp plain
    obtain ⟨integral_x, plain, read, own⟩ := Heap.integerBits_object found
    have scalar_x := CType.isScalar_of_isIntegral integral_x
    by_cases same : (x.type == type) = true
    · have size := CType.size_eq_of_same same
      have inside := Instance.inside_of_value read
      rw [write_of_same same, Spot.copyInstance_spot (size ▸ holds) inside]
      exact .inl ⟨x, _, _, rfl, same, Instance.bytes_of_inside inside heap, rfl, rfl⟩
    · have found_plain : plain.integerBits heap type = .ok bits :=
        (Value.integerBits_of_plain fun y object =>
          Instance.value_ne_object scalar_x (object ▸ read)).trans own
      have other (y : Instance) (object : Value.object x = .object y) :
          (y.type == type) = false := by
        cases object
        exact eq_false_of_ne_true same
      rw [write_of_read same scalar_x (CType.isScalar_of_isIntegral integral) no_pointer read]
      exact .inr ⟨other, writeScalar_integral integral even holds found_plain⟩

/-- A slot of an integer type has the lowest bits of the number that is stored in it. -/
theorem exists_write_int {name : String} {width : Width} {signed : Bool} {align : Nat}
    (holds : spot.Holds width.bytes)
    (found : value.integerBits heap (.int name width signed align) = .ok bits) :
    ∃ after, spot.view.write (.int name width signed align) spot.offset value heap = (.ok (), after)
      ∧ Bits.Agree width.bits (after.memory.loadWord spot.address width.bytes) bits := by
  rcases write_integral rfl rfl holds found with ⟨x, bytes, after, rfl, same, own, ran, stored⟩ |
    ⟨-, ran⟩
  · -- A copy has the bits that the instance was read from.
    obtain ⟨reads, size, numeric⟩ := Value.ofWord_congr same rfl
    have read := Instance.value_of_bytes numeric own
    obtain ⟨-, plain, again, plain_bits⟩ := Heap.integerBits_object found
    cases read.symm.trans again
    rw [reads] at plain_bits
    obtain ⟨_, number_bits, agree⟩ := Value.plainBits_ofBits (.int name width signed align)
      (Bytes.toWord bytes) width.bits_pos width.bits_le signed
    cases plain_bits.symm.trans number_bits
    have loaded : after.memory.loadWord spot.address width.bytes = Bytes.toWord bytes :=
      stored ▸ Memory.loadWord_store _ _ ((length_bytes own).trans size)
    exact ⟨after, ran, fun i below => loaded ▸ (agree i below).symm⟩
  · exact ⟨_, ran, Value.agree_storeWord _ _ _ width.bytes_le⟩

/-- Only numbers are stored. -/
theorem integerBits_of_write (integral : type.isIntegral = true) (even : type.isStray = false)
    (holds : spot.Holds type.size)
    (ran : spot.view.write type spot.offset value heap = (.ok (), after)) :
    ∃ bits, value.integerBits heap type = .ok bits := by
  obtain ⟨flat, whole, no_pointer⟩ := CType.flat_of_isIntegral integral
  have numeric := CType.isNumber_of_isIntegral integral even
  have of_held {x : Instance} {plain : Value} (scalar : x.type.isScalar = true)
      (read : x.value heap = .ok plain) (found : ∃ bits, Value.plainBits type plain = .ok bits) :
      ∃ bits, (Value.object x).integerBits heap type = .ok bits := by
    obtain ⟨bits, own⟩ := found
    obtain ⟨n, number, -, -⟩ := Value.plainBits_eq_ok own
    obtain ⟨bits, found, -⟩ := Heap.exists_integerBits ⟨plain, .held scalar read, number⟩ type
    exact ⟨bits, found⟩
  cases write_cases flat ran with
  | @copied x same copied =>
    obtain ⟨reads, size, own⟩ := Value.ofWord_congr same numeric
    obtain ⟨bytes, found, -⟩ := copyInstance_eq_ok (size ▸ holds) copied
    have read := Instance.value_of_bytes own found
    rw [reads] at read
    exact of_held (CType.isScalar_of_isNumber own) read
      (Value.exists_plainBits_ofWord integral even _)
  | held pointer => cases no_pointer.symm.trans pointer
  | @read x plain _ scalar found stored =>
    have apart (y : Instance) : plain ≠ .object y := fun object =>
      Instance.value_ne_object scalar (found.trans (congrArg Except.ok object))
    obtain ⟨bits, own⟩ := integerBits_of_writeScalar integral stored
    exact of_held scalar found ⟨bits, Value.integerBits_of_plain apart ▸ own⟩
  | number _ _ stored => exact integerBits_of_writeScalar integral stored
  | stray odd => cases even.symm.trans odd
  | address pointer => cases no_pointer.symm.trans pointer
  | parts composite => cases whole.symm.trans composite

end View

end CInterop
