import CInterop.Callback
import CInterop.Proofs.Call.Decoding
import CInterop.Proofs.View.Integers

/-!
# Integers that callbacks return

A callback encodes the integer that its host function gives to a word: narrow types take their bits
of the number and widen them, those of a word go through a block of their own. Either way this is
what storing the number in memory would do (`Trampoline.encodeResult_iff_write`): the same values
are accepted, and what native code finds is read as the same integer.
-/

namespace CInterop

open HeapM

namespace Frame.Opened

variable {heap fresh : Heap} {slot : Block} {size : Nat}

/-- Taking memory for a slot leaves numbers as they are. -/
theorem integerBits_eq (opened : Opened heap fresh slot size) (type : CType) (value : Value) :
    value.integerBits fresh type = value.integerBits heap type := by
  cases value with
  | object x =>
    unfold Value.integerBits
    dsimp only
    split
    case isTrue integral => rw [opened.value_eq (CType.isScalar_of_isIntegral integral)]
    case isFalse => rfl
  | _ => rfl

end Frame.Opened

namespace Trampoline

/-- The word that native code finds for the bits of a number. -/
def widened (type : CType) (bits : UInt64) : UInt64 :=
  let low := bits &&& Bits.mask (8 * type.size)
  if type.isSigned then (Bits.signExtend low (8 * type.size)).toUInt64 else low

/-- Numbers below the size of a word are widened, and nothing is stored. -/
theorem encodeResult_narrow {type : CType} (integral : type.isIntegral = true)
    (small : type.size < 8) (value : Value) (heap : Heap) :
    encodeResult type value heap
      = ((value.integerBits heap type).map fun bits => (Bytes.ofWord 8 (widened type bits), none),
        heap) := by
  have narrow : (type.isIntegral && decide (type.size < Frame.slotSize)) = true := by
    rw [integral, Bool.true_and]
    exact decide_eq_true small
  have present : type.isVoid = false := by
    cases type <;> first | rfl | cases integral
  unfold encodeResult
  dsimp only
  rw [present, narrow, if_neg Bool.false_ne_true, if_pos rfl, bind_of_ok get_run]
  cases value.integerBits heap type <;> rfl

/-- Other values are stored in a block of their own. -/
theorem encodeResult_eq_ok {type : CType} (present : type.isVoid = false) (wide : 8 ≤ type.size)
    {value : Value} {heap after : Heap} {result : Bytes × Option Block} :
    encodeResult type value heap = (.ok result, after) ↔
      ∃ staging fresh, Heap.allocate type.size heap = (.ok staging, fresh)
        ∧ staging.view.write type 0 value fresh = (.ok (), after)
        ∧ result = (after.memory.load staging.base type.size,
            if (after.keptBy staging).isEmpty then none else some staging) := by
  have narrow : (type.isIntegral && decide (type.size < Frame.slotSize)) = false := by
    rw [decide_eq_false (show ¬ type.size < Frame.slotSize from Nat.not_lt.mpr wide),
      Bool.and_false]
  unfold encodeResult
  dsimp only
  rw [present, narrow, if_neg Bool.false_ne_true, if_neg Bool.false_ne_true, HeapM.bind_eq_ok]
  constructor
  · rintro ⟨staging, fresh, allocated, rest⟩
    obtain ⟨_, stored, written, same⟩ := HeapM.bind_eq_ok.mp rest
    cases same
    exact ⟨staging, fresh, allocated, written, rfl⟩
  · rintro ⟨staging, fresh, allocated, written, rfl⟩
    exact ⟨staging, fresh, allocated, HeapM.bind_eq_ok.mpr ⟨(), after, written, rfl⟩⟩

section

variable {name : String} {width : Width} {signed : Bool} {align : Nat} {value : Value}
  {heap after : Heap} {bits : UInt64} {bytes : Bytes}

/-- The word for an integer, read whole, is the integer. -/
theorem ofBits_widened (name : String) (width : Width) (signed : Bool) (align : Nat)
    (bits : UInt64) :
    Value.ofBits (widened (.int name width signed align) bits) 64 signed
      = Value.ofBits bits width.bits signed := by
  have low : Value.ofBits (bits &&& Bits.mask width.bits) width.bits signed
      = Value.ofBits bits width.bits signed :=
    Value.ofBits_congr width.bits_pos width.bits_le signed (Bits.agree_and_mask bits width.bits_le)
  rw [← low, Value.ofBits_word, widened]
  cases signed with
  | true => rfl
  | false =>
    -- Masking twice is masking once.
    have again : bits &&& Bits.mask width.bits &&& Bits.mask width.bits
        = bits &&& Bits.mask width.bits := by
      rw [UInt64.and_assoc, UInt64.and_self]
    exact congrArg Value.uint again.symm

theorem decodeResult_int (length : bytes.length = 8) (heap : Heap) :
    Value.decodeResult (.int name width signed align) bytes heap
      = (.ok (.ofBits (Bytes.toWord bytes) width.bits signed), heap) := by
  have whole : bytes.padded (max width.bytes Frame.slotSize) = bytes := by
    rw [Bytes.padded, show max width.bytes Frame.slotSize = 8 from Nat.max_eq_right width.bytes_le,
      length]
    exact List.append_nil bytes
  have decoded : Value.decodeResult (.int name width signed align) bytes heap
      = (.ok (.ofBits (Bytes.toWord (bytes.take width.bytes)) width.bits signed), heap) := by
    show Value.decode (.int name width signed align)
      (bytes.padded (max width.bytes Frame.slotSize)) heap = _
    rw [whole, Frame.decode_number rfl]
    rfl
  have low := Bytes.agree_take bytes width.bytes_le
  rw [decoded, Value.ofBits_congr width.bits_pos width.bits_le signed low]

/-- An integer is encoded as a word that, read whole, is the integer. -/
theorem exists_encodeResult
    (found : value.integerBits heap (.int name width signed align) = .ok bits) :
    ∃ bytes held after,
      encodeResult (.int name width signed align) value heap = (.ok (bytes, held), after)
        ∧ bytes.length = 8
        ∧ Value.ofBits (Bytes.toWord bytes) 64 signed = .ofBits bits width.bits signed := by
  let type := CType.int name width signed align
  by_cases small : width.bytes < 8
  · have ran := encodeResult_narrow (show type.isIntegral = true from rfl) small value heap
    rw [found] at ran
    refine ⟨_, _, _, ran, Bytes.length_ofWord _ _, ?_⟩
    rw [Bytes.toWord_ofWord fun i beyond => Bits.bit_of_ge _ beyond]
    exact ofBits_widened name width signed align bits
  · obtain rfl := Width.eq_w64 small
    obtain ⟨staging, fresh, allocated⟩ :
        ∃ staging fresh, Heap.allocate 8 heap = (.ok staging, fresh) :=
      ⟨_, _, Heap.allocate_run heap (by decide)⟩
    have opened : Frame.Opened heap fresh staging 8 := Frame.opened_of_allocate allocated
    obtain ⟨after, written, agree⟩ :=
      View.exists_write_int opened.holds ((opened.integerBits_eq _ value).trans found)
    have ran := (encodeResult_eq_ok (show type.isVoid = false from rfl) (Nat.le_refl 8)).mpr
      ⟨staging, fresh, allocated, written, rfl⟩
    refine ⟨_, _, after, ran, Memory.length_load _ _ _, ?_⟩
    exact Value.ofBits_congr (by decide) (by decide) signed agree

/-- Only numbers are encoded. -/
theorem integerBits_of_encodeResult {result : Bytes × Option Block}
    (ran : encodeResult (.int name width signed align) value heap = (.ok result, after)) :
    ∃ bits, value.integerBits heap (.int name width signed align) = .ok bits := by
  let type := CType.int name width signed align
  by_cases small : width.bytes < 8
  · have same := encodeResult_narrow (show type.isIntegral = true from rfl) small value heap
    rw [ran] at same
    cases found : value.integerBits heap (.int name width signed align) with
    | ok bits => exact ⟨bits, rfl⟩
    | error failure =>
      rw [found] at same
      cases same
  · obtain rfl := Width.eq_w64 small
    obtain ⟨staging, fresh, allocated, written, -⟩ :=
      (encodeResult_eq_ok (show type.isVoid = false from rfl) (Nat.le_refl 8)).mp ran
    have opened : Frame.Opened heap fresh staging type.size := Frame.opened_of_allocate allocated
    obtain ⟨bits, found⟩ :=
      View.integerBits_of_write (show type.isIntegral = true from rfl) rfl opened.holds written
    exact ⟨bits, (opened.integerBits_eq _ value).symm.trans found⟩

end

/-- A callback returns what can be stored in memory, and no more. The word that native code finds
is the residue of the number, its sign or zeros in front, and it is read as what memory is. -/
theorem encodeResult_iff_write (name : String) (width : Width) (signed : Bool) (align : Nat)
    (value : Value) (heap : Heap) {spot : Spot} (holds : spot.Holds width.bytes) :
    let type := CType.int name width signed align
    ((∃ result after, encodeResult type value heap = (.ok result, after))
        ↔ ∃ stored, spot.view.write type spot.offset value heap = (.ok (), stored))
      ∧ ∀ bytes held after stored,
          encodeResult type value heap = (.ok (bytes, held), after) →
          spot.view.write type spot.offset value heap = (.ok (), stored) →
            ∃ n result, heap.Number value n
              ∧ bytes.length = 8 ∧ result = .ofBits (Bytes.toWord bytes) 64 signed
              ∧ Value.Residue width.bits n signed result
              ∧ (∀ later, Value.decodeResult type bytes later = (.ok result, later))
              ∧ spot.Reads stored type result := by
  intro type
  have integral : type.isIntegral = true := rfl
  constructor
  · constructor
    · rintro ⟨result, after, ran⟩
      obtain ⟨bits, found⟩ := integerBits_of_encodeResult ran
      obtain ⟨stored, written, -⟩ := View.exists_write_int holds found
      exact ⟨stored, written⟩
    · rintro ⟨stored, written⟩
      obtain ⟨bits, found⟩ := View.integerBits_of_write integral rfl holds written
      obtain ⟨bytes, held, after, ran, -⟩ := exists_encodeResult found
      exact ⟨(bytes, held), after, ran⟩
  · intro bytes held after stored ran written
    obtain ⟨bits, found⟩ := integerBits_of_encodeResult ran
    obtain ⟨_, _, _, again, length, whole⟩ := exists_encodeResult found
    cases ran.symm.trans again
    obtain ⟨_, again, agree⟩ := View.exists_write_int holds found
    cases written.symm.trans again
    obtain ⟨n, number, word⟩ := Heap.number_of_integerBits found
    refine ⟨n, _, number, length, rfl, ?_, fun later => ?_, ?_⟩
    · rw [whole]
      exact Value.residue_ofBits word width.bits_pos width.bits_le signed
    · have low := Value.agree_of_ofBits width.bits_pos width.bits_le (Nat.le_refl 64) whole
      have same := Value.ofBits_congr width.bits_pos width.bits_le signed low
      rw [decodeResult_int length, same, whole]
    · rw [whole]
      have same := Value.ofBits_congr width.bits_pos width.bits_le signed agree
      exact (Spot.reads_int holds).mpr same.symm

/-- A number that two bytes do not hold, as the result of a callback and in memory. -/
theorem encodeResult_cut :
    let type := CType.natural "int16" .w16 true
    let spot : Spot := ⟨⟨⟨0, 0x10000000000, 8, false⟩, 0, 8⟩, 4⟩
    spot.Holds 2
      ∧ ∃ bytes held after stored,
        encodeResult type (.uint 0x2FFFE) .empty = (.ok (bytes, held), after)
          ∧ spot.view.write type spot.offset (.uint 0x2FFFE) .empty = (.ok (), stored)
          ∧ ∃ n result, Heap.Number .empty (.uint 0x2FFFE) n
            ∧ bytes.length = 8 ∧ result = .ofBits (Bytes.toWord bytes) 64 true
            ∧ Value.Residue 16 n true result
            ∧ (∀ later, Value.decodeResult type bytes later = (.ok result, later))
            ∧ spot.Reads stored type result := by
  intro type spot
  have holds : spot.Holds Width.w16.bytes := ⟨by decide⟩
  obtain ⟨alike, same⟩ :=
    encodeResult_iff_write "int16" .w16 true 2 (.uint 0x2FFFE) .empty holds
  have written : ∃ stored, spot.view.write type spot.offset (.uint 0x2FFFE) .empty
      = (.ok (), stored) := ⟨_, rfl⟩
  obtain ⟨⟨bytes, held⟩, after, ran⟩ := alike.mpr written
  obtain ⟨stored, written⟩ := written
  exact ⟨holds, bytes, held, after, stored, ran, written, same _ _ _ _ ran written⟩

end Trampoline

end CInterop
