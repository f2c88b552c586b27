import CInterop.Call.Frame
import CInterop.Proofs.Sameness
import CInterop.Proofs.View.RoundTrip

/-!
# Converting numbers

What C makes of a number that is stored as a value of a type: a signed type keeps the balanced
residue, an unsigned one the residue, a truth value only whether the number is zero; floating-point
types round. The bits that are stored for a number read as what it is converted to.
-/

namespace CInterop

namespace CType

/-- Integers, truth values and floating-point numbers that all bytes of their type are accessed
for. -/
def isNumber : CType → Bool
  | bool | int .. | float .. => true
  | _ => false

variable {type : CType}

theorem isScalar_of_isNumber (numeric : type.isNumber = true) : type.isScalar = true := by
  cases type <;> first | rfl | cases numeric

theorem isNumber_of_isIntegral (integral : type.isIntegral = true) (even : type.isStray = false) :
    type.isNumber = true := by
  cases type with
  | bool | int => rfl
  | stray => cases even
  | _ => cases integral

theorem not_stray_of_isNumber (numeric : type.isNumber = true) : type.isStray = false := by
  cases type <;> first | rfl | cases numeric

end CType

namespace Value

/-- The number that an integer or a truth value is. -/
def number? : Value → Option Int
  | int i => some i.toInt
  | uint u => some u.toNat
  | bool b => some (if b then 1 else 0)
  | _ => none

/-- A number as a value of a type. -/
inductive Converts : CType → Value → Value → Prop
  | bool {value : Value} {n : Int} (number : value.number? = some n) :
    Converts .bool value (.bool (n != 0))
  | signed {name : String} {width : Width} {align : Nat} {value : Value} {n : Int} {i : Int64}
    (number : value.number? = some n) (residue : i.toInt = n.bmod (2 ^ width.bits)) :
    Converts (.int name width true align) value (.int i)
  | unsigned {name : String} {width : Width} {align : Nat} {value : Value} {n : Int} {u : UInt64}
    (number : value.number? = some n) (residue : (u.toNat : Int) = n % 2 ^ width.bits) :
    Converts (.int name width false align) value (.uint u)
  | single {align : Nat} {value : Value} {word : UInt64} (number : value.toDouble? = some word) :
    Converts (.float .single align) value
      (.single (.ofNat (Number.binary64.convert Number.binary32 word.toNat)))
  | double {align : Nat} {value : Value} {word : UInt64} (number : value.toDouble? = some word) :
    Converts (.float .double align) value (.double word)

/-- The value of a scalar type that a word stands for. -/
def ofWord (type : CType) (word : UInt64) : Value :=
  match type with
  | .bool => .bool (word != 0)
  | .int _ width signed _ => .ofBits word width.bits signed
  | .float .single _ => .single word.toUInt32
  | .float .double _ => .double word
  | .pointer target _ => .pointer (.foreign target.pointee word)
  | _ => .void

/-- The bits of a number are its residue, and zero only for zero. -/
theorem plainBits_eq_ok {type : CType} {value : Value} {bits : UInt64}
    (found : plainBits type value = .ok bits) :
    ∃ n, value.number? = some n ∧ (bits.toNat : Int) = n % 2 ^ 64 ∧ (bits = 0 ↔ n = 0) := by
  cases value with
  | int i =>
    cases found
    have own : (i.toUInt64.toNat : Int) = i.toInt % 2 ^ 64 := by
      have same : i.toInt = (i.toUInt64.toNat : Int).bmod (2 ^ 64) :=
        BitVec.toInt_eq_toNat_bmod i.toBitVec
      have small : i.toUInt64.toNat < 2 ^ 64 := i.toUInt64.toBitVec.isLt
      have residue : (i.toUInt64.toNat : Int).bmod (2 ^ 64) % (2 ^ 64 : Nat)
          = (i.toUInt64.toNat : Int) % (2 ^ 64 : Nat) := Int.bmod_emod
      rw [same]
      omega
    refine ⟨_, rfl, own, ?_⟩
    have low : -2 ^ 63 ≤ i.toInt := i.le_toInt
    have high : i.toInt < 2 ^ 63 := i.toInt_lt
    rw [← UInt64.toNat_inj, UInt64.toNat_zero]
    omega
  | uint u =>
    cases found
    refine ⟨_, rfl, ?_, ?_⟩
    · have small : bits.toNat < 2 ^ 64 := bits.toBitVec.isLt
      omega
    · rw [← UInt64.toNat_inj]
      simp
  | bool b =>
    cases found
    cases b
    · exact ⟨_, rfl, rfl, by decide⟩
    · exact ⟨_, rfl, rfl, by decide⟩
  | _ => cases found

/-- The bits of a number read as the number converted to an integer type. -/
theorem converts_ofBits {type : CType} {value : Value} {bits : UInt64}
    (found : plainBits type value = .ok bits) (name : String) (width : Width) (signed : Bool)
    (align : Nat) : Converts (.int name width signed align) value
      (ofBits bits width.bits signed) := by
  obtain ⟨n, number, word, -⟩ := plainBits_eq_ok found
  cases signed with
  | true => exact .signed number (Bits.toInt_signExtend_of_emod word width.bits_pos width.bits_le)
  | false => exact .unsigned number (Bits.toNat_and_mask_of_emod word width.bits_le)

/-! ## Numbers in memory -/

variable {heap after : Heap} {spot : Spot} {type : CType} {value : Value}

theorem integerBits_of_plain (plain : ∀ x, value ≠ .object x) :
    value.integerBits heap type = plainBits type value := by
  cases value with
  | object x => exact absurd rfl (plain x)
  | _ => rfl

theorem doubleWord_eq_ok {word : UInt64} (found : value.doubleWord type = .ok word) :
    value.toDouble? = some word := by
  unfold doubleWord at found
  split at found
  · rename_i number
    cases found
    exact number
  · cases found

/-- A word that was found is stored. -/
theorem stored_word (outcome : Except Failure UInt64) (store : UInt64 → UInt64) {size : Nat}
    (holds : spot.Holds size)
    (ran : (liftM outcome >>= fun found => spot.view.writeWord spot.offset size (store found)) heap
      = (.ok (), after)) :
    ∃ found, outcome = .ok found
      ∧ after.memory = heap.memory.storeWord spot.address size (store found) := by
  obtain ⟨word, _, got, written⟩ := HeapM.bind_eq_ok.mp ran
  obtain ⟨found, rfl⟩ := HeapM.lift_eq_ok.mp got
  rw [Spot.writeWord_spot holds] at written
  cases written
  exact ⟨word, found, rfl⟩

theorem agree_storeWord (memory : Memory) (address : Nat) {size : Nat} (word : UInt64)
    (small : size ≤ 8) :
    Bits.Agree (8 * size) ((memory.storeWord address size word).loadWord address size) word :=
  fun _ below => Spot.bit_loadWord_storeWord memory address word below small

theorem loadWord_storeTruth (memory : Memory) (address : Nat) (bits : UInt64) :
    (memory.storeWord address 1 (if bits = 0 then 0 else 1)).loadWord address 1
      = if bits = 0 then 0 else 1 := by
  refine Spot.loadWord_storeWord memory address (by decide) fun i beyond => ?_
  split
  · simp [Bits.bit]
  · simp [Bits.bit, show i ≠ 0 by omega]

section

variable (plain : ∀ x, value ≠ .object x)

include plain

theorem converts_writeBool (holds : spot.Holds 1)
    (ran : spot.view.writeScalar .bool spot.offset value heap = (.ok (), after)) :
    Converts .bool value (.bool (after.memory.loadWord spot.address 1 != 0)) := by
  obtain ⟨bits, found, stored⟩ := stored_word (value.integerBits heap .bool)
    (fun bits => if bits = 0 then 0 else 1) holds ran
  rw [integerBits_of_plain plain] at found
  obtain ⟨n, is, -, zero⟩ := plainBits_eq_ok found
  have loaded : after.memory.loadWord spot.address 1 = if bits = 0 then 0 else 1 :=
    stored ▸ loadWord_storeTruth heap.memory spot.address bits
  have same : (after.memory.loadWord spot.address 1 != 0) = (n != 0) := by
    rw [loaded]
    by_cases clear : bits = 0
    · rw [if_pos clear, zero.mp clear]
      rfl
    · rw [if_neg clear, bne_iff_ne.mpr (mt zero.mpr clear)]
      rfl
  rw [same]
  exact .bool is

theorem converts_writeInt {name : String} {width : Width} {signed : Bool} {align : Nat}
    (holds : spot.Holds width.bytes)
    (ran : spot.view.writeScalar (.int name width signed align) spot.offset value heap
      = (.ok (), after)) :
    Converts (.int name width signed align) value
      (.ofBits (after.memory.loadWord spot.address width.bytes) width.bits signed) := by
  obtain ⟨bits, found, stored⟩ := stored_word (value.integerBits heap _) id holds ran
  rw [integerBits_of_plain plain] at found
  have read : ofBits (after.memory.loadWord spot.address width.bytes) width.bits signed
      = ofBits bits width.bits signed := by
    rw [stored]
    exact ofBits_congr width.bits_pos width.bits_le signed
      (agree_storeWord heap.memory spot.address bits width.bytes_le)
  rw [read]
  exact converts_ofBits found name width signed align

omit plain in
theorem converts_writeSingle {align : Nat} (holds : spot.Holds 4)
    (ran : spot.view.writeScalar (.float .single align) spot.offset value heap
      = (.ok (), after)) :
    Converts (.float .single align) value
      (.single (after.memory.loadWord spot.address 4).toUInt32) := by
  obtain ⟨double, found, stored⟩ := stored_word (value.doubleWord _)
    (fun word => .ofNat (Number.binary64.convert Number.binary32 word.toNat)) holds ran
  have read : (after.memory.loadWord spot.address 4).toUInt32
      = .ofNat (Number.binary64.convert Number.binary32 double.toNat) := by
    rw [stored]
    exact (Bits.toUInt32_congr (agree_storeWord heap.memory spot.address _
      (show 4 ≤ 8 by decide))).trans (UInt64.toUInt32_ofNat' _)
  rw [read]
  exact .single (doubleWord_eq_ok found)

omit plain in
theorem converts_writeDouble {align : Nat} (holds : spot.Holds 8)
    (ran : spot.view.writeScalar (.float .double align) spot.offset value heap
      = (.ok (), after)) :
    Converts (.float .double align) value (.double (after.memory.loadWord spot.address 8)) := by
  obtain ⟨double, found, stored⟩ := stored_word (value.doubleWord _) id holds ran
  have read : after.memory.loadWord spot.address 8 = double := by
    rw [stored]
    exact Spot.loadWord_storeWord heap.memory spot.address (show 8 ≤ 8 by decide)
      fun i beyond => Bits.bit_of_ge _ beyond
  rw [read]
  exact .double (doubleWord_eq_ok found)

/-- A number that is stored reads as what it is converted to. -/
theorem converts_writeScalar (number : type.isNumber = true) (holds : spot.Holds type.size)
    (ran : spot.view.writeScalar type spot.offset value heap = (.ok (), after)) :
    Converts type value (ofWord type (after.memory.loadWord spot.address type.size)) := by
  cases type with
  | bool => exact converts_writeBool plain holds ran
  | int => exact converts_writeInt plain holds ran
  | float precision =>
    cases precision with
    | single => exact converts_writeSingle holds ran
    | double => exact converts_writeDouble holds ran
  | _ => cases number

end

end Value

/-! ## Numbers in instances -/

variable {type : CType} {heap : Heap}

theorem Value.ofWord_congr {other : CType} (same : (other == type) = true)
    (numeric : type.isNumber = true) :
    ofWord other = ofWord type ∧ other.size = type.size ∧ other.isNumber = true := by
  cases type with
  | bool =>
    obtain rfl := CType.eq_of_same_bool same
    exact ⟨rfl, rfl, rfl⟩
  | int =>
    obtain ⟨_, rfl⟩ := CType.eq_of_same_int same
    exact ⟨rfl, rfl, rfl⟩
  | float =>
    obtain rfl := CType.eq_of_same_float same
    exact ⟨rfl, rfl, rfl⟩
  | _ => cases numeric

theorem Heap.pointerValue_ne_object {block : Block} {target : Target} {address : UInt64}
    {y : Instance} : heap.pointerValue block target address ≠ .object y := by
  unfold pointerValue
  cases target with
  | untyped | typed =>
    dsimp only
    split <;> intro same <;> cases same
  | cstring | wstring =>
    dsimp only
    split
    · intro same
      cases same
    · split <;> intro same <;> cases same

namespace Instance

/-- A number is read from the bytes of its instance. -/
theorem value_of_bytes {x : Instance} {bytes : Bytes} (numeric : x.type.isNumber = true)
    (read : x.bytes heap = .ok bytes) :
    x.value heap = .ok (.ofWord x.type (Bytes.toWord bytes)) := by
  obtain ⟨window, seen, read⟩ := bind_eq_ok.mp read
  obtain ⟨address, found, loaded⟩ := bind_eq_ok.mp read
  cases loaded
  have word {count : Nat} (whole : x.type.size = count) :
      window.readWord heap 0 count = .ok (heap.memory.loadWord address count) := by
    subst whole
    unfold View.readWord
    rw [found]
    rfl
  refine bind_eq_ok.mpr ⟨window, seen, ?_⟩
  cases kind : x.type with
  | bool => exact bind_eq_ok.mpr ⟨_, word (congrArg CType.size kind), rfl⟩
  | int => exact bind_eq_ok.mpr ⟨_, word (congrArg CType.size kind), rfl⟩
  | float precision =>
    cases precision <;> exact bind_eq_ok.mpr ⟨_, word (congrArg CType.size kind), rfl⟩
  | _ =>
    rw [kind] at numeric
    cases numeric

/-- No scalar has an instance as its value. -/
theorem value_ne_object {x y : Instance} (scalar : x.type.isScalar = true) :
    x.value heap ≠ .ok (.object y) := by
  intro read
  obtain ⟨window, -, read⟩ := bind_eq_ok.mp read
  generalize x.type = type at scalar read
  cases type with
  | bool | stray =>
    obtain ⟨_, -, same⟩ := bind_eq_ok.mp read
    cases same
  | int name width signed =>
    obtain ⟨_, -, same⟩ := bind_eq_ok.mp read
    cases signed <;> cases same
  | float precision =>
    cases precision <;> obtain ⟨_, -, same⟩ := bind_eq_ok.mp read <;> cases same
  | pointer target =>
    obtain ⟨_, -, same⟩ := bind_eq_ok.mp read
    exact Heap.pointerValue_ne_object (Except.ok.inj same)
  | _ => cases scalar

end Instance

end CInterop
