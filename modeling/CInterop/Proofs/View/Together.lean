import CInterop.Instance
import CInterop.Proofs.Heap.Together
import CInterop.Proofs.View.Assembly

/-!
# What can be stored

Whether a value can be stored as a type at some place of a view is a matter of the value, the type
and the length of the view, not of what memory holds (`View.together_write`). What is read on the
way is a number of a kind that is known, or else the address in a pointer, which is no number.
-/

namespace CInterop

open HeapM

/-! ## Values that are read on the way -/

namespace Value

/-- What an address may stand for. -/
def isAddress : Value → Bool
  | null | text _ | pointer _ => true
  | _ => false

/-- Values that are numbers of one kind, or that addresses stand for, as when one scalar is read at
different times. -/
inductive Akin : Value → Value → Prop
  | itself (value : Value) : Akin value value
  | bool (b b' : Bool) : Akin (.bool b) (.bool b')
  | int (i i' : Int64) : Akin (.int i) (.int i')
  | uint (u u' : UInt64) : Akin (.uint u) (.uint u')
  | single (word word' : UInt32) : Akin (.single word) (.single word')
  | double (word word' : UInt64) : Akin (.double word) (.double word')
  | addresses {value other : Value} (first : value.isAddress = true)
      (second : other.isAddress = true) : Akin value other

theorem akin_ofBits (bits bits' : UInt64) (width : Nat) (signed : Bool) :
    Akin (ofBits bits width signed) (ofBits bits' width signed) := by
  cases signed with
  | true => exact .int _ _
  | false => exact .uint _ _

end Value

theorem Heap.isAddress_pointerValue (heap : Heap) (block : Block) (target : Target)
    (address : UInt64) : (heap.pointerValue block target address).isAddress = true := by
  unfold Heap.pointerValue
  dsimp only
  split
  case h_1 | h_2 =>
    split
    · rfl
    · split <;> rfl
  case h_3 => split <;> rfl

namespace View

theorem agree_readWord (heap heap' : Heap) (view : View) (offset count : Nat) :
    Agree Unrelated (view.readWord heap offset count) (view.readWord heap' offset count) :=
  (Agree.refl _).bind fun _ _ _ => .results trivial

theorem agree_readUnit (heap heap' : Heap) (view : View) (offset size : Nat) :
    Agree Unrelated (view.readUnit heap offset size) (view.readUnit heap' offset size) :=
  (Agree.refl _).bind fun _ _ _ => .results trivial

theorem agree_read {type : CType} (scalar : type.isScalar = true) (heap heap' : Heap)
    (view : View) (offset : Nat) :
    Agree Value.Akin (view.read heap type offset) (view.read heap' type offset) := by
  have word (count : Nat) := agree_readWord heap heap' view offset count
  cases type with
  | bool => exact (word 1).bind fun _ _ _ => .results (.bool _ _)
  | int => exact (word _).bind fun _ _ _ => .results (Value.akin_ofBits _ _ _ _)
  | stray size =>
    exact (agree_readUnit heap heap' view offset size).bind fun _ _ _ => .results (.uint _ _)
  | float precision =>
    cases precision with
    | single => exact (word 4).bind fun _ _ _ => .results (.single _ _)
    | double => exact (word 8).bind fun _ _ _ => .results (.double _ _)
  | pointer target width =>
    exact (word width.bytes).bind fun _ _ _ =>
      .results (.addresses (heap.isAddress_pointerValue ..) (heap'.isAddress_pointerValue ..))
  | void | array | composite => cases scalar

end View

namespace Instance

/-- Reading a scalar at different times gives values of one kind. -/
theorem agree_value {x : Instance} (scalar : x.type.isScalar = true) (heap heap' : Heap) :
    Agree Value.Akin (x.value heap) (x.value heap') := by
  unfold value
  cases x.view with
  | error failure => exact .failures failure failure
  | ok view => exact View.agree_read scalar heap heap' view 0

theorem agree_bytes (x : Instance) (heap heap' : Heap) :
    Agree (fun bytes other => bytes.length = other.length) (x.bytes heap) (x.bytes heap') := by
  unfold bytes View.readBytes
  cases x.view with
  | error failure => exact .failures failure failure
  | ok view =>
    refine (Agree.refl (view.locate "read" 0 x.type.size)).bind fun _ _ _ => .results ?_
    rw [Memory.length_load, Memory.length_load]

end Instance

namespace Value.Akin

variable {value other : Value}

theorem agree_plainBits (akin : Akin value other) (type : CType) :
    Agree Unrelated (plainBits type value) (plainBits type other) := by
  cases akin with
  | itself => exact .refl _
  | bool | int | uint => exact .results trivial
  | single | double => exact .failures _ _
  | addresses first second =>
    cases value <;> cases first
    all_goals cases other <;> cases second
    all_goals exact .failures _ _

theorem agree_doubleWord (akin : Akin value other) (type : CType) :
    Agree Unrelated (value.doubleWord type) (other.doubleWord type) := by
  cases akin with
  | itself => exact .refl _
  | int | uint | single | double => exact .results trivial
  | bool => exact .failures _ _
  | addresses first second =>
    cases value <;> cases first
    all_goals cases other <;> cases second
    all_goals exact .failures _ _

theorem agree_integerBits (akin : Akin value other) (heap heap' : Heap) (type : CType) :
    Agree Unrelated (value.integerBits heap type) (other.integerBits heap' type) := by
  cases akin with
  | itself =>
    cases value with
    | object x =>
      unfold integerBits
      dsimp only
      split
      case isTrue integral =>
        have read := x.agree_value (CType.isScalar_of_isIntegral integral) heap heap'
        exact read.bind fun _ _ found => found.agree_plainBits type
      case isFalse => exact .refl _
    | _ => exact .refl _
  | bool | int | uint => exact .results trivial
  | single | double => exact .failures _ _
  | addresses first second =>
    cases value <;> cases first
    all_goals cases other <;> cases second
    all_goals exact .failures _ _

end Value.Akin

/-! ## Stores -/

namespace View

variable {view other : View} {type : CType} {value : Value}

theorem together_target (same : view.length = other.length) (offset length : Nat) :
    Together Unrelated (view.target offset length) (other.target offset length) := by
  refine together_lift ?_
  unfold locate
  rw [same]
  split
  · exact .results trivial
  · exact .failures _ _

theorem together_located (same : view.length = other.length) (offset length : Nat)
    (change change' : Nat → Memory → Memory) :
    Together Unrelated (do Heap.onMemory (change (← view.target offset length)))
      (do Heap.onMemory (change' (← other.target offset length))) :=
  (together_target same offset length).bind fun _ _ _ =>
    together_of_total (total_onMemory _) (total_onMemory _)

theorem together_integerBits {value value' : Value} (akin : value.Akin value')
    {next next' : UInt64 → HeapM Unit}
    (rest : ∀ bits bits', Together Unrelated (next bits) (next' bits')) :
    Together Unrelated (do next (← liftM (value.integerBits (← get) type)))
      (do next' (← liftM (value'.integerBits (← get) type))) :=
  together_get.bind fun heap heap' _ =>
    (together_lift (akin.agree_integerBits heap heap' type)).bind fun _ _ _ => rest _ _

theorem together_keep (offset length : Nat) (item item' : Option Kept) :
    Together Unrelated (view.keep offset length item) (other.keep offset length item') :=
  together_of_total (total_modify _) (total_modify _)

theorem together_writePointer {target : Target} {value' : Value}
    (same : view.length = other.length) (width : Width) (offset : Nat)
    (address : Together Unrelated (Heap.addressFor (.pointer target width) target value)
      (Heap.addressFor (.pointer target width) target value')) :
    Together Unrelated (view.writeScalar (.pointer target width) offset value)
      (other.writeScalar (.pointer target width) offset value') := by
  unfold writeScalar
  refine (together_target same offset width.bytes).bind fun _ _ _ => address.bind fun _ _ _ => ?_
  exact (together_of_total (total_onMemory _) (total_onMemory _)).bind fun _ _ _ =>
    together_keep _ _ _ _

theorem together_writeScalar {value' : Value} (same : view.length = other.length)
    (akin : value.Akin value') (address : type.isPointer = true → value = value') (offset : Nat) :
    Together Unrelated (view.writeScalar type offset value)
      (other.writeScalar type offset value') := by
  have word (count : Nat) (word word' : UInt64) : Together Unrelated
      (view.writeWord offset count word) (other.writeWord offset count word') :=
    together_located same offset count _ _
  cases type with
  | bool => exact together_integerBits akin fun _ _ => word 1 _ _
  | int => exact together_integerBits akin fun _ _ => word _ _ _
  | stray => exact together_integerBits akin fun _ _ => together_located same offset _ _ _
  | float precision =>
    cases precision with
    | single => exact (together_lift (akin.agree_doubleWord _)).bind fun _ _ _ => word 4 _ _
    | double => exact (together_lift (akin.agree_doubleWord _)).bind fun _ _ _ => word 8 _ _
  | pointer target width =>
    obtain rfl := address rfl
    exact together_writePointer same width offset (Heap.together_addressFor _ target value)
  | void | array | composite => exact together_throw _ _

theorem together_copyInstance (same : view.length = other.length) (offset : Nat)
    (source : Instance) :
    Together Unrelated (view.copyInstance offset source) (other.copyInstance offset source) := by
  refine together_get.bind fun heap heap' _ => ?_
  refine (together_lift (source.agree_bytes heap heap')).bind fun bytes bytes' length => ?_
  unfold writeBytes
  rw [length]
  exact (together_located same offset _ _ _).bind fun _ _ _ => together_keep _ _ _ _

theorem together_copyPointer (same : view.length = other.length) (offset : Nat)
    (source : Instance) :
    Together Unrelated (view.copyPointer type offset source)
      (other.copyPointer type offset source) := by
  refine together_get.bind fun heap heap' _ => ?_
  refine (together_lift (source.agree_bytes heap heap')).bind fun _ _ _ => ?_
  exact (together_located same offset _ _ _).bind fun _ _ _ => together_keep _ _ _ _

theorem together_writeText (same : view.length = other.length) (count offset : Nat)
    (text : String) :
    Together Unrelated (view.writeText type count offset text)
      (other.writeText type count offset text) := by
  unfold writeText
  dsimp only
  split
  case isTrue =>
    refine (together_located same offset _ _ _).bind fun _ _ _ => ?_
    split
    case isTrue => exact together_located same _ 1 _ _
    case isFalse => exact together_pure trivial
  case isFalse => exact together_throw _ _

theorem together_writeBits (same : view.length = other.length) (offset : Nat) (slot : BitSlot)
    (value : Value) :
    Together Unrelated (view.writeBits type offset slot value)
      (other.writeBits type offset slot value) :=
  together_integerBits (.itself value) fun _ _ =>
    (together_target same offset _).bind fun _ _ _ => (together_lift (.refl _)).bind fun _ _ _ =>
      together_of_total (total_onMemory _) (total_onMemory _)

/-! ## Writes -/

/-- Writes through views of one length fail on the same grounds. -/
theorem together_write (same : view.length = other.length) (type : CType) (offset : Nat)
    (value : Value) :
    Together Unrelated (view.write type offset value) (other.write type offset value) := by
  have assembly : Assembly view other (Together Unrelated) (fun _ _ => True)
      (fun _ _ _ => True) :=
    { done := together_pure trivial
      -- What a scalar holds may differ between the heaps, but not its kind. Where it would count,
      -- at a pointer, no number is stored.
      refused := fun failure => together_throw failure failure
      located := fun offset length _ _ rest =>
        (together_target same offset length).bind fun _ _ _ => rest
      both := fun first rest => first.bind fun _ _ _ => rest
      scalar := fun value _ => together_writeScalar same (.itself value) (fun _ => rfl) _
      number := fun _ from_scalar _ plain => together_get.bind fun heap heap' _ =>
        (together_lift (Instance.agree_value from_scalar heap heap')).bind fun _ _ akin =>
          together_writeScalar same akin
            (fun pointer => absurd (plain.symm.trans pointer) Bool.false_ne_true) _
      copied := fun _ _ => together_copyInstance same _ _
      held := fun _ _ _ => together_copyPointer same _ _
      text := fun text _ _ => together_writeText same _ _ text
      bits := fun value _ => together_writeBits same _ _ value
      item := fun _ _ => trivial
      member := fun _ _ => memberFits_true _ _ }
  exact assembly.write type offset value trivial

end View

namespace Instance

/-- Whether a type can hold a value is the same for every instance of it. -/
theorem together_setValue {x y : Instance} (type : x.type = y.type) (offset : x.offset = y.offset)
    (length : x.block.length = y.block.length) (value : Value) :
    Together Unrelated (x.setValue value) (y.setValue value) := by
  have views : Agree (fun view other => view.length = other.length) x.view y.view := by
    unfold view Block.viewRange View.locate Block.view
    rw [type, offset, length]
    split
    · exact .results rfl
    · exact .failures _ _
  unfold setValue
  rw [type]
  exact (together_lift views).bind fun _ _ same => View.together_write same _ _ _

end Instance

end CInterop
