import CInterop.Proofs.Call.Decoding
import CInterop.Proofs.Call.Slots
import CInterop.Proofs.View.Integers

/-!
# Arguments behind the declared ones

The type of such an argument follows from its value, and is widened as C does it: integers are at
least as wide as `int`, and floating-point numbers are doubles. Nothing is lost on the way. The type
that is inferred for a number represents it exactly (`CType.Admits`), the widened type does so too,
and the slot reads as the number, text or address that the argument is (`Frame.push_variadic`).
-/

namespace CInterop

open HeapM

namespace CType

/-! ## Widened types -/

/-- The integer type `int` of the host. -/
def hostInt : CType := .natural "int32" .w32 true

/-- The type that an argument of some type is passed as behind the declared arguments. -/
def widened : CType → CType
  | .bool => hostInt
  | .int name width signed align =>
    if width.bytes < 4 then hostInt else .int name width signed align
  | .stray bytes => if bytes < 4 then hostInt else .stray bytes
  | .float .single _ => .float .double 8
  | other => other

theorem promoted_host (type : CType) : type.promoted .host = .ok type.widened := by
  cases type with
  | int name width => cases width <;> rfl
  | stray bytes =>
    show (.ok (if bytes < 4 then hostInt else .stray bytes) : Except Failure CType) = _
    rw [widened]
  | float precision => cases precision <;> rfl
  | _ => rfl

/-- Types that arguments behind the declared ones may have: no truth values, no integers narrower
than `int`, and no single floating-point numbers. -/
structure Wide (type : CType) : Prop where
  number : type ≠ .bool
  integral : type.isIntegral = true → 4 ≤ type.size
  float : ∀ align, type ≠ .float .single align

theorem wide_hostInt : hostInt.Wide := ⟨nofun, fun _ => by decide, nofun⟩

theorem wide_widened (type : CType) : type.widened.Wide := by
  cases type with
  | int name width =>
    cases width
    case w8 | w16 => exact wide_hostInt
    case w32 | w64 => exact ⟨nofun, fun _ => Nat.le_of_ble_eq_true rfl, nofun⟩
  | bool => exact wide_hostInt
  | stray bytes =>
    rw [widened]
    split
    case isTrue => exact wide_hostInt
    case isFalse small => exact ⟨nofun, fun _ => Nat.not_lt.mp small, nofun⟩
  | float precision => cases precision <;> exact ⟨nofun, nofun, nofun⟩
  | _ => exact ⟨nofun, nofun, nofun⟩

/-- Wide types are passed as they are. -/
theorem Wide.widened_eq {type : CType} (wide : type.Wide) : type.widened = type := by
  cases type with
  | bool => exact absurd rfl wide.number
  | int name width signed align => exact if_neg (Nat.not_lt.mpr (wide.integral rfl))
  | stray bytes => exact if_neg (Nat.not_lt.mpr (wide.integral rfl))
  | float precision align =>
    cases precision
    · exact absurd rfl (wide.float align)
    · rfl
  | _ => rfl

/-- What is widened is of the same class. -/
theorem class_widened (type : CType) : type.widened.isIntegral = type.isIntegral
    ∧ type.widened.isPointer = type.isPointer := by
  cases type with
  | int name width => cases width <;> exact ⟨rfl, rfl⟩
  | stray bytes =>
    rw [widened]
    split <;> exact ⟨rfl, rfl⟩
  | float precision => cases precision <;> exact ⟨rfl, rfl⟩
  | _ => exact ⟨rfl, rfl⟩

theorem isNumber_widened {type : CType} (numeric : type.isNumber = true) :
    type.widened.isNumber = true := by
  cases type with
  | int name width => cases width <;> rfl
  | bool => rfl
  | float precision => cases precision <;> rfl
  | _ => cases numeric

theorem not_stray_widened {type : CType} (even : type.isStray = false) :
    type.widened.isStray = false := by
  cases type with
  | int name width => cases width <;> rfl
  | stray => cases even
  | float precision => cases precision <;> rfl
  | _ => rfl

/-- What is widened fits the smallest slot. -/
theorem widened_small {type : CType} (scalar : type.isScalar = true)
    (even : type.isStray = false) :
    type.widened.element? = none ∧ type.widened.size ≤ Frame.slotSize := by
  cases type with
  | stray => cases even
  | bool => exact ⟨rfl, by decide⟩
  | int name width => cases width <;> exact ⟨rfl, Nat.le_of_ble_eq_true rfl⟩
  | float precision => cases precision <;> exact ⟨rfl, Nat.le_of_ble_eq_true rfl⟩
  | pointer target width => exact ⟨rfl, width.bytes_le⟩
  | _ => cases scalar

/-! ## Numbers that types represent -/

/-- The numbers of an integral type. -/
def Spans (type : CType) (n : Int) : Prop :=
  match type with
  | .bool => n = 0 ∨ n = 1
  | .int _ width true _ => -2 ^ (width.bits - 1) ≤ n ∧ n < 2 ^ (width.bits - 1)
  | .int _ width false _ => 0 ≤ n ∧ n < 2 ^ width.bits
  | _ => False

theorem Spans.widened {type : CType} {n : Int} (spans : type.Spans n) : type.widened.Spans n := by
  cases type with
  | bool =>
    simp only [Spans, CType.widened, hostInt, natural, Width.bits, Width.bytes] at spans ⊢
    omega
  | int name width signed =>
    cases width <;> cases signed <;>
      simp [Spans, CType.widened, hostInt, natural, Width.bits, Width.bytes] at spans ⊢ <;> omega
  | _ => cases spans

theorem bmod_eq_self {width : Width} {n : Int} (low : -2 ^ (width.bits - 1) ≤ n)
    (high : n < 2 ^ (width.bits - 1)) : n.bmod (2 ^ width.bits) = n := by
  refine Int.bmod_eq_of_le_mul_two ?_ ?_ <;> cases width <;>
    simp only [Width.bits, Width.bytes] at low high ⊢ <;> omega

theorem bmod_bounds (width : Width) (n : Int) :
    -2 ^ (width.bits - 1) ≤ n.bmod (2 ^ width.bits)
      ∧ n.bmod (2 ^ width.bits) < 2 ^ (width.bits - 1) := by
  have low := Int.le_bmod (x := n) (Nat.two_pow_pos width.bits)
  have high := Int.bmod_lt (x := n) (Nat.two_pow_pos width.bits)
  cases width <;> simp only [Width.bits, Width.bytes] at low high ⊢ <;> omega

/-- A number that a type represents is converted to itself. -/
theorem Spans.number_of_converts {type : CType} {n : Int} {plain decoded : Value}
    (spans : type.Spans n) (number : plain.number? = some n)
    (converts : plain.Converts type decoded) : decoded.number? = some n := by
  cases converts with
  | bool own =>
    cases number.symm.trans own
    rcases spans with rfl | rfl <;> rfl
  | signed own residue =>
    cases number.symm.trans own
    rw [Value.number?, residue, bmod_eq_self spans.1 spans.2]
  | unsigned own residue =>
    cases number.symm.trans own
    rw [Value.number?, residue, Int.emod_eq_of_lt spans.1 spans.2]
  | _ => cases spans

/-- What a number is converted to is represented by the type. -/
theorem spans_of_converts {type : CType} {plain decoded : Value} (integral : type.isIntegral = true)
    (converts : plain.Converts type decoded) :
    ∃ n, decoded.number? = some n ∧ type.Spans n := by
  cases converts with
  | @bool _ n =>
    refine ⟨_, rfl, ?_⟩
    cases n != 0
    · exact .inl rfl
    · exact .inr rfl
  | @signed _ width _ _ n _ _ residue =>
    refine ⟨_, rfl, ?_⟩
    rw [residue]
    exact bmod_bounds width n
  | @unsigned _ width _ _ n _ _ residue =>
    refine ⟨_, rfl, ?_⟩
    have positive : (0 : Int) < 2 ^ width.bits := Int.pow_pos (by decide)
    rw [residue]
    exact ⟨Int.emod_nonneg n (Int.ne_of_gt positive), Int.emod_lt_of_pos n positive⟩
  | _ => cases integral

end CType

/-! ## What arguments are worth -/

/-- What a callee learns from an argument. -/
inductive Payload where
  | integer (n : Int)
  | double (word : UInt64)
  | text (s : String)
  | address (word : UInt64)

namespace Value

/-- What a value that is no instance is worth; a floating-point number is worth a double, and a
pointer whose address overflows nothing. -/
def worth? : Value → Option Payload
  | int i => some (.integer i.toInt)
  | uint u => some (.integer u.toNat)
  | bool b => some (.integer (if b then 1 else 0))
  | single word => some (.double (.ofNat (Number.binary32.convert Number.binary64 word.toNat)))
  | double word => some (.double word)
  | text s => some (.text s)
  | null => some (.address 0)
  | pointer p => p.address.toOption.map .address
  | _ => none

/-- What an argument is worth: an instance of a number its value, an instance of a pointer type the
address that it holds, any other instance its own address. -/
def payload? (heap : Heap) : Value → Option Payload
  | object x =>
    if x.type.isNumber then (x.value heap).toOption.bind worth?
    else (heap.addressOf? (.object x)).map .address
  | value => value.worth?

theorem worth_of_number {value : Value} {n : Int} (number : value.number? = some n) :
    value.worth? = some (.integer n) := by
  cases value with
  | int | uint | bool => exact congrArg (Option.map Payload.integer) number
  | _ => cases number

theorem Converts.ne_object {type : CType} {value decoded : Value}
    (converts : value.Converts type decoded) (x : Instance) : value ≠ .object x := by
  rintro rfl
  cases converts <;> rename_i number <;> cases number

end Value

namespace CType

/-- A number, and a type that represents it exactly. -/
inductive Admits : CType → Value → Prop
  | integer {type : CType} {value : Value} {n : Int} (number : value.number? = some n)
    (spans : type.Spans n) : Admits type value
  | single {align : Nat} {word : UInt32} : Admits (.float .single align) (.single word)
  | double {align : Nat} {word : UInt64} : Admits (.float .double align) (.double word)

variable {type : CType} {value plain decoded : Value}

theorem Admits.exists_worth (admits : type.Admits value) :
    ∃ payload, value.worth? = some payload := by
  cases admits with
  | integer number => exact ⟨_, Value.worth_of_number number⟩
  | single => exact ⟨_, rfl⟩
  | double => exact ⟨_, rfl⟩

theorem Admits.exists_double (admits : type.Admits value) (float : type.isFloat = true) :
    ∃ word, value.toDouble? = some word := by
  cases admits with
  | @integer type _ _ _ spans =>
    cases type with
    | float => cases spans
    | _ => cases float
  | single | double => exact ⟨_, rfl⟩

/-- Converting a number to the widened type changes nothing of its worth. -/
theorem Admits.worth_of_converts (admits : type.Admits plain)
    (converts : plain.Converts type.widened decoded) :
    ∃ payload, plain.worth? = some payload ∧ decoded.worth? = some payload := by
  cases admits with
  | integer number spans =>
    exact ⟨_, Value.worth_of_number number,
      Value.worth_of_number (spans.widened.number_of_converts number converts)⟩
  | single =>
    cases converts with
    | double number =>
      cases number
      exact ⟨_, rfl, rfl⟩
  | double =>
    cases converts with
    | double number =>
      cases number
      exact ⟨_, rfl, rfl⟩

/-- What is read from the bytes of a number is represented by its type. -/
theorem admits_ofWord (numeric : type.isNumber = true) (word : UInt64) :
    type.Admits (.ofWord type word) := by
  cases type with
  | bool =>
    refine .integer rfl ?_
    cases word != 0
    · exact .inl rfl
    · exact .inr rfl
  | int name width signed align =>
    have bits : Value.plainBits hostInt (.uint word) = .ok word := rfl
    obtain ⟨n, number, spans⟩ :=
      spans_of_converts rfl (Value.converts_ofBits bits name width signed align)
    exact .integer number spans
  | float precision =>
    cases precision
    · exact .single
    · exact .double
  | _ => cases numeric

/-- An instance of a number holds what its type represents. -/
theorem admits_value {x : Instance} {heap : Heap} (numeric : x.type.isNumber = true)
    (read : x.value heap = .ok value) : x.type.Admits value := by
  have inside := Instance.inside_of_value read
  have own := Instance.value_of_bytes numeric (Instance.bytes_of_inside inside heap)
  cases own.symm.trans read
  exact admits_ofWord numeric _

/-- The type that is inferred for a number represents it. -/
theorem admits_inferred (known : value.inferred? .host = some type)
    (numeric : type.isNumber = true) (plain : ∀ x, value ≠ .object x) : type.Admits value := by
  cases value with
  | int i =>
    have low := i.le_toInt
    have high := i.toInt_lt
    simp only [Value.inferred?] at known
    split at known <;> cases known <;> refine .integer rfl ?_
    · rename_i inside
      simp only [Bool.and_eq_true, decide_eq_true_eq] at inside
      exact inside
    · exact ⟨low, high⟩
  | uint u =>
    have high := u.toNat_lt
    simp only [Value.inferred?] at known
    split at known <;> cases known <;> refine .integer rfl ?_
    · show 0 ≤ (u.toNat : Int) ∧ (u.toNat : Int) < 2 ^ 32
      omega
    · show 0 ≤ (u.toNat : Int) ∧ (u.toNat : Int) < 2 ^ 64
      omega
  | bool b =>
    cases known
    refine .integer rfl ?_
    show -2 ^ 31 ≤ (if b then 1 else 0 : Int) ∧ (if b then 1 else 0 : Int) < 2 ^ 31
    cases b <;> decide
  | single =>
    cases known
    exact .single
  | double =>
    cases known
    exact .double
  | object x => exact absurd rfl (plain x)
  | text | null | pointer =>
    cases known
    cases numeric
  | _ => cases known

end CType

/-- Only integral types are inferred for integers and truth values. -/
theorem Value.integral_of_inferred {value : Value} {type : CType} {n : Int}
    (number : value.number? = some n) (known : value.inferred? .host = some type) :
    type.isIntegral = true := by
  cases value with
  | int | uint =>
    simp only [inferred?] at known
    split at known <;> cases known <;> rfl
  | bool =>
    cases known
    rfl
  | _ => cases number

/-- The type of an instance of a scalar type is inferred for it, that of a pointer for any other. -/
theorem Value.inferred_object {x : Instance} {type : CType}
    (known : (Value.object x).inferred? .host = some type) :
    x.type.isScalar = true ∧ type = x.type
      ∨ x.type.isScalar = false ∧ type = .pointer .untyped .w64 := by
  cases scalar : x.type.isScalar with
  | true =>
    rw [inferred?, if_pos scalar] at known
    exact .inl ⟨rfl, (Option.some.inj known).symm⟩
  | false =>
    rw [inferred?, scalar] at known
    exact .inr ⟨rfl, (Option.some.inj known).symm⟩

theorem Value.scalar_of_inferred {value : Value} {type : CType}
    (known : value.inferred? .host = some type) : type.isScalar = true := by
  cases value with
  | int | uint => exact CType.isScalar_of_isIntegral (integral_of_inferred rfl known)
  | object x =>
    rcases inferred_object known with ⟨scalar, rfl⟩ | ⟨_, rfl⟩
    · exact scalar
    · rfl
  | text | double | single | bool | null | pointer =>
    cases known
    rfl
  | _ => cases known

theorem Value.not_stray_of_inferred {value : Value} {type : CType}
    (known : value.inferred? .host = some type)
    (host : ∀ x, value = .object x → x.type.OnHost) : type.isStray = false := by
  cases value with
  | int | uint =>
    simp only [inferred?] at known
    split at known <;> cases known <;> rfl
  | object x =>
    rcases inferred_object known with ⟨_, rfl⟩ | ⟨_, rfl⟩
    · have own := host x rfl
      generalize x.type = type at own
      cases type with
      | stray => exact own.elim
      | _ => rfl
    · rfl
  | text | double | single | bool | null | pointer =>
    cases known
    rfl
  | _ => cases known

/-- Pointers that are inferred are as wide as addresses. -/
theorem Value.width_of_inferred {value : Value} {target : Target} {width : Width}
    (known : value.inferred? .host = some (.pointer target width))
    (host : ∀ x, value = .object x → x.type.OnHost) : width = .w64 := by
  cases value with
  | int | uint => cases integral_of_inferred rfl known
  | object x =>
    rcases inferred_object known with ⟨_, own⟩ | ⟨_, own⟩
    · have wide := own ▸ host x rfl
      cases target with
      | wstring => exact wide.1
      | _ => exact wide
    · cases own
      rfl
  | text | null | pointer =>
    cases known
    rfl
  | _ => cases known

/-! ## What is in the slot -/

/-- The bytes of a slot of a type tell what an argument is worth. Where a string pointer holds an
address, that is what the bytes are; it is decoded to the text that lies there. -/
inductive Carries (heap : Heap) (bytes : Bytes) : CType → Payload → Prop
  | value {type : CType} {payload : Payload} {decoded : Value}
    (ran : Value.decode type bytes heap = (.ok decoded, heap))
    (worth : decoded.worth? = some payload) : Carries heap bytes type payload
  | held {target : Target} {width : Width} {address : UInt64}
    (string : target = .cstring ∨ ∃ unit, target = .wstring unit)
    (word : Bytes.toWord (bytes.take width.bytes) = address) :
    Carries heap bytes (.pointer target width) (.address address)

section

variable {heap after : Heap} {type : CType} {value : Value} {spot : Spot}

/-- The slot of a number is worth what the argument is. -/
theorem payload_of_number (known : value.inferred? .host = some type)
    (numeric : type.isNumber = true) (widened : type.widened.isNumber = true)
    (holds : spot.Holds type.widened.size)
    (written : spot.view.Written type.widened spot.offset heap after value) :
    ∃ payload, value.payload? heap = some payload
      ∧ (Value.ofWord type.widened
        (after.memory.loadWord spot.address type.widened.size)).worth? = some payload := by
  have object {x : Instance} (same : value = .object x) :
      x.type.isNumber = true ∧ type = x.type := by
    subst same
    rcases Value.inferred_object known with ⟨_, rfl⟩ | ⟨_, rfl⟩
    · exact ⟨numeric, rfl⟩
    · cases numeric
  rcases View.number_of_written spot widened holds written with
    ⟨plain, gives, converts⟩ | ⟨x, rfl, _, read⟩
  · cases gives with
    | itself =>
      have plain := converts.ne_object
      obtain ⟨payload, worth, found⟩ :=
        (CType.admits_inferred known numeric plain).worth_of_converts converts
      refine ⟨payload, ?_, found⟩
      cases value with
      | object x => exact absurd rfl (plain x)
      | _ => exact worth
    | @held x plain scalar read =>
      obtain ⟨own, rfl⟩ := object rfl
      obtain ⟨payload, worth, found⟩ :=
        (CType.admits_value own read).worth_of_converts converts
      refine ⟨payload, ?_, found⟩
      rw [Value.payload?, if_pos own, read]
      exact worth
  · obtain ⟨own, rfl⟩ := object rfl
    obtain ⟨payload, worth⟩ := (CType.admits_value own read).exists_worth
    refine ⟨payload, ?_, worth⟩
    rw [Value.payload?, if_pos own, read]
    exact worth

/-- The address that an argument stands for is what it is worth where an address is passed. -/
theorem payload_of_address {address : UInt64} (known : value.inferred? .host = some type)
    (pointer : type.isPointer = true) (found : heap.addressOf? value = some address) :
    value.payload? heap = some (.address address) := by
  cases value with
  | null =>
    cases found
    rfl
  | pointer p => exact congrArg (Option.map Payload.address) found
  | object x =>
    have number : x.type.isNumber = false := by
      rcases Value.inferred_object known with ⟨_, rfl⟩ | ⟨whole, _⟩
      · generalize x.type = type at pointer
        cases type <;> first | rfl | cases pointer
      · generalize x.type = type at whole
        cases type <;> first | rfl | cases whole
    rw [Value.payload?, number, found]
    rfl
  | int | uint =>
    have integral := Value.integral_of_inferred rfl known
    cases (CType.flat_of_isIntegral integral).2.2.symm.trans pointer
  | _ => cases found

/-! ## Which arguments are accepted -/

theorem exists_writeDouble {align : Nat} {word : UInt64} (holds : spot.Holds 8)
    (number : value.toDouble? = some word) (heap : Heap) :
    ∃ after, spot.view.writeScalar (.float .double align) spot.offset value heap
      = (.ok (), after) := by
  have found : value.doubleWord (.float .double align) = .ok word := by
    rw [Value.doubleWord, number]
    rfl
  exact ⟨_, HeapM.bind_eq_ok.mpr ⟨word, heap, HeapM.lift_eq_ok.mpr ⟨found, rfl⟩,
    Spot.writeWord_spot holds word⟩⟩

theorem exists_writePointer {target : Target} {width : Width} {found : UInt64 × Option Kept}
    (holds : spot.Holds width.bytes)
    (ran : Heap.addressFor (.pointer target width) target value heap = (.ok found, after)) :
    ∃ last, spot.view.writeScalar (.pointer target width) spot.offset value heap
      = (.ok (), last) :=
  ⟨_, HeapM.bind_eq_ok.mpr ⟨_, heap, Spot.target_spot holds,
    HeapM.bind_eq_ok.mpr ⟨found, after, ran, rfl⟩⟩⟩

/-- A value that can be stored: an instance of a scalar type lies in its block, and a pointer has an
address. -/
structure Value.Storable (value : Value) : Prop where
  inside : ∀ x, value = .object x → x.type.isScalar = true → x.Inside
  located : ∀ p, value = .pointer p → ∃ address, p.address = .ok address

/-- A number is stored as what it is widened to. -/
theorem exists_write_integral (known : value.inferred? .host = some type)
    (integral : type.isIntegral = true) (even : type.isStray = false)
    (holds : spot.Holds type.widened.size)
    (inside : ∀ x, value = .object x → x.type.isScalar = true → x.Inside) (heap : Heap) :
    ∃ after, spot.view.write type.widened spot.offset value heap = (.ok (), after) := by
  have numeric := CType.isNumber_of_isIntegral integral even
  have wider : type.widened.isIntegral = true := type.class_widened.1.trans integral
  obtain ⟨n, number⟩ : ∃ n, heap.Number value n := by
    by_cases plain : ∀ x, value ≠ .object x
    · cases CType.admits_inferred known numeric plain with
      | integer number => exact ⟨_, value, .itself value, number⟩
      | single | double => cases integral
    · obtain ⟨x, rfl⟩ := not_forall_not.mp plain
      rcases Value.inferred_object known with ⟨scalar, rfl⟩ | ⟨_, rfl⟩
      · exact Heap.exists_number integral even (inside x rfl scalar) heap
      · cases integral
  obtain ⟨bits, found, _⟩ := Heap.exists_integerBits number type.widened
  rcases View.write_integral wider (CType.not_stray_of_isNumber (CType.isNumber_widened numeric))
    holds found with ⟨_, _, after, _, _, _, ran, _⟩ | ⟨_, ran⟩
  · exact ⟨after, ran⟩
  · exact ⟨_, ran⟩

theorem exists_write_float {precision : Precision} {align : Nat}
    (known : value.inferred? .host = some (.float precision align)) (holds : spot.Holds 8)
    (inside : ∀ x, value = .object x → x.type.isScalar = true → x.Inside) (heap : Heap) :
    ∃ after, spot.view.write (CType.float precision align).widened spot.offset value heap
      = (.ok (), after) := by
  obtain ⟨align', same⟩ : ∃ align',
      (CType.float precision align).widened = .float .double align' := by
    cases precision <;> exact ⟨_, rfl⟩
  rw [same]
  by_cases plain : ∀ x, value ≠ .object x
  · obtain ⟨word, number⟩ := (CType.admits_inferred known rfl plain).exists_double rfl
    rw [View.write_of_plain plain rfl rfl]
    exact exists_writeDouble holds number heap
  obtain ⟨x, rfl⟩ := not_forall_not.mp plain
  rcases Value.inferred_object known with ⟨scalar, own⟩ | ⟨_, own⟩
  case inr => cases own
  have bounds := inside x rfl scalar
  have numeric : x.type.isNumber = true := own ▸ rfl
  have read := Instance.value_of_bytes numeric (Instance.bytes_of_inside bounds heap)
  obtain ⟨word, number⟩ := (CType.admits_value numeric read).exists_double (own ▸ rfl)
  by_cases alike : (x.type == .float .double align') = true
  · have size := CType.size_eq_of_same alike
    rw [View.write_of_same alike]
    exact ⟨_, Spot.copyInstance_spot (size ▸ holds) bounds⟩
  · rw [View.write_of_read alike scalar rfl rfl read]
    exact exists_writeDouble holds number heap

theorem exists_write_pointer {target : Target} {width : Width}
    (known : value.inferred? .host = some (.pointer target width))
    (clean : ∀ text, value = .text text → '\x00' ∉ text.toList) (holds : spot.Holds width.bytes)
    (storable : value.Storable) (heap : Heap) :
    ∃ after, spot.view.write (.pointer target width) spot.offset value heap = (.ok (), after) := by
  by_cases plain : ∀ x, value ≠ .object x
  · obtain ⟨found, after, ran⟩ : ∃ found after,
        Heap.addressFor (.pointer target width) target value heap = (.ok found, after) := by
      cases value with
      | object x => exact absurd rfl (plain x)
      | null => exact ⟨_, _, rfl⟩
      | pointer p =>
        obtain ⟨address, located⟩ := storable.located p rfl
        exact ⟨_, _, HeapM.bind_eq_ok.mpr
          ⟨address, heap, HeapM.lift_eq_ok.mpr ⟨located, rfl⟩, rfl⟩⟩
      | text text =>
        have solid := Text.Utf8.zero_notMem_encode (clean text rfl)
        cases known
        exact ⟨_, _, HeapM.bind_eq_ok.mpr ⟨_, _, Heap.storeText_run solid heap, rfl⟩⟩
      | int | uint => cases Value.integral_of_inferred rfl known
      | _ => cases known
    rw [View.write_of_plain plain rfl rfl]
    exact exists_writePointer holds ran
  obtain ⟨x, rfl⟩ := not_forall_not.mp plain
  rcases Value.inferred_object known with ⟨scalar, own⟩ | ⟨whole, own⟩
  · have size : width.bytes = x.type.size := congrArg CType.size own
    rw [own]
    exact ⟨_, Spot.write_object (size ▸ holds) (storable.inside x rfl scalar)⟩
  · cases own
    have different : ¬(x.type == .pointer .untyped .w64) = true := by
      intro same
      obtain ⟨target, kind⟩ := CType.eq_of_same_pointer same
      rw [kind] at whole
      cases whole
    have apart : x.type.isPointer = false := by
      rw [CType.isScalar, Bool.or_eq_false_iff] at whole
      exact whole.2
    show ∃ after, spot.view.writeWhole _ spot.offset (.object x) heap = (.ok (), after)
    rw [View.writeWhole_object x rfl, if_neg different, apart, Bool.false_and,
      if_neg Bool.false_ne_true, whole]
    exact exists_writePointer holds rfl

theorem exists_write (known : value.inferred? .host = some type)
    (even : type.isStray = false) (clean : ∀ text, value = .text text → '\x00' ∉ text.toList)
    (holds : spot.Holds type.widened.size) (storable : value.Storable) (heap : Heap) :
    ∃ after, spot.view.write type.widened spot.offset value heap = (.ok (), after) := by
  have scalar := Value.scalar_of_inferred known
  cases type with
  | bool | int => exact exists_write_integral known rfl rfl holds storable.inside heap
  | stray => cases even
  | float precision =>
    have wide : spot.Holds 8 := by cases precision <;> exact holds
    exact exists_write_float known wide storable.inside heap
  | pointer => exact exists_write_pointer known clean holds storable heap
  | _ => cases scalar

/-- An instance of a scalar type that was stored lies in its block. -/
theorem inside_of_written {x : Instance} (known : (Value.object x).inferred? .host = some type)
    (even : type.isStray = false) (scalar : x.type.isScalar = true)
    (holds : spot.Holds type.widened.size)
    (written : spot.view.Written type.widened spot.offset heap after (.object x)) : x.Inside := by
  cases written with
  | copied same ran =>
    obtain ⟨bytes, read, _⟩ := View.copyInstance_eq_ok (CType.size_eq_of_same same ▸ holds) ran
    exact Instance.inside_of_bytes read
  | held _ _ ran =>
    obtain ⟨bytes, read, _⟩ := View.copyPointer_eq_ok holds ran
    exact Instance.inside_of_bytes read
  | read _ _ found => exact Instance.inside_of_value found
  | number _ plain => exact absurd rfl (plain x)
  | stray odd => cases (CType.not_stray_widened even).symm.trans odd
  | address pointer apart =>
    rw [(CType.class_widened type).2] at pointer
    rcases Value.inferred_object known with ⟨_, rfl⟩ | ⟨whole, _⟩
    · cases (apart x rfl).symm.trans pointer
    · cases whole.symm.trans scalar
  | parts _ plain => exact absurd rfl (plain x)

/-- What was stored could be. -/
theorem storable_of_written (known : value.inferred? .host = some type)
    (even : type.isStray = false) (holds : spot.Holds type.widened.size)
    (written : spot.view.Written type.widened spot.offset heap after value) : value.Storable := by
  constructor
  case inside =>
    rintro x rfl scalar
    exact inside_of_written known even scalar holds written
  case located =>
    rintro p rfl
    cases known
    cases written with
    | address _ _ ran =>
      obtain ⟨_, _, _, found, _⟩ := View.writePointer_eq_ok holds ran
      obtain ⟨address, _, lifted, _⟩ := HeapM.bind_eq_ok.mp found
      exact ⟨address, (HeapM.lift_eq_ok.mp lifted).1⟩
    | number numeric => cases numeric
    | stray odd => cases odd
    | parts composite => cases composite

end

namespace Frame

variable {heap fresh after : Heap} {slot : Block} {value : Value} {target : Target}

theorem Opened.payload_eq {size : Nat} (opened : Opened heap fresh slot size) (value : Value) :
    value.payload? fresh = value.payload? heap := by
  cases value with
  | object x =>
    unfold Value.payload?
    dsimp only
    split
    case isTrue numeric => rw [opened.value_eq (CType.isScalar_of_isNumber numeric)]
    case isFalse => rw [opened.addressOf_eq]
  | _ => rfl

/-- The slot of an address is worth what the argument is. -/
theorem carries_of_refers {bytes : Bytes} {width : Width}
    (known : value.inferred? .host = some (.pointer target width))
    (opened : Opened heap fresh slot 8)
    (refers : Heap.Refers fresh after target (Bytes.toWord (bytes.take width.bytes)) value) :
    ∃ payload, value.payload? heap = some payload
      ∧ Carries after bytes (.pointer target width) payload := by
  generalize word : Bytes.toWord (bytes.take width.bytes) = address at refers
  cases refers with
  | value found =>
    rw [opened.addressOf_eq] at found
    refine ⟨_, payload_of_address known rfl found, ?_⟩
    cases target with
    | untyped | typed =>
      subst word
      exact .value rfl (congrArg (·.toOption.map Payload.address) (Place.address_ofAddress _))
    | cstring => exact .held (.inl rfl) word
    | wstring unit => exact .held (.inr ⟨unit, rfl⟩) word
  | @narrow text _ new solid holds =>
    obtain rfl : target = .cstring := by
      cases known
      rfl
    refine ⟨_, rfl, .value (decode_text ..) ?_⟩
    rw [word, Heap.textValue_of_holds (opened.ne_zero new) solid holds]
    rfl
  | wide wide =>
    subst wide
    cases known

theorem exists_push {type : CType} (flat : type.element? = none) (small : type.size ≤ slotSize)
    (writes : ∀ slot fresh, Opened heap fresh slot type.size →
      ∃ after, slot.view.write type 0 value fresh = (.ok (), after))
    (frame : Frame) (function : String) (position : Nat) :
    ∃ pushed after, frame.push function position type value heap = (.ok pushed, after) := by
  have fits : max type.size slotSize ≤ Heap.largestBlock := by
    rw [Nat.max_eq_right small]
    decide
  obtain ⟨slot, fresh, allocated⟩ : ∃ slot fresh,
      Heap.allocate (max type.size slotSize) heap = (.ok slot, fresh) :=
    ⟨_, _, Heap.allocate_run heap fits⟩
  obtain ⟨after, written⟩ := writes slot fresh (opened_of_allocate allocated)
  refine ⟨frame ++ [slot], after, HeapM.bind_eq_ok.mpr ⟨_, _, allocated, ?_⟩⟩
  rw [materialize_of_flat flat, pure_bind, decayed_of_flat flat]
  exact HeapM.bind_eq_ok.mpr ⟨(), after, blame_of_ok written, rfl⟩

/-- The slot of an argument is worth what the argument is. -/
theorem carries_of_written {type : CType} (known : value.inferred? .host = some type)
    (host : ∀ x, value = .object x → x.type.OnHost)
    (opened : Opened heap fresh slot type.widened.size) (words : after.frontier ≤ Word.modulus)
    (written : slot.view.Written type.widened 0 fresh after value) :
    ∃ payload, value.payload? heap = some payload
      ∧ Carries after (after.memory.load slot.base slot.length) type.widened payload := by
  cases numeric : type.isNumber with
  | true =>
    have wider := CType.isNumber_widened numeric
    obtain ⟨payload, own, worth⟩ := payload_of_number known numeric wider opened.holds written
    rw [opened.payload_eq] at own
    refine ⟨payload, own, .value (decode_number wider _ after) ?_⟩
    rw [opened.take]
    exact worth
  | false =>
    have scalar := Value.scalar_of_inferred known
    have even := Value.not_stray_of_inferred known host
    cases type with
    | stray => cases even
    | pointer target width =>
      obtain rfl : width = .w64 := Value.width_of_inferred known host
      have behind : slot.base + 8 ≤ fresh.frontier := by
        have length : slot.length = max 8 slotSize := opened.length
        have ahead := opened.behind
        omega
      have refers := View.refers_of_written (Opened.start slot) opened.holds behind words written
      refine carries_of_refers known opened ?_
      rwa [show (after.memory.load slot.base slot.length).take Width.w64.bytes
        = after.memory.load slot.base 8 from opened.take after.memory]
    | bool | int | float => cases numeric
    | _ => cases scalar

/-- What is known about an argument behind the declared ones: the type that it is passed as is wide
already, it is written to its slot unless it is an instance of a scalar type beyond its block or a
pointer without an address, and then the slot is worth what the argument is. -/
theorem push_variadic {type : CType} (known : value.inferred? .host = some type)
    (clean : ∀ text, value = .text text → '\x00' ∉ text.toList)
    (host : ∀ x, value = .object x → x.type.OnHost) :
    ∃ wide, type.promoted .host = .ok wide ∧ wide.Wide ∧ wide.promoted .host = .ok wide
      ∧ ∀ (frame : Frame) (function : String) (position : Nat) (heap : Heap),
        ((∃ pushed after, frame.push function position wide value heap = (.ok pushed, after))
          ↔ value.Storable)
        ∧ ∀ pushed after, frame.push function position wide value heap = (.ok pushed, after) →
          after.frontier ≤ Word.modulus →
            ∃ slot payload, pushed = frame ++ [slot] ∧ value.payload? heap = some payload
              ∧ Carries after (after.memory.load slot.base slot.length) wide payload := by
  have even := Value.not_stray_of_inferred known host
  obtain ⟨flat, small⟩ := CType.widened_small (Value.scalar_of_inferred known) even
  refine ⟨type.widened, CType.promoted_host type, CType.wide_widened type, ?_, ?_⟩
  · rw [CType.promoted_host, (CType.wide_widened type).widened_eq]
  intro frame function position heap
  refine ⟨⟨?storable, ?accepted⟩, ?carries⟩
  case storable =>
    rintro ⟨pushed, after, ran⟩
    obtain ⟨slot, fresh, _, opened, stored⟩ := push_eq_ok flat ran
    have written : (Opened.start slot).view.Written type.widened (Opened.start slot).offset fresh
        after value := View.write_cases flat stored
    exact storable_of_written known even opened.holds written
  case accepted =>
    intro storable
    refine exists_push flat small (fun slot fresh opened => ?_) frame function position
    have stored := exists_write known even clean opened.holds storable fresh
    exact stored
  case carries =>
    intro pushed after ran words
    obtain ⟨slot, fresh, rfl, opened, stored⟩ := push_eq_ok flat ran
    obtain ⟨payload, own, carries⟩ :=
      carries_of_written known host opened words (View.write_cases flat stored)
    exact ⟨slot, payload, rfl, own, carries⟩

/-- A fresh instance of two bytes, and what memory is when it holds a negative number. -/
def shortInstance : Instance := ⟨.natural "int16" .w16 true, ⟨0, 0x10000000000, 2, false⟩, 0⟩

def shortHeap : Heap := (Instance.ofValue (.natural "int16" .w16 true) (.int (-2)) .empty).2

/-- It is passed as four bytes that hold the same number. -/
theorem push_variadic_short :
    (Value.object shortInstance).inferred? .host = some (.natural "int16" .w16 true)
      ∧ (CType.natural "int16" .w16 true).promoted .host = .ok CType.hostInt
      ∧ ∃ slot after,
        push [] "printf" 2 CType.hostInt (.object shortInstance) shortHeap = (.ok [slot], after)
          ∧ Carries after (after.memory.load slot.base slot.length) CType.hostInt
            (.integer (-2)) := by
  have known : (Value.object shortInstance).inferred? .host = some (.natural "int16" .w16 true) :=
    rfl
  have host (y : Instance) (same : Value.object shortInstance = .object y) : y.type.OnHost := by
    cases same
    trivial
  obtain ⟨wide, promoted, -, -, passes⟩ := push_variadic known nofun host
  obtain rfl : CType.hostInt = wide := Except.ok.inj promoted
  obtain ⟨after, ran⟩ : ∃ after, push [] "printf" 2 CType.hostInt (.object shortInstance) shortHeap
      = (.ok [⟨1, 0x10100000010, 8, false⟩], after) := ⟨_, rfl⟩
  have words : after.frontier ≤ Word.modulus := by
    have last : (push [] "printf" 2 CType.hostInt (.object shortInstance) shortHeap).2 = after :=
      congrArg Prod.snd ran
    rw [← last]
    decide
  obtain ⟨slot, payload, same, own, carries⟩ := (passes _ _ _ _).2 _ _ ran words
  obtain rfl := (List.singleton_inj.mp same).symm
  have worth : (Value.object shortInstance).payload? shortHeap = some (.integer (-2)) := rfl
  obtain rfl := Option.some.inj (worth.symm.trans own)
  exact ⟨known, rfl, _, after, ran, carries⟩

/-- A pointer is moved to before its block. It is not null and has a type, but no address, and is
not passed. -/
theorem before_unpassed :
    let pair := CType.array CType.hostInt 2
    let untyped := CType.pointer .untyped .w64
    ∃ x heap, Instance.create pair .empty = (.ok x, heap)
      ∧ (Value.pointer (x.pointer.offset (-1))).inferred? .host = some untyped
      ∧ untyped.promoted .host = .ok untyped
      ∧ (push [] "printf" 1 untyped (.pointer (x.pointer.offset (-1))) heap).1
          = .error (.overflow "add") :=
  ⟨_, _, rfl, rfl, rfl, rfl⟩

end Frame

end CInterop
