import CInterop.Proofs.Text.Stored

/-!
# The end of wide text

Wide text without zero characters has one zero unit, its terminator. The two ways of reading it find
the same end, whatever lies behind: decoding the bytes that begin with it, and looking for the zero
unit in memory (`Text.Wide.encode_terminated`).
-/

namespace CInterop.Text.Wide

variable {size : Nat} {text : String}

/-! ## Bytes behind the end -/

/-- What lies behind a zero unit is never reached. -/
theorem takeWhile_terminated (chosen more : List Nat) :
    (chosen ++ [0] ++ more).takeWhile (· != 0) = (chosen ++ [0]).takeWhile (· != 0) := by
  induction chosen with
  | nil => rfl
  | cons unit rest ih => simp only [List.cons_append, List.takeWhile_cons, ih]

theorem fit_terminated (word : size = 2 ∨ size = 4) (text : String) :
    ∀ unit ∈ units size text ++ [0], unit < 2 ^ (8 * size) :=
  List.forall_mem_append.mpr
    ⟨units_fit word text, List.forall_mem_singleton.mpr (Nat.two_pow_pos _)⟩

/-- Bytes behind the encoding of a text change nothing. -/
theorem decode_encode_append (word : size = 2 ∨ size = 4) (text : String) (tail : Bytes) :
    decode size (encode size text ++ tail) = beforeNul text := by
  have fit := fit_terminated word text
  rw [← decode_encode word text, decode, decode, encode]
  rcases word with rfl | rfl
  · rw [if_pos rfl, if_pos rfl, pairs_flatMap_append _ fit, pairs_flatMap _ fit,
      takeWhile_terminated]
  · rw [if_neg (by decide), if_neg (by decide), quads_flatMap_append _ fit, quads_flatMap _ fit,
      takeWhile_terminated]

/-! ## Units of a text -/

theorem units_ne_zero (solid : '\x00' ∉ text.toList) : ∀ unit ∈ units size text, unit ≠ 0 := by
  have other {c : Char} (mem : c ∈ text.toList) : c ≠ '\x00' := fun zero => solid (zero ▸ mem)
  unfold units
  split
  case isTrue =>
    intro unit found
    obtain ⟨c, mem, found⟩ := List.mem_flatMap.mp found
    exact utf16_ne_zero (other mem) unit found
  case isFalse =>
    intro unit found
    obtain ⟨c, mem, rfl⟩ := List.mem_map.mp found
    exact toNat_ne_zero (other mem)

/-- The bytes of one of many units. -/
theorem take_drop_flatMap (word : size = 2 ∨ size = 4) {chosen : List Nat} {i : Nat}
    (inside : i < chosen.length) :
    ((chosen.flatMap (unitBytes size)).drop (size * i)).take size = unitBytes size chosen[i] := by
  have split : chosen = chosen.take i ++ chosen[i] :: chosen.drop (i + 1) := by
    rw [List.getElem_cons_drop, List.take_append_drop]
  have before : ((chosen.take i).flatMap (unitBytes size)).length = size * i := by
    rw [length_flatMap word, List.length_take_of_le (Nat.le_of_lt inside)]
  have bytes : chosen.flatMap (unitBytes size) = (chosen.take i).flatMap (unitBytes size)
      ++ (unitBytes size chosen[i] ++ (chosen.drop (i + 1)).flatMap (unitBytes size)) := by
    conv_lhs => rw [split]
    rw [List.flatMap_append, List.flatMap_cons]
  rw [bytes, List.drop_left' before, List.take_left' (length_unitBytes word _)]

theorem unitBytes_eq_zeros_iff (word : size = 2 ∨ size = 4) {unit : Nat}
    (fits : unit < 2 ^ (8 * size)) : unitBytes size unit = Bytes.zeros size ↔ unit = 0 := by
  rw [← all_unitBytes word fits]
  constructor
  · intro same
    simp [same, Bytes.zeros]
  · intro zeros
    refine List.eq_replicate_iff.mpr ⟨length_unitBytes word unit, fun byte mem => ?_⟩
    exact beq_iff_eq.mp (List.all_eq_true.mp zeros byte mem)

/-- The only zero unit of an encoding is the last one. -/
theorem unit_encode_eq_zeros_iff (word : size = 2 ∨ size = 4) (solid : '\x00' ∉ text.toList)
    {i : Nat} (inside : i ≤ (units size text).length) :
    ((encode size text).drop (size * i)).take size = Bytes.zeros size
      ↔ i = (units size text).length := by
  have within : i < (units size text ++ [0]).length := by
    rw [List.length_append, List.length_singleton]
    omega
  rw [encode, take_drop_flatMap word within,
    unitBytes_eq_zeros_iff word (fit_terminated word text _ (List.getElem_mem within))]
  constructor
  · intro zero
    refine Nat.le_antisymm inside (Nat.le_of_not_lt fun before => ?_)
    rw [List.getElem_append_left before] at zero
    exact units_ne_zero solid _ (List.getElem_mem before) zero
  · rintro rfl
    exact List.getElem_concat_length rfl _

/-! ## Reading up to the end -/

/-- Wide text without zero characters is a number of units, of which only the last one is zero. It
is read back from any bytes that begin with its encoding, and from any memory that does, where the
reader stops at the last unit. -/
theorem encode_terminated {unit : Nat} (wide : Text.Wide.IsUnit unit) {text : String}
    (solid : '\x00' ∉ text.toList) :
    (∀ tail, decode unit (encode unit text ++ tail) = text)
      ∧ (∃ count, (encode unit text).length = unit * (count + 1) ∧ ∀ i ≤ count,
        ((encode unit text).drop (unit * i)).take unit = Bytes.zeros unit
          ↔ i = count)
      ∧ ∀ (heap : Heap) (address : UInt64), heap.Holds address (encode unit text) →
        heap.wideTextAt unit address ++ Bytes.zeros unit = encode unit text
          ∧ decode unit (heap.wideTextAt unit address) = text := by
  have word := wide
  refine ⟨fun tail => ?_, ⟨_, length_encode word text, fun i inside => ?_⟩,
    fun heap address holds => ⟨?_, ?_⟩⟩
  · rw [decode_encode_append word, beforeNul_of_solid solid]
  · exact unit_encode_eq_zeros_iff word solid inside
  · have last := (unitBytes_eq_zeros_iff word (Nat.two_pow_pos _)).mpr rfl
    rw [holds.wideTextAt_eq wide, takeWhile_units, beforeNul_of_solid solid, ← last, encode,
      List.flatMap_append, List.flatMap_singleton]
  · rw [holds.wideTextAt wide, beforeNul_of_solid solid]

/-- Characters of one and of two units, among them units with a zero byte. -/
def limits : String := "a\u0100\uFFFF𐀀"

/-- Four characters in five units of two bytes, with other bytes behind them, and in memory. -/
theorem encode_terminated_limits :
    '\x00' ∉ limits.toList
      ∧ decode 2 (encode 2 limits ++ encode 2 "tail") = limits
      ∧ ∃ address item after, Heap.storeWide 2 limits .empty = (.ok (address, item), after)
        ∧ (after.wideTextAt 2 address).length = 10
        ∧ decode 2 (after.wideTextAt 2 address) = limits := by
  have solid : '\x00' ∉ limits.toList := by decide
  obtain ⟨read, -, found⟩ := encode_terminated (.inl rfl : IsUnit 2) solid
  have fits : (encode 2 limits).length ≤ Heap.largestBlock := by
    decide
  have ran := Heap.storeWide_run .empty fits
  obtain ⟨whole, same⟩ := found _ _ (Heap.storeWide_eq_ok ran (by decide)).2
  refine ⟨solid, read _, _, _, _, ran, ?_, same⟩
  have length := congrArg List.length whole
  rw [List.length_append, Bytes.length_zeros] at length
  exact Nat.add_right_cancel (length.trans (by decide : _ = 10 + 2))

end CInterop.Text.Wide
