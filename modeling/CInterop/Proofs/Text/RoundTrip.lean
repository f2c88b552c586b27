import Mathlib.Data.List.TakeWhile
import CInterop.Proofs.Memory

/-!
# Text survives its encoding

Decoding is lenient, so that it gives some text for any bytes. On the bytes of a text it gives the
text again: narrow text as a whole, wide text up to its first zero character, where its encoding
ends for a reader.
-/

namespace CInterop.Text

/-- The code points of characters leave out the surrogates. -/
theorem toNat_cases (c : Char) : c.toNat < 0xD800 ∨ 0xDFFF < c.toNat ∧ c.toNat < 0x110000 := c.valid

theorem toNat_ne_zero {c : Char} (solid : c ≠ '\x00') : c.toNat ≠ 0 :=
  fun zero => solid (Char.toNat_inj.mp zero)

/-! ## Narrow text -/

namespace Utf8

/-- A character begins with a byte that announces how many follow, and the bounds of the next. -/
theorem start_ofNat {n : Nat} (small : n < 256) : start (.ofNat n) =
    if n < 0x80 then .whole (Char.ofNat n)
    else if n < 0xC2 then .bad
    else if n < 0xE0 then .lead ⟨n - 0xC0, 1, 0x80, 0xBF⟩
    else if n = 0xE0 then .lead ⟨0, 2, 0xA0, 0xBF⟩
    else if n = 0xED then .lead ⟨n - 0xE0, 2, 0x80, 0x9F⟩
    else if n < 0xF0 then .lead ⟨n - 0xE0, 2, 0x80, 0xBF⟩
    else if n = 0xF0 then .lead ⟨0, 3, 0x90, 0xBF⟩
    else if n < 0xF4 then .lead ⟨n - 0xF0, 3, 0x80, 0xBF⟩
    else if n = 0xF4 then .lead ⟨n - 0xF0, 3, 0x80, 0x8F⟩
    else .bad := by
  have same : (UInt8.ofNat n).toNat = n := UInt8.toNat_ofNat_of_lt' small
  unfold start
  simp only [same]

theorem decodeFrom_whole {byte : UInt8} {c : Char} (whole : start byte = .whole c) (rest : Bytes) :
    decodeFrom none (byte :: rest) = c :: decodeFrom none rest := by
  rw [decodeFrom]
  simp [whole, abandoned]

/-- A byte inside the bounds brings six bits. -/
theorem decodeFrom_within {bits missing six : Nat} {low high : UInt8} (rest : Bytes)
    (small : six < 64) (above : low.toNat ≤ six + 128) (below : six + 128 ≤ high.toNat) :
    decodeFrom (some ⟨bits, missing, low, high⟩) (.ofNat (six + 128) :: rest) =
      if missing - 1 = 0 then Char.ofNat (64 * bits + six) :: decodeFrom none rest
      else decodeFrom (some ⟨64 * bits + six, missing - 1, 0x80, 0xBF⟩) rest := by
  have own : (UInt8.ofNat (six + 128)).toNat = six + 128 :=
    UInt8.toNat_ofNat_of_lt' (Nat.lt_trans (Nat.add_lt_add_right small 128) (by decide))
  have admitted : Partial.admits ⟨bits, missing, low, high⟩ (.ofNat (six + 128)) = true := by
    simp only [Partial.admits, UInt8.le_iff_toNat_le, own, Bool.and_eq_true, decide_eq_true_eq]
    exact ⟨above, below⟩
  have six_bits : (six + 128) % 64 = six := by omega
  rw [decodeFrom]
  simp only [Option.filter, admitted, if_true, Partial.extend, own, six_bits]

/-- Behind the second byte of a character the bounds are those of any six bits. -/
theorem decodeFrom_six {bits missing six : Nat} (rest : Bytes) (small : six < 64) :
    decodeFrom (some ⟨bits, missing, 0x80, 0xBF⟩) (.ofNat (six + 128) :: rest) =
      if missing - 1 = 0 then Char.ofNat (64 * bits + six) :: decodeFrom none rest
      else decodeFrom (some ⟨64 * bits + six, missing - 1, 0x80, 0xBF⟩) rest :=
  decodeFrom_within rest small (Nat.le_add_left 128 six) (by change six + 128 ≤ 191; omega)

/-- A byte begins a character of several bytes, and its bounds admit the six bits that follow. -/
def Leads (byte : UInt8) (bits missing six : Nat) : Prop :=
  ∃ low high, start byte = .lead ⟨bits, missing, low, high⟩
    ∧ low.toNat ≤ six + 128 ∧ six + 128 ≤ high.toNat

theorem decodeFrom_leads {byte : UInt8} {bits missing six : Nat}
    (leads : Leads byte bits missing six) (rest : Bytes) (small : six < 64) :
    decodeFrom none (byte :: .ofNat (six + 128) :: rest) =
      if missing - 1 = 0 then Char.ofNat (64 * bits + six) :: decodeFrom none rest
      else decodeFrom (some ⟨64 * bits + six, missing - 1, 0x80, 0xBF⟩) rest := by
  obtain ⟨low, high, lead, above, below⟩ := leads
  rw [← decodeFrom_within rest small above below, decodeFrom]
  simp [lead, abandoned]

theorem leads_two {n : Nat} (above : 0x80 ≤ n) (below : n < 0x800) :
    Leads (.ofNat (n / 64 % 32 + 192)) (n / 64) 1 (n % 64) := by
  have first := start_ofNat (n := n / 64 % 32 + 192) (by omega)
  rw [if_neg (by omega), if_neg (by omega), if_pos (by omega),
    show n / 64 % 32 + 192 - 0xC0 = n / 64 by omega] at first
  exact ⟨_, _, first, by change 128 ≤ _; omega, by change _ ≤ 191; omega⟩

/-- Three bytes are too many for small code points and are not used for surrogates. -/
theorem leads_three {n : Nat} (above : 0x800 ≤ n) (below : n < 0x10000)
    (valid : n < 0xD800 ∨ 0xDFFF < n) :
    Leads (.ofNat (n / 4096 % 16 + 224)) (n / 4096) 2 (n / 64 % 64) := by
  have first := start_ofNat (n := n / 4096 % 16 + 224) (by omega)
  rw [if_neg (by omega), if_neg (by omega), if_neg (by omega),
    show n / 4096 % 16 + 224 - 0xE0 = n / 4096 by omega] at first
  split at first
  case isTrue low =>
    rw [show 0 = n / 4096 by omega] at first
    exact ⟨_, _, first, by change 160 ≤ _; omega, by change _ ≤ 191; omega⟩
  split at first
  case isTrue gap => exact ⟨_, _, first, by change 128 ≤ _; omega, by change _ ≤ 159; omega⟩
  rw [if_pos (by omega)] at first
  exact ⟨_, _, first, by change 128 ≤ _; omega, by change _ ≤ 191; omega⟩

theorem leads_four {n : Nat} (above : 0x10000 ≤ n) (below : n < 0x110000) :
    Leads (.ofNat (n / 262144 % 8 + 240)) (n / 262144) 3 (n / 4096 % 64) := by
  have first := start_ofNat (n := n / 262144 % 8 + 240) (by omega)
  rw [if_neg (by omega), if_neg (by omega), if_neg (by omega), if_neg (by omega),
    if_neg (by omega), if_neg (by omega),
    show n / 262144 % 8 + 240 - 0xF0 = n / 262144 by omega] at first
  split at first
  case isTrue low =>
    rw [show 0 = n / 262144 by omega] at first
    exact ⟨_, _, first, by change 144 ≤ _; omega, by change _ ≤ 191; omega⟩
  split at first
  case isTrue middle => exact ⟨_, _, first, by change 128 ≤ _; omega, by change _ ≤ 191; omega⟩
  rw [if_pos (by omega)] at first
  exact ⟨_, _, first, by change 128 ≤ _; omega, by change _ ≤ 143; omega⟩

/-- The bytes of a character are read as the character. -/
theorem decodeFrom_char (c : Char) (rest : Bytes) :
    decodeFrom none (String.utf8EncodeChar c ++ rest) = c :: decodeFrom none rest := by
  have valid := toNat_cases c
  have again : Char.ofNat c.toNat = c := Char.ofNat_toNat c
  have value : c.val.toNat = c.toNat := rfl
  unfold String.utf8EncodeChar
  simp only [value]
  split
  case isTrue one =>
    have first := start_ofNat (n := c.toNat) (by omega)
    rw [if_pos (by omega), again] at first
    exact decodeFrom_whole first rest
  split
  case isTrue two =>
    have read := decodeFrom_leads (leads_two (n := c.toNat) (by omega) (by omega)) rest (by omega)
    rw [if_pos rfl, show 64 * (c.toNat / 64) + c.toNat % 64 = c.toNat by omega, again] at read
    exact read
  split
  case isTrue three =>
    have read := decodeFrom_leads (leads_three (n := c.toNat) (by omega) (by omega) (by omega))
      (.ofNat (c.toNat % 64 + 128) :: rest) (by omega)
    rw [if_neg (by decide), decodeFrom_six rest (by omega), if_pos rfl,
      show 64 * (64 * (c.toNat / 4096) + c.toNat / 64 % 64) + c.toNat % 64 = c.toNat by omega,
      again] at read
    exact read
  case isFalse four =>
    have read := decodeFrom_leads (leads_four (n := c.toNat) (by omega) (by omega))
      (.ofNat (c.toNat / 64 % 64 + 128) :: .ofNat (c.toNat % 64 + 128) :: rest) (by omega)
    rw [if_neg (by decide), decodeFrom_six _ (by omega), if_neg (by decide),
      decodeFrom_six rest (by omega), if_pos rfl,
      show 64 * (64 * (64 * (c.toNat / 262144) + c.toNat / 4096 % 64) + c.toNat / 64 % 64)
        + c.toNat % 64 = c.toNat by omega, again] at read
    exact read

theorem decode_encode (text : String) : decode (encode text) = text := by
  have each : ∀ chars : List Char,
      decodeFrom none (chars.flatMap String.utf8EncodeChar) = chars := by
    intro chars
    induction chars with
    | nil => rfl
    | cons c rest ih => rw [List.flatMap_cons, decodeFrom_char, ih]
  rw [decode, encode, each, String.ofList_toList]

theorem zero_notMem_char {c : Char} (solid : c ≠ '\x00') : 0 ∉ String.utf8EncodeChar c := by
  have nonzero := toNat_ne_zero solid
  have value : c.val.toNat = c.toNat := rfl
  have byte {n : Nat} (small : n < 256) (positive : 0 < n) : (0 : UInt8) ≠ .ofNat n := by
    intro zero
    have same := congrArg UInt8.toNat zero
    rw [UInt8.toNat_ofNat_of_lt' small] at same
    exact absurd same.symm (Nat.ne_of_gt positive)
  have valid := toNat_cases c
  unfold String.utf8EncodeChar
  simp only [value]
  split
  case isTrue =>
    rw [List.mem_singleton]
    exact byte (by omega) (by omega)
  split
  case isTrue =>
    simp only [List.mem_cons, List.not_mem_nil, or_false, not_or]
    exact ⟨byte (by omega) (by omega), byte (by omega) (by omega)⟩
  split
  case isTrue =>
    simp only [List.mem_cons, List.not_mem_nil, or_false, not_or]
    exact ⟨byte (by omega) (by omega), byte (by omega) (by omega), byte (by omega) (by omega)⟩
  case isFalse =>
    simp only [List.mem_cons, List.not_mem_nil, or_false, not_or]
    exact ⟨byte (by omega) (by omega), byte (by omega) (by omega), byte (by omega) (by omega),
      byte (by omega) (by omega)⟩

/-- Text without zero characters has no zero bytes. -/
theorem zero_notMem_encode {text : String} (solid : '\x00' ∉ text.toList) : 0 ∉ encode text := by
  unfold encode
  rw [List.mem_flatMap]
  rintro ⟨c, mem, zero⟩
  exact zero_notMem_char (fun same => solid (same ▸ mem)) zero

end Utf8

/-! ## Wide text -/

namespace Wide

/-- The text before its first zero character. -/
def beforeNul (text : String) : String := .ofList (text.toList.takeWhile (· != '\x00'))

/-- Text without zero characters is read as a whole. -/
theorem beforeNul_of_solid {text : String} (solid : '\x00' ∉ text.toList) :
    beforeNul text = text := by
  have whole : text.toList.takeWhile (· != '\x00') = text.toList :=
    List.takeWhile_eq_self_iff.mpr fun c found => bne_iff_ne.mpr fun zero => solid (zero ▸ found)
  rw [beforeNul, whole, String.ofList_toList]

variable {size : Nat}

/-- A unit that fits its bytes is spelled by them. -/
theorem toWord_unitBytes {unit : Nat} (word : size = 2 ∨ size = 4) (fits : unit < 2 ^ (8 * size)) :
    (Bytes.toWord (unitBytes size unit)).toNat = unit := by
  have count : (if size = 2 then 2 else 4) = size := by split <;> omega
  have small : 2 ^ (8 * size) ≤ UInt64.size := by rcases word with rfl | rfl <;> decide
  rw [unitBytes, count, Bytes.toWord_ofWord fun i beyond => Bits.bit_ofNat_of_lt fits beyond]
  exact UInt64.toNat_ofNat_of_lt' (Nat.lt_of_lt_of_le fits small)

theorem length_unitBytes (word : size = 2 ∨ size = 4) (unit : Nat) :
    (unitBytes size unit).length = size := by
  rw [unitBytes, Bytes.length_ofWord]
  split <;> omega

/-- Units in front of other bytes are read first. -/
theorem pairs_flatMap_append (units : List Nat) (fits : ∀ unit ∈ units, unit < 2 ^ 16)
    (tail : Bytes) : pairs (units.flatMap (unitBytes 2) ++ tail) = units ++ pairs tail := by
  induction units with
  | nil => rfl
  | cons unit rest ih =>
    obtain ⟨own, others⟩ := List.forall_mem_cons.mp fits
    have first : (Bytes.toWord (unitBytes 2 unit)).toNat = unit := toWord_unitBytes (.inl rfl) own
    exact List.cons_eq_cons.mpr ⟨first, ih others⟩

theorem quads_flatMap_append (units : List Nat) (fits : ∀ unit ∈ units, unit < 2 ^ 32)
    (tail : Bytes) : quads (units.flatMap (unitBytes 4) ++ tail) = units ++ quads tail := by
  induction units with
  | nil => rfl
  | cons unit rest ih =>
    obtain ⟨own, others⟩ := List.forall_mem_cons.mp fits
    have first : (Bytes.toWord (unitBytes 4 unit)).toNat = unit := toWord_unitBytes (.inr rfl) own
    exact List.cons_eq_cons.mpr ⟨first, ih others⟩

theorem pairs_flatMap (units : List Nat) (fits : ∀ unit ∈ units, unit < 2 ^ 16) :
    pairs (units.flatMap (unitBytes 2)) = units := by
  rw [← List.append_nil (units.flatMap (unitBytes 2)), pairs_flatMap_append units fits]
  exact List.append_nil units

theorem quads_flatMap (units : List Nat) (fits : ∀ unit ∈ units, unit < 2 ^ 32) :
    quads (units.flatMap (unitBytes 4)) = units := by
  rw [← List.append_nil (units.flatMap (unitBytes 4)), quads_flatMap_append units fits]
  exact List.append_nil units

theorem scalar_toNat (c : Char) : scalar c.toNat = c := by
  have valid : c.toNat.isValidChar := c.valid
  rw [scalar, if_pos valid, Char.ofNat_toNat]

/-- The units of a character are read as the character. -/
theorem decodeUtf16_utf16 (c : Char) (rest : List Nat) :
    decodeUtf16 (utf16 c ++ rest) = c :: decodeUtf16 rest := by
  have valid := toNat_cases c
  unfold utf16
  dsimp only
  split
  case isTrue single =>
    have alone : isHighSurrogate c.toNat = false := by
      simp only [isHighSurrogate, Bool.and_eq_false_imp, decide_eq_true_eq, decide_eq_false_iff_not]
      omega
    cases rest with
    | nil => simp [decodeUtf16, scalar_toNat]
    | cons next rest => simp [decodeUtf16, alone, scalar_toNat]
  case isFalse pair =>
    have high : isHighSurrogate (0xD800 + (c.toNat - 0x10000) / 0x400) = true := by
      simp only [isHighSurrogate, Bool.and_eq_true, decide_eq_true_eq]
      omega
    have low : isLowSurrogate (0xDC00 + (c.toNat - 0x10000) % 0x400) = true := by
      simp only [isLowSurrogate, Bool.and_eq_true, decide_eq_true_eq]
      omega
    have whole : joined (0xD800 + (c.toNat - 0x10000) / 0x400)
        (0xDC00 + (c.toNat - 0x10000) % 0x400) = c := by
      rw [joined, show 0x10000 + (0xD800 + (c.toNat - 0x10000) / 0x400 - 0xD800) * 0x400
        + (0xDC00 + (c.toNat - 0x10000) % 0x400 - 0xDC00) = c.toNat by omega, Char.ofNat_toNat]
    simp only [List.cons_append, List.nil_append]
    rw [decodeUtf16, high, low, whole]
    rfl

theorem decodeUtf16_flatMap (chars : List Char) : decodeUtf16 (chars.flatMap utf16) = chars := by
  induction chars with
  | nil => rfl
  | cons c rest ih => rw [List.flatMap_cons, decodeUtf16_utf16, ih]

theorem units_fit (word : size = 2 ∨ size = 4) (text : String) :
    ∀ unit ∈ units size text, unit < 2 ^ (8 * size) := by
  intro unit found
  rcases word with rfl | rfl
  · obtain ⟨c, -, found⟩ := List.mem_flatMap.mp found
    have valid := toNat_cases c
    unfold utf16 at found
    dsimp only at found
    split at found <;> simp at found <;> omega
  · obtain ⟨c, -, rfl⟩ := List.mem_map.mp found
    have valid := toNat_cases c
    omega

theorem utf16_ne_zero {c : Char} (solid : c ≠ '\x00') : ∀ unit ∈ utf16 c, unit ≠ 0 := by
  intro unit found
  have nonzero := toNat_ne_zero solid
  unfold utf16 at found
  dsimp only at found
  split at found <;> simp at found <;> omega

theorem takeWhile_flatMap_utf16 (chars : List Char) :
    (chars.flatMap utf16).takeWhile (· != 0)
      = (chars.takeWhile (· != '\x00')).flatMap utf16 := by
  induction chars with
  | nil => rfl
  | cons c rest ih =>
    by_cases zero : c = '\x00'
    · subst zero
      rfl
    · have solid : ∀ unit ∈ utf16 c, (unit != 0) = true := fun unit found =>
        bne_iff_ne.mpr (utf16_ne_zero zero unit found)
      rw [List.flatMap_cons, List.takeWhile_append_of_pos solid, ih]
      simp [zero]

/-- The units before the first zero unit are those of the text before its first zero character. -/
theorem takeWhile_units (size : Nat) (text : String) :
    (units size text).takeWhile (· != 0) = units size (beforeNul text) := by
  unfold units beforeNul
  rw [String.toList_ofList]
  split
  · exact takeWhile_flatMap_utf16 text.toList
  · have same : ((· != 0) ∘ Char.toNat) = (· != '\x00') := by
      funext c
      by_cases zero : c = '\x00'
      · subst zero
        rfl
      · exact (bne_iff_ne.mpr (toNat_ne_zero zero)).trans (bne_iff_ne.mpr zero).symm
    rw [List.takeWhile_map, same]

/-- What a reader finds of a text is read as the text before its first zero character. -/
theorem decode_units (word : size = 2 ∨ size = 4) (text : String) :
    decode size (((units size text).takeWhile (· != 0)).flatMap (unitBytes size))
      = beforeNul text := by
  have again : (units size (beforeNul text)).takeWhile (· != 0) = units size (beforeNul text) := by
    rw [← takeWhile_units, List.takeWhile_idem]
  have fit := units_fit word (beforeNul text)
  rw [takeWhile_units, decode]
  rcases word with rfl | rfl
  · rw [if_pos rfl, pairs_flatMap _ fit, again, units, if_pos rfl, decodeUtf16_flatMap,
      String.ofList_toList]
  · have scalars : scalar ∘ Char.toNat = id := funext scalar_toNat
    rw [if_neg (by decide), quads_flatMap _ fit, again, units, if_neg (by decide), List.map_map,
      scalars, List.map_id, String.ofList_toList]

/-- A wide text with zero units behind it, or with none, is read up to its first zero character. -/
theorem decode_padded (word : size = 2 ∨ size = 4) (text : String) (count : Nat) :
    decode size ((units size text ++ List.replicate count 0).flatMap (unitBytes size))
      = beforeNul text := by
  have fit : ∀ unit ∈ units size text ++ List.replicate count 0, unit < 2 ^ (8 * size) := by
    intro unit mem
    rcases List.mem_append.mp mem with own | last
    · exact units_fit word text unit own
    · rw [List.eq_of_mem_replicate last]
      exact Nat.two_pow_pos _
  have cut : (units size text ++ List.replicate count 0).takeWhile (· != 0)
      = (units size text).takeWhile (· != 0) := by
    rw [List.takeWhile_append]
    split
    case isTrue whole =>
      rw [(List.takeWhile_sublist _).eq_of_length whole]
      simp
    case isFalse => rfl
  have fit' : ∀ unit ∈ (units size text).takeWhile (· != 0), unit < 2 ^ (8 * size) :=
    fun unit mem => units_fit word text unit ((List.takeWhile_sublist _).mem mem)
  rw [← decode_units word, decode, decode]
  rcases word with rfl | rfl
  · rw [if_pos rfl, if_pos rfl, pairs_flatMap _ fit, pairs_flatMap _ fit', cut, List.takeWhile_idem]
  · rw [if_neg (by decide), if_neg (by decide), quads_flatMap _ fit, quads_flatMap _ fit', cut,
      List.takeWhile_idem]

/-- All the bytes of a wide text are read as the text before its first zero character. -/
theorem decode_encode (word : size = 2 ∨ size = 4) (text : String) :
    decode size (encode size text) = beforeNul text := decode_padded word text 1

end Wide

end CInterop.Text
