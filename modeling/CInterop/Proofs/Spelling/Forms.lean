import Mathlib.Data.List.TakeDrop
import Mathlib.Data.List.TakeWhile
import CInterop.Proofs.Spelling.Normal

/-!
# The forms of names

How a name is read, without the fuel that bounds the reading (`ofChars_eq`). `Reserved` lists the
spellings that have a meaning of their own: primitives, pointers and arrays. Every other name is one
to be looked up (`ofChars_eq_named_iff`). A name with a star behind it is a pointer to what the
name stands for, unless the two together spell a primitive (`ofChars_star`); one with a count in
brackets behind it is an array (`ofChars_brackets`).
-/

namespace CInterop

namespace Spelling

variable {text : List Char}

/-! ## Parts of names -/

theorem afterLead_eq_some_iff {lead rest : List Char} :
    afterLead lead text = some rest ↔ text = lead ++ rest := by
  unfold afterLead
  constructor
  · intro found
    split at found
    case isTrue here =>
      obtain ⟨tail, rfl⟩ := List.isPrefixOf_iff_prefix.mp here
      rw [List.drop_left] at found
      rw [Option.some.inj found]
    case isFalse => cases found
  · rintro rfl
    rw [if_pos (List.isPrefixOf_iff_prefix.mpr (List.prefix_append _ _)), List.drop_left]

theorem beforeLast_eq_some_iff {last : Char} {init : List Char} :
    beforeLast last text = some init ↔ text = init ++ [last] := by
  unfold beforeLast
  rcases List.eq_nil_or_concat text with rfl | ⟨start, own, rfl⟩
  · simp
  · simp [List.concat_eq_append, and_comm]

theorem splitAtLast_append {c : Char} (before : List Char) {after : List Char} (last : c ∉ after) :
    splitAtLast c (before ++ c :: after) = some (before, after) := by
  have others : ∀ d ∈ after.reverse, (d != c) = true := fun d mem =>
    bne_iff_ne.mpr fun same => last (same ▸ List.mem_reverse.mp mem)
  have turned : (before ++ c :: after).reverse = after.reverse ++ c :: before.reverse := by simp
  have first : (c != c) = false := bne_self_eq_false c
  unfold splitAtLast
  rw [turned, List.span_eq_takeWhile_dropWhile, List.takeWhile_append_of_pos others,
    List.dropWhile_append_of_pos others, List.takeWhile_cons_of_neg (by simp),
    List.dropWhile_cons_of_neg (by simp)]
  simp

/-- The part behind the last occurrence of a character does not have it. -/
theorem splitAtLast_eq_some_iff {c : Char} {before after : List Char} :
    splitAtLast c text = some (before, after) ↔ text = before ++ c :: after ∧ c ∉ after := by
  constructor
  · intro found
    by_cases mem : c ∈ text
    · obtain ⟨behind, ahead, turned, last⟩ :=
        List.eq_append_cons_of_mem (List.mem_reverse.mpr mem)
      have own : text = ahead.reverse ++ c :: behind.reverse := by
        rw [← List.reverse_reverse text, turned]
        simp
      have apart : c ∉ behind.reverse := fun inside => last (List.mem_reverse.mp inside)
      rw [own, splitAtLast_append _ apart] at found
      cases found
      exact ⟨own, apart⟩
    · have all : ∀ d ∈ text.reverse, (d != c) = true := fun d inside =>
        bne_iff_ne.mpr fun same => mem (same ▸ List.mem_reverse.mp inside)
      unfold splitAtLast at found
      rw [List.span_eq_takeWhile_dropWhile, List.dropWhile_eq_nil_iff.mpr all] at found
      cases found
  · rintro ⟨rfl, last⟩
    exact splitAtLast_append before last

theorem array?_eq_some_iff {element : List Char} {count : Nat} :
    array? text = some (element, count) ↔ ∃ inside, text = element ++ '[' :: (inside ++ [']'])
      ∧ '[' ∉ inside ∧ count? (Text.trim inside) = some count := by
  unfold array?
  constructor
  · intro found
    obtain ⟨⟨before, rest⟩, split, found⟩ := Option.bind_eq_some_iff.mp found
    obtain ⟨inside, closed, found⟩ := Option.bind_eq_some_iff.mp found
    obtain ⟨_, counted, same⟩ := Option.bind_eq_some_iff.mp found
    cases same
    obtain ⟨rfl, last⟩ := splitAtLast_eq_some_iff.mp split
    obtain rfl := beforeLast_eq_some_iff.mp closed
    exact ⟨inside, rfl, fun mem => last (List.mem_append_left _ mem), counted⟩
  · rintro ⟨inside, rfl, last, counted⟩
    have split : splitAtLast '[' (element ++ '[' :: (inside ++ [']']))
        = some (element, inside ++ [']']) :=
      splitAtLast_eq_some_iff.mpr ⟨rfl, by simpa using last⟩
    refine Option.bind_eq_some_iff.mpr ⟨_, split, ?_⟩
    refine Option.bind_eq_some_iff.mpr ⟨inside, beforeLast_eq_some_iff.mpr rfl, ?_⟩
    exact Option.bind_eq_some_iff.mpr ⟨count, counted, rfl⟩

end Spelling

namespace TypeExpr

open Spelling

/-! ## Reading without fuel -/

/-- The form of a name, given by its characters. -/
def ofChars (text : List Char) : TypeExpr := read (text.length + 1) text

theorem ofString_eq (name : String) : ofString name = ofChars name.toList := rfl

/-- What a pointer that is written with `POINTER` points at. -/
def lead? (normal : List Char) : Option (List Char) :=
  afterLead "POINTER(".toList normal |>.bind (beforeLast ')')

theorem lead?_eq_some_iff {normal target : List Char} :
    lead? normal = some target ↔ normal = "POINTER(".toList ++ (target ++ [')']) := by
  unfold lead?
  rw [Option.bind_eq_some_iff]
  simp only [afterLead_eq_some_iff, beforeLast_eq_some_iff]
  constructor
  · rintro ⟨rest, rfl, rfl⟩
    rfl
  · exact fun same => ⟨_, same, rfl⟩

/-- The form of a name, given the forms of its parts. -/
def step (part : List Char → TypeExpr) (text : List Char) : TypeExpr :=
  match primitive? (normalize text) with
  | some found => primitive found
  | none =>
    match lead? (normalize text) with
    | some target => pointer (part target)
    | none =>
      match beforeLast '*' (normalize text) with
      | some target => pointer (part target)
      | none =>
        match array? (normalize text) with
        | some (element, count) => array (part element) count
        | none => named (String.ofList text) (String.ofList (normalize text))

theorem read_succ (fuel : Nat) (text : List Char) :
    read (fuel + 1) text = step (read fuel) text := rfl

/-- The parts of a name are shorter than the name. -/
theorem step_congr {part other : List Char → TypeExpr} {text : List Char}
    (same : ∀ target : List Char, target.length < text.length → part target = other target) :
    step part text = step other text := by
  have bound := length_normalize_le text
  have agree (before : List Char) {target after : List Char}
      (inside : normalize text = before ++ target ++ after) (proper : before ++ after ≠ []) :
      part target = other target := by
    have less := List.length_pos_iff.mpr proper
    rw [inside] at bound
    simp only [List.length_append] at bound less
    exact same target (by omega)
  unfold step
  split
  case h_1 => rfl
  split
  case h_1 target lead =>
    rw [agree _ ((lead?_eq_some_iff.mp lead).trans (List.append_assoc ..).symm) (by simp)]
  split
  case h_1 target star => rw [agree [] (beforeLast_eq_some_iff.mp star) (by simp)]
  split
  case h_1 element count found =>
    obtain ⟨inside, split, -⟩ := array?_eq_some_iff.mp found
    rw [agree [] split (by simp)]
  case h_2 => rfl

/-- Fuel beyond the length of the name changes nothing. -/
theorem read_of_fuel {fuel more : Nat} {text : List Char} (enough : text.length < fuel)
    (plenty : text.length < more) : read fuel text = read more text := by
  induction fuel generalizing more text with
  | zero => omega
  | succ fuel ih =>
    obtain ⟨more, rfl⟩ : ∃ n, more = n + 1 := ⟨more - 1, by omega⟩
    rw [read_succ, read_succ]
    exact step_congr fun target shorter => ih (by omega) (by omega)

theorem ofChars_eq (text : List Char) : ofChars text = step ofChars text :=
  step_congr fun _ shorter => read_of_fuel shorter (Nat.lt_succ_self _)

/-! ## Reserved spellings -/

/-- The spellings that have a meaning of their own. -/
inductive Reserved : List Char → Prop
  | primitive {spelling : String} {primitive : Primitive}
      (known : (spelling, primitive) ∈ Primitive.spellings) : Reserved spelling.toList
  | lead (target : List Char) : Reserved ("POINTER(".toList ++ (target ++ [')']))
  | star (target : List Char) : Reserved (target ++ ['*'])
  | brackets (element : List Char) {inside : List Char} {count : Nat} (last : '[' ∉ inside)
      (counted : count? (Text.trim inside) = some count) :
      Reserved (element ++ '[' :: (inside ++ [']']))

theorem mem_spellings_of_primitive? {normal : List Char} {found : Primitive}
    (known : primitive? normal = some found) :
    (String.ofList normal, found) ∈ Primitive.spellings := by
  obtain ⟨before, after, split, -⟩ := List.lookup_eq_some_iff.mp known
  rw [split]
  exact List.mem_append_right _ List.mem_cons_self

/-- A spelling is reserved if one of the readings accepts it. -/
theorem reserved_iff {normal : List Char} :
    Reserved normal ↔ (primitive? normal).isSome ∨ (lead? normal).isSome
      ∨ (beforeLast '*' normal).isSome ∨ (array? normal).isSome := by
  simp only [Option.isSome_iff_exists]
  constructor
  · rintro (known | target | target | ⟨element, last, counted⟩)
    case primitive spelling found =>
      cases missing : primitive? spelling.toList with
      | some found => exact .inl ⟨found, rfl⟩
      | none =>
        rw [primitive?, String.ofList_toList] at missing
        exact absurd rfl (bne_iff_ne.mp (List.lookup_eq_none_iff.mp missing _ known))
    case lead => exact .inr (.inl ⟨target, lead?_eq_some_iff.mpr rfl⟩)
    case star => exact .inr (.inr (.inl ⟨target, beforeLast_eq_some_iff.mpr rfl⟩))
    case brackets inside count =>
      exact .inr (.inr (.inr ⟨(element, count), array?_eq_some_iff.mpr ⟨_, rfl, last, counted⟩⟩))
  · rintro (⟨found, known⟩ | ⟨target, lead⟩ | ⟨target, star⟩ | ⟨⟨element, count⟩, found⟩)
    · exact String.toList_ofList (l := normal) ▸ .primitive (mem_spellings_of_primitive? known)
    · exact lead?_eq_some_iff.mp lead ▸ .lead target
    · exact beforeLast_eq_some_iff.mp star ▸ .star target
    · obtain ⟨inside, split, last, counted⟩ := array?_eq_some_iff.mp found
      exact split ▸ .brackets element last counted

instance : DecidablePred Reserved := fun _ => decidable_of_iff' _ reserved_iff

/-- A name with a meaning of its own is a primitive, a pointer or an array; any other is looked
up. -/
theorem ofChars_cases (text : List Char) :
    (Reserved (normalize text) ∧ ((∃ found, ofChars text = primitive found)
        ∨ (∃ target, ofChars text = pointer target)
        ∨ ∃ element count, ofChars text = array element count))
      ∨ ¬ Reserved (normalize text)
        ∧ ofChars text = named (String.ofList text) (String.ofList (normalize text)) := by
  rw [ofChars_eq, step, reserved_iff]
  split
  case h_1 found known => exact .inl ⟨.inl (by simp [known]), .inl ⟨found, rfl⟩⟩
  case h_2 unknown =>
  split
  case h_1 target lead => exact .inl ⟨.inr (.inl (by simp [lead])), .inr (.inl ⟨_, rfl⟩)⟩
  case h_2 unled =>
  split
  case h_1 target star => exact .inl ⟨.inr (.inr (.inl (by simp [star]))), .inr (.inl ⟨_, rfl⟩)⟩
  case h_2 unstarred =>
  split
  case h_1 element count found =>
    exact .inl ⟨.inr (.inr (.inr (by simp [found]))), .inr (.inr ⟨_, _, rfl⟩)⟩
  case h_2 uncounted => exact .inr ⟨by simp [unknown, unled, unstarred, uncounted], rfl⟩

/-- Exactly the names without a meaning of their own are looked up. -/
theorem ofChars_eq_named_iff {text : List Char} :
    ofChars text = named (String.ofList text) (String.ofList (normalize text))
      ↔ ¬ Reserved (normalize text) := by
  rcases ofChars_cases text with ⟨reserved, forms⟩ | ⟨free, looked_up⟩
  · refine iff_of_false (fun looked_up => ?_) (not_not_intro reserved)
    rcases forms with ⟨_, own⟩ | ⟨_, own⟩ | ⟨_, _, own⟩ <;> cases own.symm.trans looked_up
  · exact iff_of_true looked_up free

/-! ## Stars and brackets behind a name -/

theorem last_eq_of_append_eq {before after : List Char} {a b : Char}
    (same : before ++ [a] = after ++ [b]) : a = b := by
  have last := congrArg List.getLast? same
  rw [List.getLast?_concat, List.getLast?_concat] at last
  exact Option.some.inj last

/-- No primitive is spelled with a last character that none of the spellings has. -/
theorem primitive?_eq_none_of_last {before : List Char} {last : Char}
    (other : ∀ entry ∈ Primitive.spellings, entry.1.toList.getLast? ≠ some last) :
    primitive? (before ++ [last]) = none := by
  refine Option.eq_none_iff_forall_ne_some.mpr fun found known => ?_
  have own := other _ (mem_spellings_of_primitive? known)
  rw [String.toList_ofList, List.getLast?_concat] at own
  exact own rfl

/-- The primitives that are spelled with a star. -/
theorem primitive?_star {target : List Char} {found : Primitive}
    (known : primitive? (target ++ ['*']) = some found) :
    target = "void".toList ∧ found = .pointer ∨ target = "char".toList ∧ found = .cstring
      ∨ target = "wchar_t".toList ∧ found = .wstring := by
  have starred : ∀ entry ∈ Primitive.spellings, entry.1.toList.getLast? = some '*' →
      entry.1.toList.dropLast = "void".toList ∧ entry.2 = .pointer
        ∨ entry.1.toList.dropLast = "char".toList ∧ entry.2 = .cstring
        ∨ entry.1.toList.dropLast = "wchar_t".toList ∧ entry.2 = .wstring := by decide
  have own := starred _ (mem_spellings_of_primitive? known)
  rw [String.toList_ofList, List.getLast?_concat, List.dropLast_concat] at own
  exact own rfl

theorem lead?_eq_none_of_last {before : List Char} {last : Char} (other : last ≠ ')') :
    lead? (before ++ [last]) = none := by
  refine Option.eq_none_iff_forall_ne_some.mpr fun target lead => other ?_
  have whole := lead?_eq_some_iff.mp lead
  rw [← List.append_assoc] at whole
  exact last_eq_of_append_eq whole

theorem ofChars_star {text target : List Char} (same : normalize text = target ++ ['*'])
    (free : primitive? (target ++ ['*']) = none) : ofChars text = pointer (ofChars target) := by
  have unled : lead? (target ++ ['*']) = none := lead?_eq_none_of_last (by decide)
  have starred : beforeLast '*' (target ++ ['*']) = some target := beforeLast_eq_some_iff.mpr rfl
  simp only [ofChars_eq text, step, same, free, unled, starred]

theorem ofChars_brackets {text element inside : List Char} {count : Nat}
    (same : normalize text = element ++ '[' :: (inside ++ [']'])) (last : '[' ∉ inside)
    (counted : count? (Text.trim inside) = some count) :
    ofChars text = array (ofChars element) count := by
  have closed : normalize text = (element ++ '[' :: inside) ++ [']'] := by
    rw [same, List.append_assoc, List.cons_append]
  have free : primitive? (normalize text) = none :=
    closed ▸ primitive?_eq_none_of_last (by decide)
  have unled : lead? (normalize text) = none := closed ▸ lead?_eq_none_of_last (by decide)
  have unstarred : beforeLast '*' (normalize text) = none := by
    refine Option.eq_none_iff_forall_ne_some.mpr fun target star => ?_
    exact absurd (last_eq_of_append_eq (closed.symm.trans (beforeLast_eq_some_iff.mp star)))
      (by decide)
  have found : array? (normalize text) = some (element, count) :=
    array?_eq_some_iff.mpr ⟨inside, same, last, counted⟩
  simp only [ofChars_eq text, step, free, unled, unstarred, found]

end TypeExpr

/-! ## Counts -/

namespace Spelling

theorem isBlank_of_isDigit {c : Char} (digit : c.isDigit = true) : Text.isBlank c = false := by
  obtain ⟨above, below⟩ := Char.isDigit_iff_toNat.mp digit
  replace above : 48 ≤ c.toNat := above
  replace below : c.toNat ≤ 57 := below
  have apart : ∀ range ∈ Text.blankRanges, range.2 < 48 ∨ 57 < range.1 := by decide
  refine List.any_eq_false.mpr fun range mem => ?_
  have outside := apart range mem
  simp only [Bool.and_eq_true, decide_eq_true_eq, not_and]
  omega

/-- A count is read from its decimal digits. -/
theorem count?_of_digits {digits : List Char} (filled : digits ≠ [])
    (each : ∀ c ∈ digits, c.isDigit = true) (word : Nat.ofDigitChars 10 digits 0 < Word.modulus) :
    count? digits = some (Nat.ofDigitChars 10 digits 0) := by
  have all : digits.all Char.isDigit = true := List.all_eq_true.mpr each
  have unsigned (rest : List Char) : digits ≠ '+' :: rest := fun signed =>
    absurd (each '+' (signed ▸ List.mem_cons_self)) (by decide)
  unfold count?
  split
  case h_1 rest => exact absurd rfl (unsigned rest)
  case h_2 =>
    have filled : digits.isEmpty = false := List.isEmpty_eq_false_iff.mpr filled
    simp only [filled, all, Bool.not_true, Bool.or_self]
    exact if_pos word

/-- A count in brackets is read as the count. -/
theorem count?_trim_toDigits {count : Nat} (word : count < Word.modulus) :
    count? (Text.trim (Nat.toDigits 10 count)) = some count := by
  have each : ∀ c ∈ Nat.toDigits 10 count, c.isDigit = true := fun c mem =>
    Nat.isDigit_of_mem_toDigits (by decide) (by decide) mem
  have same : Nat.ofDigitChars 10 (Nat.toDigits 10 count) 0 = count := Nat.ofDigitChars_ten_toDigits
  rw [Text.trim_of_solid fun c mem => isBlank_of_isDigit (each c mem),
    count?_of_digits Nat.toDigits_ne_nil each (same.symm ▸ word), same]

end Spelling

end CInterop
