import CInterop.Spelling

/-!
# Normal forms of names

Names are compared in a normal form: their words, joined by single spaces, without the space in
front of a star. `Normal` says this of the result alone. The normal form of every name is `Normal`,
and a name that is `Normal` is its own normal form (`normalize_eq_self_iff`), so that normalizing
twice is normalizing once. What is written behind a name is left behind its normal form, apart from
a space before it (`exists_normalize_append`), and a star without one (`normalize_append_star`).
-/

namespace CInterop

namespace Text

/-! ## Words -/

/-- A word: some characters, none of which is white space. -/
structure IsWord (word : List Char) : Prop where
  nonempty : word ≠ []
  solid : ∀ c ∈ word, isBlank c = false

theorem IsWord.append {word more : List Char} (own : IsWord word)
    (solid : ∀ c ∈ more, isBlank c = false) : IsWord (word ++ more) :=
  ⟨List.append_ne_nil_of_left_ne_nil own.nonempty _,
    List.forall_mem_append.mpr ⟨own.solid, solid⟩⟩

theorem not_space_of_solid {text : List Char} (solid : ∀ c ∈ text, isBlank c = false) :
    ' ' ∉ text :=
  fun mem => absurd (solid ' ' mem) (by decide)

theorem dropWhile_of_solid {text : List Char} (solid : ∀ c ∈ text, isBlank c = false) :
    text.dropWhile isBlank = text := by
  cases text with
  | nil => rfl
  | cons c rest => rw [List.dropWhile_cons_of_neg (by simp [solid c List.mem_cons_self])]

theorem trim_of_solid {text : List Char} (solid : ∀ c ∈ text, isBlank c = false) :
    trim text = text := by
  have turned : ∀ c ∈ text.reverse, isBlank c = false := fun c mem =>
    solid c (List.mem_reverse.mp mem)
  rw [trim, dropWhile_of_solid solid, dropWhile_of_solid turned, List.reverse_reverse]

theorem wordsFrom_of_solid {begun more : List Char} (solid : ∀ c ∈ more, isBlank c = false) :
    wordsFrom begun more = if begun.reverse ++ more = [] then [] else [begun.reverse ++ more] := by
  induction more generalizing begun with
  | nil => simp [wordsFrom, List.isEmpty_iff]
  | cons c rest ih =>
    obtain ⟨own, others⟩ := List.forall_mem_cons.mp solid
    rw [wordsFrom, own, if_neg Bool.false_ne_true, ih others]
    simp

theorem wordsFrom_append_blank {begun before after : List Char} {c : Char}
    (blank : isBlank c = true) :
    wordsFrom begun (before ++ c :: after) = wordsFrom begun before ++ words after := by
  induction before generalizing begun with
  | nil =>
    rw [List.nil_append, wordsFrom.eq_2, if_pos blank, wordsFrom, words]
    split <;> rfl
  | cons d rest ih =>
    rw [List.cons_append, wordsFrom, wordsFrom]
    split
    case isTrue => split <;> simp [ih]
    case isFalse => exact ih

/-- White space ends a word. -/
theorem words_append_blank {before after : List Char} {c : Char} (blank : isBlank c = true) :
    words (before ++ c :: after) = words before ++ words after := wordsFrom_append_blank blank

theorem words_of_solid {text : List Char} (solid : ∀ c ∈ text, isBlank c = false) :
    words text = if text = [] then [] else [text] := wordsFrom_of_solid solid

theorem words_of_isWord {word : List Char} (own : IsWord word) : words word = [word] := by
  rw [words_of_solid own.solid, if_neg own.nonempty]

/-- A text is one word, or none, behind its last white space. -/
theorem last_blank_cases (text : List Char) :
    (∀ c ∈ text, isBlank c = false) ∨ ∃ before c after, isBlank c = true
      ∧ (∀ d ∈ after, isBlank d = false) ∧ text = before ++ c :: after := by
  induction text with
  | nil => exact .inl (List.forall_mem_nil _)
  | cons c rest ih =>
    rcases ih with solid | ⟨before, d, after, blank, solid, rfl⟩
    · cases own : isBlank c with
      | false => exact .inl (List.forall_mem_cons.mpr ⟨own, solid⟩)
      | true => exact .inr ⟨[], c, rest, own, solid, rfl⟩
    · exact .inr ⟨c :: before, d, after, blank, solid, rfl⟩

theorem isWord_of_mem_wordsFrom {begun text : List Char}
    (solid : ∀ c ∈ begun, isBlank c = false) : ∀ word ∈ wordsFrom begun text, IsWord word := by
  have whole (own : ¬ begun.isEmpty = true) : IsWord begun.reverse :=
    ⟨by simpa using own, fun c mem => solid c (List.mem_reverse.mp mem)⟩
  induction text generalizing begun with
  | nil =>
    rw [wordsFrom]
    split
    case isTrue => exact List.forall_mem_nil _
    case isFalse own => exact List.forall_mem_singleton.mpr (whole own)
  | cons c rest ih =>
    rw [wordsFrom]
    split
    case isTrue =>
      have others := ih (List.forall_mem_nil _) fun own => absurd rfl own
      split
      case isTrue => exact others
      case isFalse own => exact List.forall_mem_cons.mpr ⟨whole own, others⟩
    case isFalse own =>
      have longer : ∀ d ∈ c :: begun, isBlank d = false :=
        List.forall_mem_cons.mpr ⟨Bool.eq_false_iff.mpr own, solid⟩
      exact ih longer fun _ =>
        ⟨by simp, fun d mem => longer d (List.mem_reverse.mp mem)⟩

theorem isWord_of_mem_words {text word : List Char} (mem : word ∈ words text) : IsWord word :=
  isWord_of_mem_wordsFrom (List.forall_mem_nil _) word mem

/-- Words that are joined by spaces are found again. -/
theorem words_intercalate {ws : List (List Char)} (each : ∀ word ∈ ws, IsWord word) :
    words (List.intercalate [' '] ws) = ws := by
  induction ws with
  | nil => rfl
  | cons word rest ih =>
    obtain ⟨own, others⟩ := List.forall_mem_cons.mp each
    cases rest with
    | nil => rw [List.intercalate_singleton, words_of_isWord own]
    | cons next rest =>
      rw [List.intercalate_cons_cons, List.append_assoc, List.singleton_append,
        words_append_blank (by decide), words_of_isWord own, ih others]
      rfl

theorem intercalate_concat (ws : List (List Char)) (word : List Char) :
    List.intercalate [' '] (ws ++ [word])
      = if ws = [] then word else List.intercalate [' '] ws ++ ' ' :: word := by
  induction ws with
  | nil => simp
  | cons first rest ih =>
    rw [if_neg (List.cons_ne_nil _ _), List.cons_append,
      List.intercalate_cons_of_ne_nil (List.append_ne_nil_of_right_ne_nil _ (by simp)), ih]
    split
    case isTrue empty => simp [empty]
    case isFalse more => simp [List.intercalate_cons_of_ne_nil more]

theorem head?_append_of_ne_nil {text : List Char} (filled : text ≠ []) (more : List Char) :
    (text ++ more).head? = text.head? := by
  cases text with
  | nil => exact absurd rfl filled
  | cons => rfl

theorem head?_intercalate {word : List Char} (own : word ≠ []) (ws : List (List Char)) :
    (List.intercalate [' '] (word :: ws)).head? = word.head? := by
  cases ws with
  | nil => rw [List.intercalate_singleton]
  | cons =>
    rw [List.intercalate_cons_cons, List.append_assoc]
    exact head?_append_of_ne_nil own _

theorem append_intercalate (first word : List Char) (ws : List (List Char)) :
    first ++ List.intercalate [' '] (word :: ws)
      = List.intercalate [' '] ((first ++ word) :: ws) := by
  cases ws with
  | nil => simp
  | cons => simp [List.intercalate_cons_cons]

theorem length_intercalate_wordsFrom_le (begun text : List Char) :
    (List.intercalate [' '] (wordsFrom begun text)).length ≤ begun.length + text.length := by
  induction text generalizing begun with
  | nil => rw [wordsFrom]; split <;> simp
  | cons c rest ih =>
    rw [wordsFrom, List.length_cons]
    split
    case isTrue =>
      have others := ih []
      rw [List.length_nil] at others
      split
      case isTrue => omega
      case isFalse =>
        cases found : wordsFrom [] rest with
        | nil => simp
        | cons next later =>
          rw [List.intercalate_cons_cons, ← found]
          simp only [List.length_append, List.length_reverse, List.length_singleton]
          omega
    case isFalse =>
      have others := ih (c :: begun)
      rw [List.length_cons] at others
      omega

end Text

namespace Spelling

open Text

/-! ## Stars -/

theorem glueStars_cons {c : Char} {rest : List Char} (apart : c ≠ ' ' ∨ rest.head? ≠ some '*') :
    glueStars (c :: rest) = c :: glueStars rest := by
  rw [glueStars]
  rintro rest rfl rfl
  simp at apart

theorem glueStars_space {text : List Char} (star : text.head? = some '*') :
    glueStars (' ' :: text) = glueStars text := by
  cases text with
  | nil => cases star
  | cons c rest =>
    cases star
    rw [glueStars, glueStars_cons (.inl (by decide))]

theorem glueStars_append {text more : List Char}
    (apart : text.getLast? ≠ some ' ' ∨ more.head? ≠ some '*') :
    glueStars (text ++ more) = glueStars text ++ glueStars more := by
  fun_induction glueStars text with
  | case1 => rfl
  | case2 rest ih =>
    rw [List.cons_append, List.cons_append, glueStars, ih, List.cons_append]
    cases rest with
    | nil => simp
    | cons => simpa using apart
  | case3 c rest other ih =>
    have own : c ≠ ' ' ∨ (rest ++ more).head? ≠ some '*' := by
      cases rest with
      | nil => simpa using apart
      | cons d rest =>
        by_cases space : c = ' '
        · exact .inr fun star => other rest space (by simpa using star)
        · exact .inl space
    rw [List.cons_append, glueStars_cons own, ih, List.cons_append]
    cases rest with
    | nil => exact .inl (by simp)
    | cons => simpa using apart

theorem glueStars_of_solid {text : List Char} (solid : ' ' ∉ text) : glueStars text = text := by
  induction text with
  | nil => rfl
  | cons c rest ih =>
    rw [List.mem_cons, not_or] at solid
    rw [glueStars_cons (.inl fun space => solid.1 space.symm), ih solid.2]

theorem length_glueStars_le (text : List Char) : (glueStars text).length ≤ text.length := by
  fun_induction glueStars text with
  | case1 => exact Nat.le_refl _
  | case2 rest ih => simp only [List.length_cons]; omega
  | case3 c rest _ ih => simp only [List.length_cons]; omega

/-! ## Normal forms -/

/-- A name in normal form: words, joined by single spaces, of which none but the first begins with a
star. -/
def Normal (text : List Char) : Prop :=
  ∃ ws, (∀ word ∈ ws, IsWord word) ∧ (∀ word ∈ ws.tail, word.head? ≠ some '*')
    ∧ text = List.intercalate [' '] ws

/-- Words that begin with a star are glued to the word before them. -/
theorem exists_glueStars_intercalate {word : List Char} {ws : List (List Char)}
    (own : IsWord word) (others : ∀ word ∈ ws, IsWord word) :
    ∃ more rest, (∀ c ∈ more, isBlank c = false)
      ∧ (∀ word ∈ rest, IsWord word ∧ word.head? ≠ some '*')
      ∧ glueStars (List.intercalate [' '] (word :: ws))
        = List.intercalate [' '] ((word ++ more) :: rest) := by
  induction ws generalizing word with
  | nil =>
    refine ⟨[], [], List.forall_mem_nil _, List.forall_mem_nil _, ?_⟩
    rw [List.append_nil, List.intercalate_singleton,
      glueStars_of_solid (not_space_of_solid own.solid)]
  | cons next ws ih =>
    obtain ⟨next_word, others⟩ := List.forall_mem_cons.mp others
    obtain ⟨more, rest, solid, each, same⟩ := ih next_word others
    have last : word.getLast? ≠ some ' ' := fun space =>
      not_space_of_solid own.solid (List.mem_of_getLast? space)
    rw [List.intercalate_cons_cons, List.append_assoc, List.singleton_append,
      glueStars_append (.inl last), glueStars_of_solid (not_space_of_solid own.solid)]
    have head := head?_intercalate next_word.nonempty ws
    by_cases star : next.head? = some '*'
    · refine ⟨next ++ more, rest, List.forall_mem_append.mpr ⟨next_word.solid, solid⟩, each, ?_⟩
      rw [glueStars_space (head.trans star), same, append_intercalate]
    · refine ⟨[], (next ++ more) :: rest, List.forall_mem_nil _,
        List.forall_mem_cons.mpr ⟨⟨next_word.append solid, ?_⟩, each⟩, ?_⟩
      · rwa [head?_append_of_ne_nil next_word.nonempty]
      · rw [glueStars_cons (.inr (head ▸ star)), same, List.intercalate_cons_cons, List.append_nil,
          List.append_assoc, List.singleton_append]

/-- The normal form of any name is in normal form. -/
theorem normal_normalize (name : List Char) : Normal (normalize name) := by
  unfold normalize
  have each : ∀ word ∈ words name, IsWord word := fun word mem => isWord_of_mem_words mem
  cases found : words name with
  | nil => exact ⟨[], List.forall_mem_nil _, List.forall_mem_nil _, rfl⟩
  | cons word ws =>
    rw [found] at each
    obtain ⟨own, others⟩ := List.forall_mem_cons.mp each
    obtain ⟨more, rest, solid, later, same⟩ := exists_glueStars_intercalate own others
    exact ⟨(word ++ more) :: rest,
      List.forall_mem_cons.mpr ⟨own.append solid, fun word mem => (later word mem).1⟩,
      fun word mem => (later word mem).2, same⟩

theorem glueStars_intercalate {ws : List (List Char)} (each : ∀ word ∈ ws, IsWord word)
    (apart : ∀ word ∈ ws.tail, word.head? ≠ some '*') :
    glueStars (List.intercalate [' '] ws) = List.intercalate [' '] ws := by
  induction ws with
  | nil => rfl
  | cons word rest ih =>
    obtain ⟨own, others⟩ := List.forall_mem_cons.mp each
    have alone := glueStars_of_solid (not_space_of_solid own.solid)
    cases rest with
    | nil => rw [List.intercalate_singleton, alone]
    | cons next rest =>
      obtain ⟨first, later⟩ := List.forall_mem_cons.mp apart
      have head := head?_intercalate (others next List.mem_cons_self).nonempty rest
      have last : word.getLast? ≠ some ' ' := fun space =>
        not_space_of_solid own.solid (List.mem_of_getLast? space)
      rw [List.intercalate_cons_cons, List.append_assoc, List.singleton_append,
        glueStars_append (.inl last), alone, glueStars_cons (.inr (head ▸ first)), ih others later]

theorem Normal.normalize_eq {name : List Char} (normal : Normal name) : normalize name = name := by
  obtain ⟨ws, each, apart, rfl⟩ := normal
  rw [normalize, words_intercalate each, glueStars_intercalate each apart]

/-- Exactly the names in normal form are their own normal form. -/
theorem normalize_eq_self_iff {name : List Char} : normalize name = name ↔ Normal name :=
  ⟨fun same => same ▸ normal_normalize name, Normal.normalize_eq⟩

theorem normalize_normalize (name : List Char) : normalize (normalize name) = normalize name :=
  (normal_normalize name).normalize_eq

theorem length_normalize_le (name : List Char) : (normalize name).length ≤ name.length := by
  have joined := length_intercalate_wordsFrom_le [] name
  rw [List.length_nil, Nat.zero_add] at joined
  exact Nat.le_trans (length_glueStars_le _) joined

/-! ## What is written behind a name -/

/-- Nothing, or a space. -/
def IsGap (gap : List Char) : Prop := gap = [] ∨ gap = [' ']

theorem normalize_append_gap (name : List Char) {gap : List Char} (free : IsGap gap) :
    normalize (name ++ gap) = normalize name := by
  rcases free with rfl | rfl
  · rw [List.append_nil]
  · rw [normalize, words_append_blank (by decide)]
    exact congrArg (fun ws => glueStars (List.intercalate [' '] ws)) (List.append_nil _)

theorem exists_intercalate_append (ws : List (List Char)) {last more : List Char}
    (solid : ∀ c ∈ last, isBlank c = false) (own : IsWord more) :
    ∃ gap, IsGap gap ∧ List.intercalate [' '] (ws ++ words (last ++ more))
      = List.intercalate [' '] (ws ++ words last) ++ gap ++ more := by
  have whole : IsWord (last ++ more) :=
    ⟨List.append_ne_nil_of_right_ne_nil _ own.nonempty,
      List.forall_mem_append.mpr ⟨solid, own.solid⟩⟩
  rw [words_of_isWord whole, words_of_solid solid, intercalate_concat]
  by_cases empty : last = []
  · subst empty
    rw [if_pos rfl, List.append_nil, List.nil_append]
    split
    case isTrue none =>
      subst none
      exact ⟨[], .inl rfl, rfl⟩
    case isFalse => exact ⟨[' '], .inr rfl, by simp⟩
  · refine ⟨[], .inl rfl, ?_⟩
    rw [if_neg empty, intercalate_concat]
    split <;> simp

/-- What is written behind a name is left behind its words, with or without a space. -/
theorem exists_intercalate_words_append (name : List Char) {more : List Char} (own : IsWord more) :
    ∃ gap, IsGap gap ∧ List.intercalate [' '] (words (name ++ more))
      = List.intercalate [' '] (words name) ++ gap ++ more := by
  rcases last_blank_cases name with solid | ⟨before, c, last, blank, solid, rfl⟩
  · exact exists_intercalate_append [] solid own
  · rw [List.append_assoc, List.cons_append, words_append_blank blank, words_append_blank blank]
    exact exists_intercalate_append (words before) solid own

/-- The words of a name end with the last of them, not with a space. -/
theorem getLast?_intercalate_words (name : List Char) :
    (List.intercalate [' '] (words name)).getLast? ≠ some ' ' := by
  rcases List.eq_nil_or_concat (words name) with none | ⟨ws, last, found⟩
  · rw [none]
    decide
  · rw [List.concat_eq_append] at found
    have mem : last ∈ words name := by simp [found]
    have own := isWord_of_mem_words mem
    intro space
    rw [found, intercalate_concat] at space
    have inside : last.getLast? = some ' ' := by
      split at space
      case isTrue => exact space
      case isFalse =>
        rw [List.append_cons, List.getLast?_append,
          List.getLast?_eq_some_getLast own.nonempty] at space
        rwa [List.getLast?_eq_some_getLast own.nonempty]
    exact not_space_of_solid own.solid (List.mem_of_getLast? inside)

/-- A star is glued to the name that it is written behind. -/
theorem normalize_append_star (name : List Char) :
    normalize (name ++ ['*']) = normalize name ++ ['*'] := by
  have star : IsWord ['*'] := ⟨List.cons_ne_nil _ _, List.forall_mem_singleton.mpr (by decide)⟩
  obtain ⟨gap, free, joined⟩ := exists_intercalate_words_append name star
  rw [normalize, joined, List.append_assoc,
    glueStars_append (.inl (getLast?_intercalate_words name))]
  rcases free with rfl | rfl <;> rfl

/-- Anything else stays apart from the name if it was. -/
theorem exists_normalize_append (name : List Char) {more : List Char} (own : IsWord more)
    (apart : more.head? ≠ some '*') :
    ∃ gap, IsGap gap ∧ normalize (name ++ more) = normalize name ++ gap ++ more := by
  obtain ⟨gap, free, joined⟩ := exists_intercalate_words_append name own
  have alone := glueStars_of_solid (not_space_of_solid own.solid)
  refine ⟨gap, free, ?_⟩
  rw [normalize, joined, glueStars_append (.inr apart), alone,
    glueStars_append (.inl (getLast?_intercalate_words name))]
  rcases free with rfl | rfl <;> rfl

end Spelling

end CInterop
