import CInterop.Proofs.Config.Precedence

/-!
# The parts of a path

The directory of a path has all its parts but the last one (`Path.parts_parent`), and a file in a
directory has one part more (`Path.parts_join`). Both begin where the path begins.
-/

namespace CInterop

namespace Path

variable {above name : List Char} {path up : String}

/-! ## Parts -/

/-- What a name in front of which there is a slash adds to the parts of a path. -/
def counted (name : List Char) : List String :=
  if name = [] ∨ name = ['.'] then [] else [String.ofList name]

theorem counted_eq_filter (name : List Char) :
    counted name
      = [String.ofList name].filter fun part => !part.isEmpty && part != "." := by
  have dot : String.ofList name = "." ↔ name = ['.'] := by
    rw [← String.toList_inj, String.toList_ofList]
    rfl
  unfold counted
  by_cases none : name = []
  · simp [none]
  · by_cases single : name = ['.'] <;> simp [none, single, dot]

theorem parts_name (solid : '/' ∉ name) :
    parts (.ofList name) = if name = [] then [] else [String.ofList name] := by
  unfold parts
  rw [String.toList_ofList, List.splitOn_eq_singleton solid]
  by_cases none : name = [] <;> simp [none]

/-- A name is added to the parts of what is in front of the slash. -/
theorem parts_below (solid : '/' ∉ name) (above : List Char) :
    parts (.ofList (above ++ '/' :: name)) = parts (.ofList above) ++ counted name := by
  have split : (above ++ '/' :: name).splitOn '/' = above.splitOn '/' ++ [name] := by
    rw [← List.splitOn_eq_singleton solid]
    exact List.splitOnP_append_cons above name (beq_self_eq_true '/')
  unfold parts
  rw [String.toList_ofList, String.toList_ofList, split, counted_eq_filter]
  cases found : above.splitOn '/' with
  | nil => exact absurd found (List.splitOnP_ne_nil _ _)
  | cons first rest =>
    simp only [List.map_append, List.map_cons, List.map_nil, List.cons_append, List.filter_append]
    split <;> rfl

theorem parts_dropTrailing (reversed : List Char) :
    parts (.ofList (dropTrailing reversed).reverse) = parts (.ofList reversed.reverse) := by
  fun_induction dropTrailing reversed with
  | case1 rest none =>
    rw [List.isEmpty_iff.mp none]
  | case2 rest some ih =>
    rw [ih, List.reverse_cons, parts_below List.not_mem_nil]
    exact (List.append_nil _).symm
  | case3 rest none =>
    rw [List.isEmpty_iff.mp none]
    decide
  | case4 rest some ih =>
    have turned : ('.' :: '/' :: rest).reverse = rest.reverse ++ '/' :: ['.'] := by simp
    rw [ih, turned, parts_below (by decide)]
    exact (List.append_nil _).symm
  | case5 => rfl

/-- No name that does not count is left at the end, unless it is all that is left. -/
theorem dropTrailing_ne_dot (reversed rest : List Char) :
    dropTrailing reversed ≠ '.' :: '/' :: rest := by
  fun_induction dropTrailing reversed with
  | case1 | case3 => exact fun same => by cases same
  | case2 _ _ ih | case4 _ _ ih => exact ih
  | case5 reversed _ dot => exact dot rest

theorem dropTrailing_suffix (reversed : List Char) : dropTrailing reversed <:+ reversed := by
  fun_induction dropTrailing reversed with
  | case1 rest none =>
    obtain rfl := List.isEmpty_iff.mp none
    exact List.suffix_rfl
  | case2 rest some ih => exact ih.trans (List.suffix_cons ..)
  | case3 rest none =>
    rw [List.isEmpty_iff.mp none]
    exact List.suffix_cons ..
  | case4 rest some ih => exact ih.trans ((List.suffix_cons ..).trans (List.suffix_cons ..))
  | case5 => exact List.suffix_rfl

/-- The last name of a path is behind a slash, or all of the path. -/
theorem lastName_cases (reversed : List Char) :
    ('/' ∉ reversed ∧ reversed.dropWhile (· != '/') = []) ∨ ∃ name above, '/' ∉ name
      ∧ reversed = name ++ '/' :: above ∧ reversed.dropWhile (· != '/') = '/' :: above := by
  induction reversed with
  | nil => exact .inl ⟨List.not_mem_nil, rfl⟩
  | cons c rest ih =>
    by_cases slash : c = '/'
    · subst slash
      exact .inr ⟨[], rest, List.not_mem_nil, rfl, rfl⟩
    · have passed : (c :: rest).dropWhile (· != '/') = rest.dropWhile (· != '/') :=
        List.dropWhile_cons_of_pos (by simpa using slash)
      rw [passed]
      rcases ih with ⟨solid, all⟩ | ⟨name, above, solid, rfl, found⟩
      · exact .inl ⟨List.not_mem_cons_of_ne_of_not_mem (Ne.symm slash) solid, all⟩
      · exact .inr ⟨c :: name, above, List.not_mem_cons_of_ne_of_not_mem (Ne.symm slash) solid, rfl,
          found⟩

/-! ## The directory of a path -/

/-- The directory of a path has all its parts but the last one. -/
theorem parts_parent (found : parent path = some up) : parts up = (parts path).dropLast := by
  unfold parent at found
  split at found
  case isTrue => cases found
  case isFalse some =>
    cases found
    have same : parts path = parts (.ofList (dropTrailing path.toList.reverse).reverse) := by
      rw [parts_dropTrailing, List.reverse_reverse, String.ofList_toList]
    rw [same] at some ⊢
    rw [parts_dropTrailing]
    rcases lastName_cases (dropTrailing path.toList.reverse) with
      ⟨solid, all⟩ | ⟨name, above, solid, ends, rest⟩
    · have name : '/' ∉ (dropTrailing path.toList.reverse).reverse := mt List.mem_reverse.mp solid
      rw [parts_name name] at some ⊢
      rw [all]
      split <;> rfl
    · have counts : counted name.reverse = [String.ofList name.reverse] := by
        refine if_neg fun skipped => ?_
        rcases skipped with none | dot
        · obtain rfl : name = [] := List.reverse_eq_nil_iff.mp none
          rcases dropTrailing_cases path.toList.reverse with none | root | ⟨c, _, part, slash⟩
          · rw [none] at ends
            cases ends
          · rw [root] at some
            exact absurd (by decide) some
          · exact slash (List.cons_eq_cons.mp (part.symm.trans ends)).1
        · obtain rfl : name = ['.'] := List.reverse_eq_iff.mp dot
          exact dropTrailing_ne_dot _ _ ends
      have last : '/' ∉ name.reverse := mt List.mem_reverse.mp solid
      have turned : (name ++ '/' :: above).reverse = above.reverse ++ '/' :: name.reverse := by simp
      rw [rest, ends, turned, parts_below last, counts, List.dropLast_concat, List.reverse_cons,
        parts_below List.not_mem_nil]
      exact List.append_nil _

theorem eq_nil_of_dropTrailing {reversed : List Char} (none : dropTrailing reversed = []) :
    reversed = [] := by
  rcases dropTrailing_cases reversed with nil | root | ⟨c, rest, some, -⟩
  · exact nil
  · rw [none] at root
    cases root
  · rw [none] at some
    cases some

/-- What is in front of a directory is in front of what is in it. -/
theorem prefix_parent (found : parent path = some up) : up.toList <+: path.toList := by
  unfold parent at found
  split at found
  case isTrue => cases found
  case isFalse =>
    cases found
    rw [String.toList_ofList, ← List.reverse_suffix, List.reverse_reverse]
    exact (dropTrailing_suffix _).trans
      ((List.dropWhile_suffix _).trans (dropTrailing_suffix _))

theorem isAbsolute_parent (found : parent path = some up) : isAbsolute up = isAbsolute path := by
  have front := prefix_parent found
  unfold isAbsolute
  cases own : up.toList with
  | cons c rest =>
    obtain ⟨more, whole⟩ := own ▸ front
    rw [← whole]
    rfl
  | nil =>
    -- A path that is absolute has a slash in front of its last name.
    cases whole : path.toList with
    | nil => rfl
    | cons first more =>
      refine (beq_eq_false_iff_ne.mpr fun absolute => ?_).symm
      have slash : first = '/' := Option.some.inj absolute
      unfold parent at found
      split at found
      case isTrue => cases found
      case isFalse =>
        cases found
        rw [String.toList_ofList, List.reverse_eq_nil_iff] at own
        have kept : dropTrailing path.toList.reverse ≠ [] := by
          intro none
          have empty := eq_nil_of_dropTrailing none
          rw [whole] at empty
          simp at empty
        have last : (dropTrailing path.toList.reverse).getLast kept = '/' := by
          rw [(dropTrailing_suffix _).getLast kept]
          simp [whole, slash]
        rcases lastName_cases (dropTrailing path.toList.reverse) with
          ⟨solid, -⟩ | ⟨name, above, -, -, rest⟩
        · exact solid (last ▸ List.getLast_mem kept)
        · rw [rest] at own
          cases eq_nil_of_dropTrailing own

/-! ## Files in a directory -/

/-- A file in a directory is separated from it by one slash. -/
theorem join_cases {file : String} (relative : isAbsolute file = false) (directory : String) :
    (directory = "" ∧ join directory file = file)
      ∨ (∃ above, directory.toList = above ++ ['/'] ∧ join directory file = directory ++ file)
      ∨ directory ≠ "" ∧ join directory file = directory ++ "/" ++ file := by
  unfold join
  rw [relative, Bool.false_or]
  split
  case isTrue empty => exact .inl ⟨String.isEmpty_iff.mp empty, rfl⟩
  case isFalse some =>
    split
    case isTrue slash =>
      obtain ⟨above, ends⟩ := List.getLast?_eq_some_iff.mp (beq_iff_eq.mp slash)
      exact .inr (.inl ⟨above, ends, rfl⟩)
    case isFalse => exact .inr (.inr ⟨fun empty => some (String.isEmpty_iff.mpr empty), rfl⟩)

section Join

variable {file : String} (solid : '/' ∉ file.toList) (counts : counted file.toList = [file])

include solid in
theorem relative_of_solid : isAbsolute file = false :=
  beq_eq_false_iff_ne.mpr fun slash => solid (List.mem_of_mem_head? slash)

include solid counts in
/-- The parts of a file are those of its directory and its name. -/
theorem parts_join (directory : String) :
    parts (join directory file) = parts directory ++ [file] := by
  have named : file.toList ≠ [] := by
    intro none
    rw [none] at counts
    cases counts
  rcases join_cases (relative_of_solid solid) directory with
    ⟨rfl, whole⟩ | ⟨above, ends, whole⟩ | ⟨-, whole⟩
  · rw [whole]
    have alone := parts_name solid
    rw [if_neg named, String.ofList_toList] at alone
    exact alone
  · have listed : join directory file = .ofList (above ++ '/' :: file.toList) := by
      rw [← String.toList_inj, whole, String.toList_append, ends, String.toList_ofList]
      simp
    have front : directory = .ofList (above ++ '/' :: []) := by
      rw [← ends, String.ofList_toList]
    rw [listed, parts_below solid, counts, front, parts_below List.not_mem_nil]
    exact congrArg (· ++ _) (List.append_nil _).symm
  · have listed : join directory file = .ofList (directory.toList ++ '/' :: file.toList) := by
      rw [← String.toList_inj, whole, String.toList_append, String.toList_append,
        String.toList_ofList]
      simp
    rw [listed, parts_below solid, counts, String.ofList_toList]

include solid in
theorem isAbsolute_join (directory : String) :
    isAbsolute (join directory file) = isAbsolute directory := by
  rcases join_cases (relative_of_solid solid) directory with
    ⟨rfl, whole⟩ | ⟨above, ends, whole⟩ | ⟨some, whole⟩
  · rw [whole]
    exact relative_of_solid solid
  · rw [whole, isAbsolute, isAbsolute, String.toList_append, ends]
    cases above <;> rfl
  · rw [whole, isAbsolute, isAbsolute, String.toList_append, String.toList_append]
    cases own : directory.toList with
    | nil => exact absurd (String.toList_eq_nil_iff.mp own) some
    | cons => rfl

include solid in
theorem size_join (directory : String) :
    directory.utf8ByteSize + file.utf8ByteSize ≤ (join directory file).utf8ByteSize
      ∧ (join directory file).utf8ByteSize ≤ directory.utf8ByteSize + 1 + file.utf8ByteSize := by
  have slash : "/".utf8ByteSize = 1 := rfl
  rcases join_cases (relative_of_solid solid) directory with
    ⟨rfl, whole⟩ | ⟨_, -, whole⟩ | ⟨-, whole⟩
  · have empty : "".utf8ByteSize = 0 := rfl
    rw [whole]
    omega
  · rw [whole, String.utf8ByteSize_append]
    omega
  · rw [whole, String.utf8ByteSize_append, String.utf8ByteSize_append]
    omega

include solid in
/-- The path of a file in a directory above is not longer. -/
theorem size_join_parent (found : parent path = some up) :
    (join up file).utf8ByteSize ≤ (join path file).utf8ByteSize := by
  obtain ⟨more, whole⟩ := prefix_parent found
  have split : path = up ++ String.ofList more := by
    rw [← String.toList_inj, String.toList_append, String.toList_ofList, whole]
  have shorter : up.utf8ByteSize < path.utf8ByteSize := by
    have fewer := length_parent_lt found
    have some : String.ofList more ≠ "" := by
      intro none
      rw [split, none, String.append_empty] at fewer
      exact Nat.lt_irrefl _ fewer
    have positive : (String.ofList more).utf8ByteSize ≠ 0 :=
      mt String.utf8ByteSize_eq_zero_iff.mp some
    rw [split, String.utf8ByteSize_append]
    omega
  have lower := (size_join solid path).1
  have upper := (size_join solid up).2
  omega

include solid in
theorem exists_join_eq_append (directory : String) :
    ∃ front, join directory file = front ++ file := by
  rcases join_cases (relative_of_solid solid) directory with
    ⟨-, whole⟩ | ⟨_, -, whole⟩ | ⟨-, whole⟩
  · exact ⟨"", by simpa using whole⟩
  · exact ⟨_, whole⟩
  · exact ⟨_, whole⟩

include solid in
theorem mem_join {c : Char} (other : c ≠ '/') (directory : String) :
    c ∈ (join directory file).toList ↔ c ∈ directory.toList ∨ c ∈ file.toList := by
  rcases join_cases (relative_of_solid solid) directory with
    ⟨rfl, whole⟩ | ⟨_, -, whole⟩ | ⟨-, whole⟩
  · simp [whole]
  · simp [whole]
  · simp [whole, other]

end Join

end Path

end CInterop
