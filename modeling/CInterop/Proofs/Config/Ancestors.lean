import Mathlib.Data.List.Induction
import CInterop.Proofs.Config.Paths

/-!
# The directories above a directory

The search for a project takes parts off the end of a path. What is left leads to a directory above
only as long as the parts do not lead back, and never above the directory that a relative path
begins in (`Surroundings.findProject_nearest`).
-/

namespace CInterop

namespace Path

variable {path up : String}

/-! ## Places -/

/-- The place that parts lead to, from a place on. Two dots lead back. -/
def resolve (place : List String) : List String → List String
  | [] => place
  | part :: rest =>
    resolve (if part == ".." then place.dropLast else if part == "." then place
      else place ++ [part]) rest

/-- Parts that do not lead back lead further down. -/
theorem resolve_eq_append {names : List String} (forward : ".." ∉ names) (place : List String) :
    resolve place names = place ++ names.filter (· != ".") := by
  induction names generalizing place with
  | nil => exact (List.append_nil place).symm
  | cons name rest ih =>
    obtain ⟨own, later⟩ := List.ne_and_not_mem_of_not_mem_cons forward
    rw [resolve, if_neg (by simpa using Ne.symm own), ih later]
    by_cases dot : name = "."
    · simp [dot]
    · simp [dot]

/-- A path is one that a file can have. -/
structure Admissible (path : String) : Prop where
  short : path.utf8ByteSize ≤ FileTree.longestPath
  solid : '\x00' ∉ path.toList

theorem Admissible.parent {file : String} (solid : '/' ∉ file.toList)
    (admissible : Admissible (join path file)) (found : parent path = some up) :
    Admissible (join up file) := by
  refine ⟨(size_join_parent solid found).trans admissible.short, fun zero => admissible.solid ?_⟩
  rw [mem_join solid (by decide)] at zero ⊢
  exact zero.imp_left fun mem => (prefix_parent found).subset mem

end Path

namespace FileTree

variable {tree : FileTree} {base path : String} {place names : List String} {node : FileNode}

/-- What is in a tree is in a directory of it, under a name that a directory can hold. -/
structure Proper (tree : FileTree) : Prop where
  above : ∀ {place name}, (tree.node? (place ++ [name])).isSome →
    tree.node? place = some .directory
  short : ∀ {place name}, (tree.node? (place ++ [name])).isSome → name.utf8ByteSize ≤ longestName

theorem Proper.directory (proper : tree.Proper) (some : names ≠ [])
    (held : (tree.node? (place ++ names)).isSome) : tree.node? place = .some .directory := by
  induction names using List.reverseRecOn with
  | nil => exact absurd rfl some
  | append_singleton names last ih =>
    rw [← List.append_assoc] at held
    have around := proper.above held
    cases names with
    | nil => exact List.append_nil place ▸ around
    | cons name rest => exact ih (List.cons_ne_nil _ _) (Option.isSome_of_eq_some around)

theorem follow_nil_eq_node_iff :
    tree.follow place [] = .node node ↔ tree.node? place = some node := by
  rw [follow]
  cases tree.node? place <;> simp

/-- A name that is followed leads on from a directory. -/
theorem follow_of_node {name : String} (forward : name ≠ "..")
    (found : tree.follow place (name :: names) = .node node) :
    tree.follow (if name = "." then place else place ++ [name]) names = .node node := by
  rw [follow] at found
  split at found
  case h_1 | h_3 => cases found
  case h_2 =>
    rw [if_neg (by simpa using forward)] at found
    by_cases dot : name = "."
    · rwa [if_pos (by simpa using dot)] at found ⊢
    · rw [if_neg (by simpa using dot)] at found ⊢
      split at found
      case isTrue => cases found
      case isFalse => exact found

theorem follow_dot (directory : tree.node? place = some .directory) :
    tree.follow place ("." :: names) = tree.follow place names := by
  rw [follow, directory]
  rfl

theorem Proper.follow_name (proper : tree.Proper) {name : String} (forward : name ≠ "..")
    (counts : name ≠ ".") (held : (tree.node? (place ++ [name])).isSome) :
    tree.follow place (name :: names) = tree.follow (place ++ [name]) names := by
  have short := Nat.not_lt.mpr (proper.short held)
  rw [follow, proper.above held]
  simp only
  rw [if_neg (by simpa using forward), if_neg (by simpa using counts), if_neg short]

/-- Names that do not lead back stand for what is behind them. -/
theorem Proper.follow_eq_node_iff (proper : tree.Proper) {last : String} (own : last ≠ "..")
    (counts : last ≠ ".") (forward : ".." ∉ names) :
    tree.follow place (names ++ [last]) = .node node
      ↔ tree.node? (place ++ names.filter (· != ".") ++ [last]) = some node := by
  induction names generalizing place with
  | nil =>
    rw [List.nil_append, List.filter_nil, List.append_nil]
    constructor
    · intro found
      have behind := follow_of_node own found
      rw [if_neg counts] at behind
      exact follow_nil_eq_node_iff.mp behind
    · intro held
      rw [proper.follow_name own counts (Option.isSome_of_eq_some held)]
      exact follow_nil_eq_node_iff.mpr held
  | cons name rest ih =>
    obtain ⟨next, later⟩ := List.ne_and_not_mem_of_not_mem_cons forward
    rw [List.cons_append]
    by_cases dot : name = "."
    · subst dot
      have stay : ("." :: rest).filter (· != ".") = rest.filter (· != ".") := rfl
      rw [stay, ← ih later]
      refine ⟨fun found => follow_of_node (by decide) found, fun found => ?_⟩
      have held := (ih later).mp found
      rw [List.append_assoc] at held
      rw [follow_dot (proper.directory (by simp) (Option.isSome_of_eq_some held)), found]
    · have kept : place ++ (name :: rest).filter (· != ".")
          = place ++ [name] ++ rest.filter (· != ".") := by
        simp [dot]
      rw [kept, ← ih later]
      constructor
      · intro found
        have behind := follow_of_node (Ne.symm next) found
        rwa [if_neg dot] at behind
      · intro found
        have held := (ih later).mp found
        rw [List.append_assoc] at held
        have directory := proper.directory (by simp) (Option.isSome_of_eq_some held)
        rw [proper.follow_name (Ne.symm next) dot (Option.isSome_of_eq_some directory), found]

/-- The parts of a path are followed, unless a slash at its end asks for a directory. -/
theorem find_eq_follow (admissible : Path.Admissible path) (named : path ≠ "")
    (plain : ∀ rest, path.toList.reverse ≠ '/' :: rest ∧ path.toList.reverse ≠ '.' :: '/' :: rest) :
    tree.find base path
      = tree.follow (if Path.isAbsolute path then [] else Path.parts base) (Path.parts path) := by
  have short := Nat.not_lt.mpr admissible.short
  have solid : path.toList.contains '\x00' = false := by simpa using admissible.solid
  unfold find
  rw [if_neg (by simpa using named), solid, Bool.or_false, if_neg (by simpa using short)]
  dsimp only
  split
  case h_1 directory => exact directory.symm
  case h_2 node other found =>
    split
    case h_1 rest ends => exact absurd ends (plain rest).1
    case h_2 rest ends => exact absurd ends (plain rest).2
    case h_3 => exact found.symm
  case h_3 => rfl

end FileTree

/-! ## Front parts -/

/-- The longest front part of a list that has a property, if one has it. -/
def LongestFront {α : Type} (P : List α → Prop) (whole : List α) : Option (List α) → Prop
  | some front => front <+: whole ∧ P front ∧ ∀ other, other <+: whole → P other → other <+: front
  | none => ∀ front, front <+: whole → ¬ P front

theorem LongestFront.of_dropLast {α : Type} {P : List α → Prop} {whole : List α}
    {found : Option (List α)} (missing : ¬ P whole)
    (longest : LongestFront P whole.dropLast found) : LongestFront P whole found := by
  have shorter {front : List α} (fits : front <+: whole) (held : P front) :
      front <+: whole.dropLast := by
    have other : front ≠ whole := fun same => missing (same ▸ held)
    rcases List.eq_nil_or_concat' whole with rfl | ⟨rest, last, rfl⟩
    · exact absurd (List.prefix_nil.mp fits) other
    · rw [List.dropLast_concat]
      exact (List.prefix_concat_iff.mp fits).resolve_left other
  cases found with
  | none => exact fun front fits held => longest front (shorter fits held) held
  | some found =>
    obtain ⟨fits, held, all⟩ := longest
    exact ⟨fits.trans (List.dropLast_prefix whole), held,
      fun other front own => all other (shorter front own) own⟩

namespace Surroundings

open CInterop.Path FileTree

variable {s : Surroundings} {directory up : String} {root : Option String} {front : List String}
  {fuel : Nat}

/-! ## What the search looks at -/

theorem solid_projectFile : '/' ∉ projectFile.toList := by decide

theorem counted_projectFile : counted projectFile.toList = [projectFile] := by decide

/-- The place that a path begins at. -/
def start (s : Surroundings) (path : String) : List String :=
  if isAbsolute path then [] else parts s.current

/-- The place that a path leads to. -/
def placeOf (s : Surroundings) (path : String) : List String := resolve (s.start path) (parts path)

/-- There is a project file behind some parts, from a place on. -/
def Leads (s : Surroundings) (place front : List String) : Prop :=
  ∃ node, s.files.follow place (front ++ [projectFile]) = .node node

/-- There is a project file in a directory. -/
def ProjectAt (s : Surroundings) (place : List String) : Prop :=
  (s.files.node? (place ++ [projectFile])).isSome

/-- The search finds a project behind the most parts of the path that lead to one. -/
def Walks (s : Surroundings) (directory : String) (root : Option String) : Prop :=
  (∀ found ∈ root, isAbsolute found = isAbsolute directory)
    ∧ LongestFront (s.Leads (s.start directory)) (parts directory) (root.map parts)

theorem find_projectFile (admissible : Admissible (join directory projectFile)) :
    s.files.find s.current (join directory projectFile)
      = s.files.follow (s.start directory) (parts directory ++ [projectFile]) := by
  obtain ⟨front, whole⟩ := exists_join_eq_append solid_projectFile directory
  have ends : (join directory projectFile).toList.reverse = 'l' :: ("ctypes.tom".toList.reverse
      ++ front.toList.reverse) := by
    rw [whole, String.toList_append, List.reverse_append]
    rfl
  rw [find_eq_follow admissible, isAbsolute_join solid_projectFile,
    parts_join solid_projectFile counted_projectFile, start]
  · intro none
    rw [none] at ends
    cases ends
  · intro rest
    rw [ends]
    exact ⟨by simp, by simp⟩

theorem hasProject_iff (admissible : Admissible (join directory projectFile)) :
    s.hasProject directory = true ↔ s.Leads (s.start directory) (parts directory) := by
  unfold hasProject exists? Leads
  rw [find_projectFile admissible]
  split
  case h_1 node found => exact iff_of_true rfl ⟨node, found⟩
  case h_2 other =>
    refine iff_of_false Bool.false_ne_true ?_
    rintro ⟨node, found⟩
    exact other node found

theorem Nearest.walks (near : s.Nearest directory root)
    (admissible : Admissible (join directory projectFile)) : s.Walks directory root := by
  induction near with
  | @here directory found =>
    refine ⟨fun _ same => Option.some.inj same ▸ rfl, List.prefix_rfl, ?_, fun _ fits _ => fits⟩
    exact (hasProject_iff admissible).mp found
  | @above directory up root missing found _ ih =>
    have absolute := isAbsolute_parent found
    obtain ⟨same, longest⟩ := ih (admissible.parent solid_projectFile found)
    have begins : s.start up = s.start directory := by rw [start, start, absolute]
    rw [begins, parts_parent found] at longest
    refine ⟨fun other mem => (same other mem).trans absolute, longest.of_dropLast ?_⟩
    exact mt (hasProject_iff admissible).mpr (Bool.eq_false_iff.mp missing)
  | @nowhere directory missing top =>
    refine ⟨fun _ mem => (Option.not_mem_none _ mem).elim, fun front fits held => ?_⟩
    have none : parts directory = [] := by
      unfold parent at top
      split at top
      case isTrue none => exact List.isEmpty_iff.mp none
      case isFalse => cases top
    have same : front = parts directory := by
      rw [none] at fits ⊢
      exact List.prefix_nil.mp fits
    exact Bool.eq_false_iff.mp missing ((hasProject_iff admissible).mpr (same ▸ held))

/-! ## Ancestors -/

section Forward

variable (proper : s.files.Proper) (forward : ".." ∉ parts directory)

include proper in
theorem leads_iff {place : List String} (onward : ".." ∉ front) :
    s.Leads place front ↔ s.ProjectAt (resolve place front) := by
  rw [resolve_eq_append onward, ProjectAt, Option.isSome_iff_exists]
  exact exists_congr fun node => proper.follow_eq_node_iff (by decide) (by decide) onward

include forward in
theorem forward_of_prefix (fits : front <+: parts directory) : ".." ∉ front :=
  fun mem => forward (fits.subset mem)

include forward in
theorem placeOf_eq_append :
    s.placeOf directory = s.start directory ++ (parts directory).filter (· != ".") :=
  resolve_eq_append forward _

include forward in
theorem start_above : s.start directory <+: s.placeOf directory := by
  rw [placeOf_eq_append forward]
  exact List.prefix_append ..

include proper forward in
/-- A project is below the directory that a path begins in and above the one that it leads to just
when the search looks at it. -/
theorem exists_leads_iff {place : List String} :
    (∃ front, front <+: parts directory ∧ s.Leads (s.start directory) front
        ∧ resolve (s.start directory) front = place)
      ↔ s.start directory <+: place ∧ place <+: s.placeOf directory ∧ s.ProjectAt place := by
  rw [placeOf_eq_append forward]
  have onward {front : List String} (fits : front <+: parts directory) : ".." ∉ front :=
    forward_of_prefix forward fits
  constructor
  · rintro ⟨front, fits, held, rfl⟩
    refine ⟨?_, ?_, (leads_iff proper (onward fits)).mp held⟩
    · rw [resolve_eq_append (onward fits)]
      exact List.prefix_append ..
    · rw [resolve_eq_append (onward fits)]
      exact (List.prefix_append_right_inj _).mpr (fits.filter _)
  · rintro ⟨⟨more, rfl⟩, above, held⟩
    obtain ⟨front, fits, rfl⟩ :=
      List.prefix_filter_iff.mp ((List.prefix_append_right_inj _).mp above)
    have same := resolve_eq_append (onward fits) (s.start directory)
    exact ⟨front, fits, (leads_iff proper (onward fits)).mpr (same ▸ held), same⟩

/-- The search does not leave out a project: the path is absolute, there is a project below the
directory that it begins in or in this one itself, or there is none above. -/
def Suffices (s : Surroundings) (directory : String) : Prop :=
  isAbsolute directory = true
    ∨ (∃ place, parts s.current <+: place ∧ place <+: s.placeOf directory ∧ s.ProjectAt place)
    ∨ ∀ place, place <+: parts s.current → ¬ s.ProjectAt place

theorem start_of_relative (relative : isAbsolute directory ≠ true) :
    s.start directory = parts s.current := if_neg relative

include proper forward in
/-- A project that is found is not above the directory where a relative path begins. -/
theorem Walks.suffices {found : String} (walks : s.Walks directory (some found)) :
    s.Suffices directory := by
  by_cases absolute : isAbsolute directory = true
  · exact .inl absolute
  · obtain ⟨-, fits, held, -⟩ := walks
    have below := (exists_leads_iff proper forward).mp ⟨_, fits, held, rfl⟩
    rw [start_of_relative absolute] at below
    exact .inr (.inl ⟨_, below⟩)

include proper forward in
theorem Walks.nearest (walks : s.Walks directory root) (enough : s.Suffices directory) :
    LongestFront s.ProjectAt (s.placeOf directory) (root.map s.placeOf) := by
  obtain ⟨same, longest⟩ := walks
  have onward {front : List String} (fits : front <+: parts directory) : ".." ∉ front :=
    forward_of_prefix forward fits
  -- Each place that may hold a project is above the one where the path begins, or below it.
  have sides {place : List String} (within : place <+: s.placeOf directory) :
      place <+: s.start directory ∨ s.start directory <+: place :=
    List.prefix_or_prefix_of_prefix within (start_above forward)
  cases root with
  | some found =>
    obtain ⟨fits, held, all⟩ := longest
    have leadsTo : s.placeOf found = resolve (s.start directory) (parts found) := by
      rw [placeOf, start, start, same found rfl]
    obtain ⟨below, within, project⟩ :=
      (exists_leads_iff proper forward).mp ⟨parts found, fits, held, leadsTo.symm⟩
    refine ⟨within, project, fun place inside own => ?_⟩
    rcases sides inside with higher | lower
    · exact higher.trans below
    · obtain ⟨front, part, leads, rfl⟩ :=
        (exists_leads_iff proper forward).mpr ⟨lower, inside, own⟩
      rw [leadsTo, resolve_eq_append (onward part), resolve_eq_append (onward fits)]
      exact (List.prefix_append_right_inj _).mpr ((all front part leads).filter _)
  | none =>
    have missed {place : List String} (lower : s.start directory <+: place)
        (inside : place <+: s.placeOf directory) : ¬ s.ProjectAt place := by
      intro own
      obtain ⟨front, part, leads, -⟩ := (exists_leads_iff proper forward).mpr ⟨lower, inside, own⟩
      exact longest front part leads
    intro place inside own
    by_cases absolute : isAbsolute directory = true
    · have top : s.start directory = [] := if_pos absolute
      exact missed (top ▸ List.nil_prefix) inside own
    · rcases sides inside with higher | lower
      · rw [start_of_relative absolute] at higher
        rcases enough with rooted | ⟨other, lower, inside', own'⟩ | none
        · exact absolute rooted
        · exact missed (start_of_relative absolute ▸ lower) inside' own'
        · exact none place higher own
      · exact missed lower inside own

end Forward

/-! ## The nearest project -/

/-- The search ends with the settings of the nearest directory with a project, of the directory
itself and those above it, with the failure of its file, or without a project if there is none. -/
def FindsNearest (s : Surroundings) (fuel : Nat) (directory : String) : Prop :=
  ∃ nearest, LongestFront s.ProjectAt (s.placeOf directory) nearest
    ∧ Ends (s.findProject fuel directory)
      (fun found => found.1.map s.placeOf = nearest ∧ s.SourceSays (projectSource found.1) found.2)
      (fun failure => ∃ root, nearest = some (s.placeOf root)
        ∧ s.Unusable (join root projectFile) failure)

theorem findProject_walks (admissible : Admissible (join directory projectFile))
    (enough : directory.length < fuel) :
    Ends (s.findProject fuel directory)
      (fun found => s.Walks directory found.1 ∧ s.SourceSays (projectSource found.1) found.2)
      (fun failure => ∃ root, s.Walks directory (some root)
        ∧ s.Unusable (join root projectFile) failure) := by
  refine ((findProject_spec enough).mono_ok fun found own => ?_).mono_error fun failure own => ?_
  · exact ⟨own.1.walks admissible, own.2⟩
  · obtain ⟨root, near, refused⟩ := own
    exact ⟨root, near.walks admissible, refused⟩

/-- A path that does not lead back is searched for the nearest project, which is found unless it
is above the directory where a relative path begins. -/
theorem findProject_nearest (proper : s.files.Proper)
    (admissible : Admissible (join directory projectFile)) (enough : directory.length < fuel) :
    Ends (s.findProject fuel directory)
        (fun found => s.Walks directory found.1 ∧ s.SourceSays (projectSource found.1) found.2)
        (fun failure => ∃ root, s.Walks directory (some root)
          ∧ s.Unusable (join root projectFile) failure)
      ∧ (".." ∉ parts directory → (s.FindsNearest fuel directory ↔ s.Suffices directory)) := by
  have walked := findProject_walks (s := s) admissible enough
  refine ⟨walked, fun forward => ⟨?_, fun sufficient => ?_⟩⟩
  · rintro ⟨nearest, longest, ends⟩
    cases ran : s.findProject fuel directory with
    | error failure =>
      rw [ran] at walked
      obtain ⟨root, walks, -⟩ := walked
      exact walks.suffices proper forward
    | ok found =>
      rw [ran] at walked ends
      obtain ⟨root, settings⟩ := found
      cases root with
      | some root => exact walked.1.suffices proper forward
      | none =>
        have none : Option.none = nearest := ends.1
        rw [← none] at longest
        by_cases absolute : isAbsolute directory = true
        · exact .inl absolute
        · refine .inr (.inr fun place above => longest place (above.trans ?_))
          exact start_of_relative absolute ▸ start_above forward
  · cases ran : s.findProject fuel directory with
    | error failure =>
      rw [ran] at walked
      obtain ⟨root, walks, refused⟩ := walked
      refine ⟨_, walks.nearest proper forward sufficient, ?_⟩
      rw [ran]
      exact ⟨root, rfl, refused⟩
    | ok found =>
      rw [ran] at walked
      obtain ⟨walks, own⟩ := walked
      refine ⟨_, walks.nearest proper forward sufficient, ?_⟩
      rw [ran]
      exact ⟨rfl, own⟩

/-- Surroundings with one file, which is empty, and a current directory. -/
def withFile (place : List String) (current : String) : Surroundings where
  files := ⟨[(place, .file [])]⟩
  decode := Settings.ofToml?
  current := current
  home := ""
  environment := []

theorem node?_withFile (place other : List String) (current : String) :
    (withFile place current).files.node? other
      = if other = place then some (.file [])
        else if other <+: place then some .directory else none := by
  unfold FileTree.node? withFile
  by_cases same : other = place
  · simp [same]
  · have apart : (other == place) = false := beq_eq_false_iff_ne.mpr same
    rw [if_neg same, List.lookup_cons, apart]
    by_cases above : other <+: place
    · simp [above]
    · have some : other ≠ [] := fun none => above (none ▸ List.nil_prefix)
      simp [above, some]

theorem proper_withFile {place : List String} (current : String)
    (short : ∀ name ∈ place, name.utf8ByteSize ≤ longestName) :
    (withFile place current).files.Proper := by
  have above {other : List String} {name : String}
      (held : ((withFile place current).files.node? (other ++ [name])).isSome) :
      other ++ [name] <+: place := by
    rw [node?_withFile] at held
    split at held
    case isTrue same => exact same ▸ List.prefix_rfl
    case isFalse =>
      split at held
      case isTrue above => exact above
      case isFalse => cases held
  refine ⟨fun held => ?_, fun held => short _ ((above held).subset (by simp))⟩
  obtain ⟨more, rfl⟩ := above held
  rw [node?_withFile, if_neg (by simp), if_pos (by simp)]

/-- From an absolute path the file of a directory two steps above is found. -/
theorem findProject_nearest_absolute :
    let s := withFile ["home", "ctypes.toml"] "/tmp"
    s.files.Proper ∧ Admissible (join "/home/user/app" projectFile)
      ∧ s.FindsNearest 20 "/home/user/app"
      ∧ s.findProject 20 "/home/user/app" = .ok (some "/home", {}) := by
  intro s
  have proper : s.files.Proper := proper_withFile _ (by decide)
  have admissible : Admissible (join "/home/user/app" projectFile) := ⟨by decide, by decide⟩
  have enough : "/home/user/app".length < 20 := by decide
  exact ⟨proper, admissible,
    ((findProject_nearest proper admissible enough).2 (by decide)).mpr (.inl rfl), rfl⟩

/-- A project in the directory above the current one. -/
def projectAbove : Surroundings := withFile ["home", "ctypes.toml"] "/home/user"

/-- A project in a directory of the current one. -/
def projectBelow : Surroundings := withFile ["home", "user", "sub", "ctypes.toml"] "/home/user"

/-- A project above the current directory is not found from a dot, and one below a directory that
two dots lead back to is. -/
theorem findProject_not_nearest :
    (projectAbove.findProject 20 "." = .ok (none, {}) ∧ projectAbove.placeOf "." = ["home", "user"]
      ∧ projectAbove.ProjectAt ["home"] ∧ ¬ projectAbove.FindsNearest 20 ".")
    ∧ projectBelow.findProject 20 "sub/.." = .ok (some "sub", {})
      ∧ projectBelow.placeOf "sub/.." = ["home", "user"]
      ∧ ¬ projectBelow.FindsNearest 20 "sub/.." := by
  have missed : projectAbove.findProject 20 "." = .ok (none, {}) := rfl
  have found : projectBelow.findProject 20 "sub/.." = .ok (some "sub", {}) := rfl
  refine ⟨⟨missed, rfl, rfl, ?_⟩, found, rfl, ?_⟩
  · rintro ⟨nearest, longest, ends⟩
    rw [missed] at ends
    have none : Option.none = nearest := ends.1
    rw [← none] at longest
    exact longest ["home"] ⟨["user"], rfl⟩ rfl
  · rintro ⟨nearest, longest, ends⟩
    rw [found] at ends
    have below : some ["home", "user", "sub"] = nearest := ends.1
    rw [← below] at longest
    have higher : ["home", "user", "sub"] <+: ["home", "user"] := longest.1
    exact absurd higher (by decide)

end Surroundings

end CInterop
