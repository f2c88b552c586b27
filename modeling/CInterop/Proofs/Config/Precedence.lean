import CInterop.Config.Source
import CInterop.Proofs.Config.Layering

/-!
# Which source counts

A configuration is loaded from the file of the nearest project, the global file and the environment.
The environment counts before the project, and the project before the global file
(`Surroundings.loadDirectory_spec`). Loading fails only for a file that cannot be used, or when the
environment asks for a data model that does not exist: settings that are valid by themselves stay
valid when they are laid over one another.
-/

namespace CInterop

/-! ## Directories above -/

namespace Path

theorem length_dropTrailing_le (path : List Char) : (dropTrailing path).length ≤ path.length := by
  fun_induction dropTrailing path <;> grind

/-- What is left of a path ends with a part, or is the root or nothing. -/
theorem dropTrailing_cases (path : List Char) :
    path = [] ∨ dropTrailing path = ['/'] ∨
      ∃ c rest, dropTrailing path = c :: rest ∧ c ≠ '/' := by
  fun_induction dropTrailing path with
  | case1 | case3 => exact .inr (.inl rfl)
  | case2 rest some ih | case4 rest some ih =>
    exact .inr (ih.resolve_left fun none => some (List.isEmpty_iff.mpr none))
  | case5 path slash dot =>
    cases path with
    | nil => exact .inl rfl
    | cons c rest => exact .inr (.inr ⟨c, rest, rfl, fun same => slash rest (same ▸ rfl)⟩)

theorem eq_root_of_dropTrailing {path : List Char} (short : path.length ≤ 1)
    (root : dropTrailing path = ['/']) : path = ['/'] := by
  cases path with
  | nil => cases root
  | cons c rest =>
    obtain rfl : rest = [] := List.eq_nil_of_length_eq_zero (by simpa using short)
    unfold dropTrailing at root
    grind

/-- A directory has fewer characters than what is in it. -/
theorem length_parent_lt {path above : String} (up : parent path = some above) :
    above.length < path.length := by
  have reversed : path = String.ofList path.toList.reverse.reverse := by simp
  unfold parent at up
  split at up
  case isTrue => cases up
  case isFalse counted =>
    dsimp only at up
    cases up
    have shorter := length_dropTrailing_le ((dropTrailing path.toList.reverse).dropWhile (· != '/'))
    have fits := length_dropTrailing_le path.toList.reverse
    rw [String.length_ofList, List.length_reverse]
    rw [List.length_reverse, String.length_toList] at fits
    rcases dropTrailing_cases path.toList.reverse with none | root | ⟨c, rest, ends, part⟩
    · rw [reversed, none] at counted
      exact absurd (by decide) counted
    · rw [root]
      refine not_le.mp fun (short : path.length ≤ 1) => ?_
      rw [← String.length_toList, ← List.length_reverse] at short
      rw [reversed, eq_root_of_dropTrailing short root] at counted
      exact absurd (by decide) counted
    · have dropped := (List.dropWhile_suffix (· != '/') (l := rest)).length_le
      rw [ends, List.dropWhile_cons_of_pos (by simpa using part)] at shorter ⊢
      rw [ends, List.length_cons] at fits
      omega
end Path

namespace Surroundings

variable {s : Surroundings} {globalPath directory : String} {project global : Settings}

/-! ## Files -/

/-- The text of the file that a path stands for, if it can be read. -/
def text? (s : Surroundings) (path : String) : Option String :=
  match s.files.find s.current path with
  | .node (.file contents) => textOf contents
  | _ => none

/-- A file can be read, and holds settings that are valid. -/
def FileSays (s : Surroundings) (path : String) (settings : Settings) : Prop :=
  ∃ text, s.text? path = some text ∧ s.decode text = some settings
    ∧ settings.validate = .ok ()

/-- A file cannot be read, parsed or validated. -/
inductive Unusable (s : Surroundings) (path : String) : ConfigFailure → Prop where
  | notFound (missing : s.text? path = none) : Unusable s path (.notFound path)
  | unreadable (missing : s.text? path = none) : Unusable s path .unreadable
  | malformed {text : String} (read : s.text? path = some text)
      (decoded : s.decode text = none) : Unusable s path .malformed
  | invalid {text : String} {settings : Settings} {failure : ConfigFailure}
      (read : s.text? path = some text)
      (decoded : s.decode text = some settings)
      (refused : settings.validate = .error failure) : Unusable s path failure

theorem readFile_spec (s : Surroundings) (path : String) :
    Ends (s.readFile path) (s.FileSays path) (s.Unusable path) := by
  unfold readFile
  split
  case h_1 missing => exact .notFound (by rw [text?, missing])
  case h_2 contents found =>
    have own : s.text? path = textOf contents := by rw [text?, found]
    cases encoded : textOf contents with
    | none => exact .unreadable (own.trans encoded)
    | some text =>
      have read := own.trans encoded
      show Ends (Settings.ofText s.decode text) _ _
      unfold Settings.ofText
      cases decoded : s.decode text with
      | none => exact .malformed read decoded
      | some settings =>
        show Ends (settings.validate >>= fun _ => pure settings) _ _
        cases valid : settings.validate with
        | ok done => exact ⟨text, read, decoded, valid⟩
        | error failure => exact .invalid read decoded valid
  case h_3 other unread =>
    refine .unreadable ?_
    unfold text?
    split
    case h_1 contents found => exact absurd found (unread contents)
    case h_2 => rfl

/-- The settings of a source: those in its file, or none at all without a file. -/
def SourceSays (s : Surroundings) (source : Option String) (settings : Settings) : Prop :=
  match source with
  | some path => s.FileSays path settings
  | none => settings = {}

theorem SourceSays.byName {source : Option String} {settings : Settings}
    (ordered : s.decode.Ordered) (own : s.SourceSays source settings) :
    Settings.ByName settings.functions := by
  cases source with
  | some path =>
    obtain ⟨text, _, decoded, _⟩ := own
    exact ordered text settings decoded
  | none =>
    cases own
    exact .nil

theorem SourceSays.valid {source : Option String} {settings : Settings}
    (own : s.SourceSays source settings) : settings.validate = .ok () := by
  cases source with
  | some path =>
    obtain ⟨_, _, _, valid⟩ := own
    exact valid
  | none =>
    cases own
    rfl

/-! ## The project -/

/-- Whether there is a project in a directory. -/
def hasProject (s : Surroundings) (directory : String) : Bool :=
  s.files.exists? s.current (Path.join directory projectFile)

/-- The nearest directory with a project, from a directory upwards. -/
inductive Nearest (s : Surroundings) : String → Option String → Prop where
  | here {directory : String} (found : s.hasProject directory = true) :
      Nearest s directory (some directory)
  | above {directory parent : String} {root : Option String}
      (missing : s.hasProject directory = false) (up : Path.parent directory = some parent)
      (rest : Nearest s parent root) : Nearest s directory root
  | nowhere {directory : String} (missing : s.hasProject directory = false)
      (top : Path.parent directory = none) : Nearest s directory none

/-- The file of a project, if there is a project. -/
def projectSource (root : Option String) : Option String := root.map (Path.join · projectFile)

theorem findProject_spec {fuel : Nat} (enough : directory.length < fuel) :
    Ends (s.findProject fuel directory)
      (fun found => s.Nearest directory found.1 ∧ s.SourceSays (projectSource found.1) found.2)
      (fun failure => ∃ root, s.Nearest directory (some root)
        ∧ s.Unusable (Path.join root projectFile) failure) := by
  induction fuel generalizing directory with
  | zero => exact absurd enough (Nat.not_lt_zero _)
  | succ fuel ih =>
    unfold findProject
    show Ends (if s.hasProject directory = true then _ else _) _ _
    split
    case isTrue found =>
      have file := s.readFile_spec (Path.join directory projectFile)
      refine .bind (file.mono_error fun _ refused => ⟨directory, .here found, refused⟩) ?_
      exact fun project own => ⟨.here found, own⟩
    case isFalse unfound =>
      have missing := eq_false_of_ne_true unfound
      split
      case h_1 parent up =>
        have fewer := Path.length_parent_lt up
        have upper := @ih parent (by omega)
        cases ran : s.findProject fuel parent with
        | ok found =>
          rw [ran] at upper
          exact ⟨.above missing up upper.1, upper.2⟩
        | error failure =>
          rw [ran] at upper
          obtain ⟨root, near, refused⟩ := upper
          exact ⟨root, .above missing up near, refused⟩
      case h_2 top => exact ⟨.nowhere missing top, rfl⟩

/-! ## The global file -/

/-- The global file, if there is one. -/
def globalSource (s : Surroundings) (path : String) : Option String :=
  if s.files.exists? s.current path then some path else none

theorem readGlobal_spec (s : Surroundings) (path : String) :
    Ends (s.readGlobal path) (s.SourceSays (s.globalSource path))
      (fun failure => s.files.exists? s.current path = true ∧ s.Unusable path failure) := by
  unfold readGlobal globalSource
  split
  case isTrue found => exact (s.readFile_spec path).mono_error fun _ refused => ⟨found, refused⟩
  case isFalse => exact rfl

/-! ## The environment -/

/-- The data model that a text names, if it names one. -/
def modelNamed (text : String) : Option ModelName :=
  ModelName.spellings.lookup (lowered (Text.trimmed text))

/-- The data model that the environment asks for. -/
def environmentModel (s : Surroundings) : Option ModelName :=
  (s.environment.lookup "CTYPES_DATA_MODEL").bind modelNamed

/-- The search paths of the environment, those that are not empty. -/
def environmentPaths (s : Surroundings) : List String :=
  match s.environment.lookup "CTYPES_LIBRARY_PATH" with
  | none => []
  | some text => (Path.splitList text).filter (!·.isEmpty)

/-- What the environment says about reading foreign memory. -/
def environmentReads (s : Surroundings) : Option Bool :=
  (s.environment.lookup "CTYPES_ALLOW_FOREIGN_READS").map fun text =>
    ["true", "1", "yes"].contains (lowered text)

/-- What the environment says, as a layer of its own. -/
def environmentSettings (s : Surroundings) : Settings where
  platform := s.environmentModel.map fun model => { model := some model }
  library := if s.environmentPaths.isEmpty then none else some { searchPaths := s.environmentPaths }
  memory := s.environmentReads.map fun allow => { allowForeignReads := some allow }

/-- If the environment asks for a data model, there is one of that name. -/
def ModelKnown (s : Surroundings) : Prop :=
  ∀ text, s.environment.lookup "CTYPES_DATA_MODEL" = some text → (modelNamed text).isSome

/-- The environment asks for a data model that does not exist. -/
def ModelUnknown (s : Surroundings) (failure : ConfigFailure) : Prop :=
  ∃ text, s.environment.lookup "CTYPES_DATA_MODEL" = some text ∧ modelNamed text = none
    ∧ failure = .invalidValue "CTYPES_DATA_MODEL" s!"unknown data model '{text}'"

theorem namedModel_environment : s.environmentSettings.namedModel = s.environmentModel := by
  unfold Settings.namedModel environmentSettings
  cases s.environmentModel <;> rfl

theorem wcharSize_environment : s.environmentSettings.wcharSize = none := by
  unfold Settings.wcharSize environmentSettings
  cases s.environmentModel <;> rfl

theorem saidReads_environment : s.environmentSettings.saidReads = s.environmentReads := by
  unfold Settings.saidReads environmentSettings
  cases s.environmentReads <;> rfl

theorem searchPaths_environment : s.environmentSettings.searchPaths = s.environmentPaths := by
  unfold Settings.searchPaths environmentSettings
  cases s.environmentPaths <;> rfl

theorem valid_environment : s.environmentSettings.validate = .ok () := by
  refine Settings.validate_eq_ok.mpr ⟨fun size chosen => ?_, fun entry found => ?_⟩
  · rw [wcharSize_environment] at chosen
    cases chosen
  · cases found

theorem applyModel_spec (s : Surroundings) (settings : Settings) :
    Ends (s.applyModel settings)
      (fun result => s.ModelKnown ∧ result = settings.merge
        { platform := s.environmentModel.map fun model => { model := some model } })
      s.ModelUnknown := by
  unfold applyModel ModelKnown environmentModel
  split
  case h_1 unset =>
    rw [unset]
    refine ⟨fun _ set => ?_, rfl⟩
    cases set
  case h_2 text set =>
    rw [set]
    cases named : modelNamed text with
    | none =>
      rw [show ModelName.spellings.lookup (lowered (Text.trimmed text)) = none from named]
      exact ⟨text, set, named, rfl⟩
    | some model =>
      rw [show ModelName.spellings.lookup (lowered (Text.trimmed text)) = some model from named]
      refine ⟨fun other same => ?_, by rw [Option.bind_some, named]; rfl⟩
      cases same
      exact Option.isSome_of_eq_some named

theorem applyPaths_eq (settings : Settings) :
    s.applyPaths settings = settings.merge { library := s.environmentSettings.library } := by
  unfold applyPaths environmentSettings environmentPaths
  cases s.environment.lookup "CTYPES_LIBRARY_PATH" with
  | none => rfl
  | some text =>
    dsimp only
    split <;> rfl

theorem applyReads_eq (settings : Settings) :
    s.applyReads settings = settings.merge { memory := s.environmentSettings.memory } := by
  unfold applyReads environmentSettings environmentReads
  cases s.environment.lookup "CTYPES_ALLOW_FOREIGN_READS" <;> rfl

theorem applyEnvironment_spec {settings : Settings} (valid : settings.validate = .ok ()) :
    Ends (s.applyEnvironment settings)
      (fun result => s.ModelKnown ∧ result = settings.merge s.environmentSettings)
      s.ModelUnknown := by
  refine (s.applyModel_spec settings).bind fun result own => ?_
  obtain ⟨known, rfl⟩ := own
  have one : s.applyReads (s.applyPaths (settings.merge
      { platform := s.environmentModel.map fun model => { model := some model } }))
        = settings.merge s.environmentSettings := by
    rw [applyReads_eq, applyPaths_eq]
    rfl
  rw [one]
  show Ends ((settings.merge s.environmentSettings).validate >>= fun _ => pure _) _ _
  rw [Settings.validate_merge valid valid_environment]
  exact ⟨known, rfl⟩

/-! ## Precedence -/

/-- Settings come from three sources: the environment counts before the project, and the project
before the global file. -/
structure Precedence (s : Surroundings) (project global settings : Settings) : Prop where
  model : settings.model
    = (s.environmentModel <|> project.namedModel <|> global.namedModel).getD .native
  wcharSize : settings.wcharSize = (project.wcharSize <|> global.wcharSize)
  reads : settings.allowForeignReads
    = (s.environmentReads <|> project.saidReads <|> global.saidReads).getD false
  functions : ∀ name, settings.functions.lookup name
    = (project.functions.lookup name <|> global.functions.lookup name)
  byName : Settings.ByName settings.functions
  searchPaths : settings.searchPaths
    = s.environmentPaths ++ project.searchPaths ++ global.searchPaths

theorem precedence_merge (own : Settings.ByName project.functions)
    (below : Settings.ByName global.functions) :
    s.Precedence project global ((global.merge project).merge s.environmentSettings) := by
  have layered : Settings.Layered [s.environmentSettings, project, global]
      ((global.merge project).merge s.environmentSettings) :=
    ((Settings.layered_singleton below).merge own).merge .nil
  constructor
  case model =>
    show Option.getD (Settings.namedModel _) .native = _
    rw [layered.model, Settings.findSome?_cons, Settings.findSome?_cons,
      List.findSome?_singleton, namedModel_environment]
  case wcharSize =>
    rw [layered.wcharSize, Settings.findSome?_cons, Settings.findSome?_cons,
      List.findSome?_singleton, wcharSize_environment]
    rfl
  case reads =>
    show Option.getD (Settings.saidReads _) false = _
    rw [layered.reads, Settings.findSome?_cons, Settings.findSome?_cons,
      List.findSome?_singleton, saidReads_environment]
  case functions =>
    intro name
    rw [layered.functions, Settings.findSome?_cons, Settings.findSome?_cons,
      List.findSome?_singleton]
    rfl
  case byName => exact layered.byName
  case searchPaths =>
    rw [layered.searchPaths, List.flatMap_cons, List.flatMap_cons, List.flatMap_singleton,
      searchPaths_environment, List.append_assoc]

/-! ## Loading -/

theorem layered_spec {source : Option String} (ordered : s.decode.Ordered)
    (own : s.SourceSays source project) :
    Ends (s.layered globalPath project)
      (fun settings => ∃ global, s.SourceSays (s.globalSource globalPath) global ∧ s.ModelKnown
        ∧ s.Precedence project global settings ∧ settings.validate = .ok ())
      (fun failure => (s.files.exists? s.current globalPath = true ∧ s.Unusable globalPath failure)
        ∨ s.ModelUnknown failure) := by
  refine ((s.readGlobal_spec globalPath).mono_error fun _ => .inl).bind fun global below => ?_
  have valid := Settings.validate_merge below.valid own.valid
  refine ((applyEnvironment_spec valid).mono_error fun _ => Or.inr).mono_ok ?_
  rintro settings ⟨known, rfl⟩
  exact ⟨global, below, known, precedence_merge (own.byName ordered) (below.byName ordered),
    Settings.validate_merge valid valid_environment⟩

/-- A file that loading reads: the global one, or that of the nearest project. -/
inductive Consulted (s : Surroundings) (globalPath directory : String) : String → Prop where
  | global (found : s.files.exists? s.current globalPath = true) :
      Consulted s globalPath directory globalPath
  | project {root : String} (near : s.Nearest directory (some root)) :
      Consulted s globalPath directory (Path.join root projectFile)

/-- Loading the configuration of a directory gives what the environment, the nearest project and the
global file say, in this order of precedence, and a valid result. It fails only when a file that it
reads cannot be used, or when the environment asks for a data model that does not exist. Functions
are decoded in the order of their names. -/
theorem loadDirectory_spec (s : Surroundings) (ordered : s.decode.Ordered)
    (globalPath directory : String) :
    Ends (s.loadDirectory globalPath directory)
      (fun config => ∃ project global, s.Nearest directory config.projectRoot
        ∧ s.SourceSays (projectSource config.projectRoot) project
        ∧ s.SourceSays (s.globalSource globalPath) global ∧ s.ModelKnown
        ∧ s.Precedence project global config.settings ∧ config.settings.validate = .ok ())
      (fun failure => (∃ path, s.Consulted globalPath directory path ∧ s.Unusable path failure)
        ∨ s.ModelUnknown failure) := by
  -- A path has fewer directories above it than characters, so the search reaches the top.
  have enough : directory.length < directory.length + 2 := by omega
  refine ((findProject_spec enough).mono_error ?_).bind ?_
  · rintro failure ⟨root, near, refused⟩
    exact .inl ⟨_, .project near, refused⟩
  rintro ⟨root, project⟩ ⟨near, own⟩
  refine ((layered_spec ordered own).mono_error ?_).bind ?_
  · rintro failure (⟨found, refused⟩ | unknown)
    · exact .inl ⟨_, .global found, refused⟩
    · exact .inr unknown
  rintro settings ⟨global, below, known, precedence, valid⟩
  exact ⟨project, global, near, own, below, known, precedence, valid⟩

/-- A global file, a project in a directory, and a data model in the environment. -/
def threeLayers : Surroundings where
  files := ⟨[
    (["home", ".ctypes", "config.toml"], .file (Text.Utf8.encode "platform.wchar_size=4")),
    (["work", "ctypes.toml"], .file (Text.Utf8.encode "platform.wchar_size=2"))]⟩
  decode := Settings.ofToml?
  current := "/"
  home := "/home"
  environment := [("CTYPES_DATA_MODEL", "llp64")]

/-- The project above a directory counts before the global file, and the data model of the
environment is added. -/
theorem loadDirectory_threeLayers :
    threeLayers.decode.Ordered ∧ ∃ config project global,
      threeLayers.loadDirectory threeLayers.globalFile "/work/sub" = .ok config
        ∧ threeLayers.SourceSays (projectSource (some "/work")) project
        ∧ threeLayers.SourceSays (threeLayers.globalSource threeLayers.globalFile) global
        ∧ threeLayers.Precedence project global config.settings
        ∧ config.settings = { platform := some ⟨some (.fixed .llp64), some 2⟩ } := by
  have outcome : (threeLayers.loadDirectory threeLayers.globalFile "/work/sub").toOption.map
      (fun config => (config.projectRoot, config.settings))
        = some (some "/work", { platform := some ⟨some (.fixed .llp64), some 2⟩ }) := by
    decide +kernel
  have ordered : threeLayers.decode.Ordered := Settings.ordered_ofToml?
  -- What follows computes nothing, and does not look at the files.
  generalize threeLayers = s at outcome ordered ⊢
  obtain ⟨config, found, same⟩ := Option.map_eq_some_iff.mp outcome
  have ran := toOption_eq_some.mp found
  have ends := loadDirectory_spec s ordered s.globalFile "/work/sub"
  rw [ran] at ends
  obtain ⟨project, global, -, own, below, -, precedence, -⟩ := ends
  obtain ⟨root, settings⟩ := Prod.mk.inj same
  rw [root] at own
  exact ⟨ordered, config, project, global, ran, own, below, precedence, settings⟩

end Surroundings

end CInterop
