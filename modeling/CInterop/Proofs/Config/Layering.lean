import CInterop.Config.Decode
import CInterop.Proofs.Outcome
import Mathlib.Data.String.Basic

/-!
# Layers of settings

Settings are laid over one another, each layer by one `Settings.merge`. Whatever the number of
layers, the uppermost one that sets something is the one that counts, and the search paths of all of
them follow one another from the top down (`Layered.merge`). Functions stay in the order of their
names, so that looking names up tells all there is to know about them.
-/

namespace CInterop

namespace Settings

/-! ## Functions by name -/

section

variable {name other : String} {function : FunctionSettings}
  {functions below above : List (String × FunctionSettings)}

/-- The functions are in the order of their names, each name once. -/
def ByName (functions : List (String × FunctionSettings)) : Prop :=
  functions.Pairwise fun a b => a.1 < b.1

instance (functions : List (String × FunctionSettings)) : Decidable (ByName functions) :=
  inferInstanceAs (Decidable (functions.Pairwise fun a b => a.1 < b.1))

/-- The functions with others laid over them. -/
def layFunctions (below above : List (String × FunctionSettings)) :
    List (String × FunctionSettings) :=
  above.foldl (fun functions (name, function) => insertFunction name function functions) below

theorem lookup_cons :
    ((name, function) :: functions).lookup other =
      if other = name then some function else functions.lookup other := by
  by_cases same : other = name
  · subst same
    simp
  · rw [List.lookup_cons, if_neg same, beq_eq_false_iff_ne.mpr same]

theorem lookup_insertFunction :
    (insertFunction name function functions).lookup other =
      if other = name then some function else functions.lookup other := by
  induction functions with
  | nil => exact lookup_cons
  | cons entry rest ih =>
    obtain ⟨first, old⟩ := entry
    unfold insertFunction
    split
    case isTrue => exact lookup_cons
    case isFalse =>
      split
      case isTrue found =>
        subst found
        rw [lookup_cons, lookup_cons]
        by_cases same : other = name <;> simp [same]
      case isFalse differs =>
        rw [lookup_cons, lookup_cons, ih]
        by_cases here : other = first
        · have apart : other ≠ name := fun same => differs (same.symm.trans here)
          simp only [if_pos here, if_neg apart]
        · simp only [if_neg here]

theorem mem_of_mem_insertFunction {entry : String × FunctionSettings}
    (mem : entry ∈ insertFunction name function functions) :
    entry = (name, function) ∨ entry ∈ functions := by
  induction functions with
  | nil => exact .inl (List.mem_singleton.mp mem)
  | cons head rest ih =>
    obtain ⟨first, old⟩ := head
    unfold insertFunction at mem
    split at mem
    · exact List.mem_cons.mp mem
    · split at mem
      · exact (List.mem_cons.mp mem).imp_right (List.mem_cons_of_mem _)
      · rcases List.mem_cons.mp mem with rfl | later
        · exact .inr List.mem_cons_self
        · exact (ih later).imp_right (List.mem_cons_of_mem _)

theorem byName_insertFunction (order : ByName functions) :
    ByName (insertFunction name function functions) := by
  induction functions with
  | nil => exact List.pairwise_singleton _ _
  | cons head rest ih =>
    obtain ⟨first, old⟩ := head
    obtain ⟨ahead, tail⟩ := List.pairwise_cons.mp order
    unfold insertFunction
    split
    case isTrue before =>
      refine List.pairwise_cons.mpr ⟨List.forall_mem_cons.mpr ⟨before, ?_⟩, order⟩
      exact fun entry mem => lt_trans before (ahead entry mem)
    case isFalse behind =>
      split
      case isTrue same => exact List.pairwise_cons.mpr ⟨same ▸ ahead, tail⟩
      case isFalse differs =>
        have after : first < name := lt_of_le_of_ne (not_lt.mp behind) (Ne.symm differs)
        refine List.pairwise_cons.mpr ⟨fun entry mem => ?_, ih tail⟩
        rcases mem_of_mem_insertFunction mem with rfl | mem
        · exact after
        · exact ahead entry mem

theorem byName_layFunctions (order : ByName below) : ByName (layFunctions below above) := by
  unfold layFunctions
  induction above generalizing below with
  | nil => exact order
  | cons entry rest ih => exact ih (byName_insertFunction order)

theorem mem_of_mem_layFunctions {entry : String × FunctionSettings}
    (mem : entry ∈ layFunctions below above) : entry ∈ above ∨ entry ∈ below := by
  unfold layFunctions at mem
  induction above generalizing below with
  | nil => exact .inr mem
  | cons head rest ih =>
    rcases ih mem with later | earlier
    · exact .inl (List.mem_cons_of_mem _ later)
    · rcases mem_of_mem_insertFunction earlier with rfl | found
      · exact .inl List.mem_cons_self
      · exact .inr found

theorem lookup_eq_none_of_ahead (ahead : ∀ entry ∈ functions, name < entry.1) :
    functions.lookup name = none := by
  rw [List.lookup_eq_none_iff]
  intro entry mem
  simpa using ne_of_lt (ahead entry mem)

/-- Of two functions of one name the one that is laid above counts. -/
theorem lookup_layFunctions (order : ByName above) :
    (layFunctions below above).lookup name = (above.lookup name <|> below.lookup name) := by
  unfold layFunctions
  induction above generalizing below with
  | nil => simp
  | cons entry rest ih =>
    obtain ⟨first, function⟩ := entry
    obtain ⟨ahead, tail⟩ := List.pairwise_cons.mp order
    rw [List.foldl_cons, ih tail, lookup_insertFunction, lookup_cons]
    by_cases here : name = first
    · subst here
      rw [if_pos rfl, if_pos rfl, lookup_eq_none_of_ahead ahead]
      rfl
    · rw [if_neg here, if_neg here]

end

/-! ## One layer over another -/

/-- The data model that settings name, if they name one. -/
def namedModel (settings : Settings) : Option ModelName := settings.platform.bind (·.model)

/-- What settings say about reading foreign memory, if they say anything. -/
def saidReads (settings : Settings) : Option Bool := settings.memory.bind (·.allowForeignReads)

/-- Settings are what some sources say together, the uppermost first: each single thing is said by
the first source that sets it. -/
structure Layered (sources : List Settings) (settings : Settings) : Prop where
  model : settings.namedModel = sources.findSome? namedModel
  wcharSize : settings.wcharSize = sources.findSome? wcharSize
  reads : settings.saidReads = sources.findSome? saidReads
  functions : ∀ name, settings.functions.lookup name = sources.findSome? (·.functions.lookup name)
  byName : ByName settings.functions
  searchPaths : settings.searchPaths = sources.flatMap searchPaths

section

variable {sources : List Settings} {settings below above : Settings}

/-- What the uppermost source says comes first. -/
theorem findSome?_cons {α : Type} (part : Settings → Option α) (source : Settings) :
    (source :: sources).findSome? part = (part source <|> sources.findSome? part) := by
  rw [List.findSome?_cons]
  cases part source <;> rfl

theorem layered_singleton (order : ByName settings.functions) : Layered [settings] settings where
  model := List.findSome?_singleton.symm
  wcharSize := List.findSome?_singleton.symm
  reads := List.findSome?_singleton.symm
  functions _ := List.findSome?_singleton.symm
  byName := order
  searchPaths := (List.flatMap_singleton _ _).symm

theorem namedModel_merge :
    (below.merge above).namedModel = (above.namedModel <|> below.namedModel) := by
  unfold namedModel merge mergePlatform
  cases above.platform <;> cases below.platform <;> simp

theorem wcharSize_merge :
    (below.merge above).wcharSize = (above.wcharSize <|> below.wcharSize) := by
  unfold wcharSize merge mergePlatform
  cases above.platform <;> cases below.platform <;> simp

theorem saidReads_merge :
    (below.merge above).saidReads = (above.saidReads <|> below.saidReads) := by
  unfold saidReads merge mergeMemory
  dsimp only
  cases above.memory.bind (·.allowForeignReads) <;> rfl

theorem searchPaths_merge :
    (below.merge above).searchPaths = above.searchPaths ++ below.searchPaths := by
  unfold searchPaths merge mergeLibrary
  cases above.library <;> cases below.library <;> simp

/-- A layer that is laid over others counts first. -/
theorem Layered.merge (layered : Layered sources below) (order : ByName above.functions) :
    Layered (above :: sources) (below.merge above) where
  model := by rw [findSome?_cons, namedModel_merge, layered.model]
  wcharSize := by rw [findSome?_cons, wcharSize_merge, layered.wcharSize]
  reads := by rw [findSome?_cons, saidReads_merge, layered.reads]
  functions name := by
    rw [findSome?_cons, ← layered.functions name]
    exact lookup_layFunctions order
  byName := byName_layFunctions layered.byName
  searchPaths := by rw [List.flatMap_cons, searchPaths_merge, layered.searchPaths]

end

/-! ## Validity -/

theorem validate_eq_ok {settings : Settings} :
    settings.validate = .ok () ↔
      (∀ size, settings.wcharSize = some size → size = 2 ∨ size = 4)
        ∧ ∀ entry ∈ settings.functions, checkFunction entry.1 entry.2 = .ok () := by
  have checked : (do
        for (name, function) in settings.functions do
          checkFunction name function) = .ok () ↔
      ∀ entry ∈ settings.functions, checkFunction entry.1 entry.2 = .ok () := by
    rw [bind_pure, forIn_eq_ok]
    exact forall₂_congr fun entry _ => ⟨fun ⟨_, ran⟩ => ran, fun ran => ⟨_, ran⟩⟩
  unfold validate
  cases settings.wcharSize with
  | none => exact checked.trans (and_iff_right (fun _ said => nomatch said)).symm
  | some size =>
    have own : (∀ other, some size = some other → other = 2 ∨ other = 4) ↔ size = 2 ∨ size = 4 :=
      ⟨fun all => all size rfl, fun fits _ same => Option.some.inj same ▸ fits⟩
    rw [own, ← checked]
    by_cases fits : size = 2 ∨ size = 4
    · rw [and_iff_right fits]
      simp only [← Bool.decide_or, fits]
      rfl
    · refine iff_of_false (fun valid => ?_) fun both => fits both.1
      simp only [← Bool.decide_or, fits] at valid
      cases valid

/-- Settings that are valid by themselves are valid together. -/
theorem validate_merge {below above : Settings} (lower : below.validate = .ok ())
    (upper : above.validate = .ok ()) : (below.merge above).validate = .ok () := by
  rw [validate_eq_ok] at lower upper ⊢
  refine ⟨fun size said => ?_, fun entry mem => ?_⟩
  · rw [wcharSize_merge] at said
    cases own : above.wcharSize with
    | none => exact lower.1 size (by rwa [own] at said)
    | some chosen => exact upper.1 size (own.trans (by rwa [own] at said))
  · rcases mem_of_mem_layFunctions mem with found | found
    · exact upper.2 entry found
    · exact lower.2 entry found

/-! ## Settings of a document -/

end Settings

/-- The functions of decoded settings are in the order of their names. -/
def Decoder.Ordered (decode : Decoder) : Prop :=
  ∀ text settings, decode text = some settings → Settings.ByName settings.functions

namespace Settings

/-- Functions that are inserted one after another stay in order. -/
theorem byName_foldlM {entries : Toml.Entries} {start functions : List (String × FunctionSettings)}
    (order : ByName start)
    (read : entries.foldlM (fun functions entry => do
        return insertFunction entry.1 (← FunctionSettings.ofToml? entry.2) functions) start
      = some functions) : ByName functions := by
  induction entries generalizing start with
  | nil =>
    cases read
    exact order
  | cons entry rest ih =>
    rw [List.foldlM_cons] at read
    obtain ⟨next, first, others⟩ := Option.bind_eq_some_iff.mp read
    obtain ⟨function, _, same⟩ := Option.bind_eq_some_iff.mp first
    cases same
    exact ih (byName_insertFunction order) others

theorem byName_functionsOfToml? {document : Toml} {functions : List (String × FunctionSettings)}
    (read : functionsOfToml? document = some functions) : ByName functions := by
  unfold functionsOfToml? at read
  split at read
  case h_1 => exact byName_foldlM .nil read
  case h_2 => cases read

theorem byName_ofDocument? {entries : Toml.Entries} {settings : Settings}
    (read : ofDocument? entries = some settings) : ByName settings.functions := by
  unfold ofDocument? at read
  obtain ⟨values, _, read⟩ := Option.bind_eq_some_iff.mp read
  split at read
  case h_2 => cases read
  case h_1 _ _ _ named _ =>
    simp only [Option.bind_eq_bind, Option.bind_eq_some_iff, Option.pure_def,
      Option.some.injEq] at read
    obtain ⟨_, _, _, _, _, _, functions, found, rfl⟩ := read
    cases named with
    | none =>
      cases found
      exact .nil
    | some document => exact byName_functionsOfToml? found

theorem ordered_ofToml? : ofToml?.Ordered := by
  intro text settings decoded
  obtain ⟨entries, _, document⟩ := Option.bind_eq_some_iff.mp decoded
  exact byName_ofDocument? document

end Settings

end CInterop
