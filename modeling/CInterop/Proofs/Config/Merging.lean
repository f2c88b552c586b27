import CInterop.Proofs.Config.Layering
import Mathlib.Data.List.Sort

/-!
# The algebra of merging

Laying settings over one another is associative, and settings that say nothing change nothing
(`Settings.merge_laws`). Laid over nothing, settings stay what they are, but that a section on
memory that says nothing is dropped. So the layers of a configuration may be merged in any grouping,
though not in any order.
-/

namespace CInterop.Settings

/-! ## Functions -/

section

variable {functions below above uppermost : List (String × FunctionSettings)}

theorem ByName.mem_iff (order : ByName functions) {name : String} {function : FunctionSettings} :
    (name, function) ∈ functions ↔ functions.lookup name = some function := by
  induction functions with
  | nil => simp
  | cons entry rest ih =>
    obtain ⟨first, own⟩ := entry
    obtain ⟨ahead, tail⟩ := List.pairwise_cons.mp order
    rw [List.mem_cons, lookup_cons, ih tail]
    by_cases here : name = first
    · subst here
      rw [if_pos rfl, lookup_eq_none_of_ahead ahead]
      simp [eq_comm]
    · rw [if_neg here]
      simp [here]

/-- Functions in order are told apart by looking names up. -/
theorem ByName.eq_of_lookup (order : ByName below) (order' : ByName above)
    (same : ∀ name, below.lookup name = above.lookup name) : below = above := by
  have irreflexive : Std.Irrefl fun a b : String × FunctionSettings => a.1 < b.1 :=
    ⟨fun a => lt_irrefl a.1⟩
  have antisymmetric : Std.Antisymm fun a b : String × FunctionSettings => a.1 < b.1 :=
    ⟨fun _ _ before behind => absurd behind (lt_asymm before)⟩
  refine order.eq_of_mem_iff order' ?_
  rintro ⟨name, function⟩
  rw [order.mem_iff, order'.mem_iff, same]

theorem layFunctions_assoc (order : ByName below) (order' : ByName above)
    (order'' : ByName uppermost) :
    layFunctions (layFunctions below above) uppermost
      = layFunctions below (layFunctions above uppermost) := by
  have upper : ByName (layFunctions above uppermost) := byName_layFunctions order'
  refine (byName_layFunctions (byName_layFunctions order)).eq_of_lookup
    (byName_layFunctions order) fun name => ?_
  rw [lookup_layFunctions order'', lookup_layFunctions order', lookup_layFunctions upper,
    lookup_layFunctions order'']
  cases uppermost.lookup name <;> rfl

theorem layFunctions_nil (order : ByName functions) : layFunctions [] functions = functions := by
  refine (byName_layFunctions .nil).eq_of_lookup order fun name => ?_
  rw [lookup_layFunctions order]
  cases functions.lookup name <;> rfl

end

/-! ## Sections -/

theorem mergePlatform_assoc (a b c : Option PlatformSettings) :
    mergePlatform (mergePlatform a b) c = mergePlatform a (mergePlatform b c) := by
  cases c with
  | none => rfl
  | some upper =>
    cases b with
    | none => simp [mergePlatform]
    | some middle => simp [mergePlatform, Option.or_assoc]

theorem mergeLibrary_assoc (a b c : Option LibrarySettings) :
    mergeLibrary (mergeLibrary a b) c = mergeLibrary a (mergeLibrary b c) := by
  cases c with
  | none => rfl
  | some upper =>
    cases b with
    | none => simp [mergeLibrary]
    | some middle => simp [mergeLibrary]

theorem mergeMemory_assoc (a b c : Option MemorySettings) :
    mergeMemory (mergeMemory a b) c = mergeMemory a (mergeMemory b c) := by
  unfold mergeMemory
  cases said : c.bind (·.allowForeignReads) with
  | none => rfl
  | some allow => rfl

/-! ## The laws -/

variable {a b c : Settings}

theorem merge_assoc (order : ByName a.functions) (order' : ByName b.functions)
    (order'' : ByName c.functions) : (a.merge b).merge c = a.merge (b.merge c) := by
  have functions := layFunctions_assoc order order' order''
  unfold merge
  rw [mergePlatform_assoc, mergeLibrary_assoc, mergeMemory_assoc]
  exact congrArg (Settings.mk _ _ _) functions

theorem merge_empty (a : Settings) : a.merge {} = a := rfl

/-- Over nothing a section stays as it is, unless it is one on memory that says nothing. -/
theorem empty_merge (order : ByName a.functions) :
    ({} : Settings).merge a
      = { a with memory := a.memory.filter (·.allowForeignReads.isSome) } := by
  have platform : mergePlatform none a.platform = a.platform := by
    cases a.platform <;> simp [mergePlatform]
  have library : mergeLibrary none a.library = a.library := by
    cases a.library <;> simp [mergeLibrary]
  have memory : mergeMemory none a.memory
      = a.memory.filter (·.allowForeignReads.isSome) := by
    rcases a.memory with _ | ⟨_ | allow⟩ <;> rfl
  have functions := layFunctions_nil order
  unfold merge
  rw [platform, library, memory]
  exact congrArg (Settings.mk _ _ _) functions

/-- Settings are merged in any grouping, and settings that say nothing change nothing. Over nothing,
settings stay what they are, but for a section on memory that says nothing. What is valid stays
valid. -/
theorem merge_laws (order : ByName a.functions) (order' : ByName b.functions)
    (order'' : ByName c.functions) :
    (a.merge b).merge c = a.merge (b.merge c)
      ∧ a.merge {} = a
      ∧ ({} : Settings).merge a
        = { a with memory := a.memory.filter (·.allowForeignReads.isSome) }
      ∧ (a.validate = .ok () → b.validate = .ok () → (a.merge b).validate = .ok ()) :=
  ⟨merge_assoc order order' order'', merge_empty a, empty_merge order, validate_merge⟩

/-! ## Three layers -/

/-- The settings of a machine. -/
def machineSettings : Settings where
  platform := some { model := some (.fixed .lp64), wcharSize := some 4 }
  library := some { searchPaths := ["/usr/native"] }
  functions := [("abs", { args := ["int"] }), ("puts", { args := ["char*"] })]

/-- The settings of a project on it, which declare one of the functions anew. -/
def projectSettings : Settings where
  platform := some { wcharSize := some 2 }
  library := some { searchPaths := ["./native"] }
  memory := some { allowForeignReads := some true }
  functions := [("puts", { args := ["char*"], returns := some "int" })]

/-- Settings over both, with sections that say nothing. -/
def emptySections : Settings where
  platform := some {}
  library := some {}
  memory := some {}
  functions := [("abs", { args := ["int"], returns := some "int" }), ("labs", {})]

theorem merge_laws_layers :
    ByName machineSettings.functions ∧ ByName projectSettings.functions
      ∧ ByName emptySections.functions
      ∧ (machineSettings.merge projectSettings).merge emptySections
        = machineSettings.merge (projectSettings.merge emptySections)
      ∧ emptySections.merge {} = emptySections
      ∧ ({} : Settings).merge emptySections = { emptySections with memory := none }
      ∧ (emptySections.merge projectSettings).validate = .ok () := by
  have machine : ByName machineSettings.functions := by decide
  have project : ByName projectSettings.functions := by decide
  have sections : ByName emptySections.functions := by decide
  obtain ⟨grouped, -, -, -⟩ := merge_laws machine project sections
  obtain ⟨-, kept, dropped, valid⟩ := merge_laws sections project machine
  exact ⟨machine, project, sections, grouped, kept, dropped, valid rfl rfl⟩

end CInterop.Settings
