import Mathlib.Logic.Relation
import CInterop.Engine
import CInterop.Proofs.Outcome

/-!
# Engines for another platform

The registry of an engine may describe a platform that calls are not made on. No request changes
which platform that is (`unchanged_of_requested`), and such an engine refuses whatever goes through
its declarations. `Engine.bind` takes a signature as it is: there, the symbol and the shapes of the
types count, whatever platform the types come from (`bind_eq_ok`).
-/

namespace CInterop

/-! ## Signatures that can be bound -/

namespace Signature

/-- A signature that an entry point can be prepared for. -/
structure Bindable (signature : Signature) : Prop where
  flat : signature.returns.element? = none
  args : ∀ type ∈ signature.args, ∃ shape, type.passed = .ok shape
  returns : signature.returns.isVoid = true ∨ ∃ shape, signature.returns.passed = .ok shape
  convention : signature.convention = .standard

end Signature

theorem Convention.check_eq_ok {function : String} {convention : Convention} :
    convention.check function = .ok () ↔ convention = .standard := by
  cases convention with
  | standard => exact ⟨fun _ => rfl, fun _ => rfl⟩
  | stdcall => exact iff_of_false (fun checked => nomatch checked) fun other => nomatch other

theorem Signature.check_eq_ok {function : String} {args : List CType} {returns : CType}
    {convention : Convention} :
    check function args returns convention = .ok ()
      ↔ (∀ type ∈ args, ∃ shape, type.passed = .ok shape)
        ∧ (returns.isVoid = true ∨ ∃ shape, returns.passed = .ok shape)
        ∧ convention = .standard := by
  rw [check, bind_eq_ok]
  simp only [forIn_eq_ok, exists_and_left, exists_const]
  refine and_congr_right fun _ => ?_
  cases void : returns.isVoid with
  | true => simpa using Convention.check_eq_ok
  | false =>
    simp only [Bool.false_eq_true, if_false, false_or, bind_eq_ok, Convention.check_eq_ok,
      exists_and_right]

theorem EntryPoint.prepare_eq_ok {name : String} {library : Option String} {address : UInt64}
    {signature : Signature} {entry : EntryPoint} :
    prepare name library address signature = .ok entry
      ↔ address ≠ 0 ∧ signature.Bindable ∧ entry = { name, library, address, signature } := by
  rw [prepare, refuse_eq_ok, refuse_eq_ok, CInterop.bind_eq_ok]
  refine and_congr_right fun _ => ?_
  constructor
  · rintro ⟨flat, ⟨⟩, checked, same⟩
    obtain ⟨args, returns, convention⟩ := Signature.check_eq_ok.mp checked
    cases same
    exact ⟨⟨Option.not_isSome_iff_eq_none.mp flat, args, returns, convention⟩, rfl⟩
  · rintro ⟨⟨flat, args, returns, convention⟩, rfl⟩
    exact ⟨Option.not_isSome_iff_eq_none.mpr flat, (),
      Signature.check_eq_ok.mpr ⟨args, returns, convention⟩, rfl⟩

namespace Engine

variable {linker : Linker} {files : FileTree} {current : String} {engine next : Engine}

/-! ## Requests -/

/-- What an engine is asked for. -/
inductive Request where
  | define (name : String) (kind : CompositeKind) (decls : List FieldDecl) (packing : Packing)
  | addPath (path : String)
  | loadLibrary (name : String)
  | resolveSignature (function : String) (declaration : Declaration)
  | bind (library : Option String) (symbol : String) (signature : Signature)
  | bindDeclared (name : String)
  | bindAll

/-- The engine that a request leaves. -/
def after (linker : Linker) (files : FileTree) (current : String) (engine : Engine) :
    Request → Engine
  | .define name kind decls packing =>
    match engine.registry.define name kind decls packing with
    | .ok (_, registry) => { engine with registry }
    | .error _ => engine
  | .addPath path => { engine with loader := engine.loader.addPath path }
  | .loadLibrary name =>
    match engine.loadLibrary linker files current name with
    | .ok (_, engine) => engine
    | .error _ => engine
  | .resolveSignature .. => engine
  | .bind library symbol signature => (engine.bind linker files current library symbol signature).2
  | .bindDeclared name => (engine.bindDeclared linker files current name).2
  | .bindAll => (engine.bindAll linker files current).2

/-- One engine becomes the other by some request, whatever the libraries and the files are by
then. -/
def Requested (engine next : Engine) : Prop :=
  ∃ linker files current request, next = engine.after linker files current request

/-- The two engines have the same settings, and registries of the same platform. -/
def Unchanged (engine next : Engine) : Prop :=
  next.settings = engine.settings ∧ next.registry.platform = engine.registry.platform

theorem Unchanged.refl (engine : Engine) : Unchanged engine engine := ⟨rfl, rfl⟩

theorem Unchanged.trans {later : Engine} (first : Unchanged engine next)
    (second : Unchanged next later) : Unchanged engine later :=
  ⟨second.1.trans first.1, second.2.trans first.2⟩

theorem unchanged_of_define {name : String} {kind : CompositeKind} {decls : List FieldDecl}
    {packing : Packing} {type : CType} {registry : Registry}
    (defined : engine.registry.define name kind decls packing = .ok (type, registry)) :
    Unchanged engine { engine with registry } := by
  obtain ⟨layout, -, named⟩ := CInterop.bind_eq_ok.mp defined
  split at named <;> cases named <;> exact ⟨rfl, rfl⟩

theorem unchanged_of_loadLibrary {name : String} {library : Library}
    (loaded : engine.loadLibrary linker files current name = .ok (library, next)) :
    Unchanged engine next := by
  obtain ⟨⟨own, loader⟩, -, made⟩ := CInterop.bind_eq_ok.mp loaded
  cases made
  exact ⟨rfl, rfl⟩

theorem unchanged_of_findSymbol {library : Option String} {symbol : String}
    {outcome : Except Failure Symbol}
    (looked : engine.findSymbol linker files current library symbol = (outcome, next)) :
    Unchanged engine next := by
  unfold findSymbol at looked
  split at looked
  · cases looked
    exact .refl engine
  · split at looked <;> cases looked
    · exact .refl engine
    · exact unchanged_of_loadLibrary ‹_›

theorem unchanged_of_bind {library : Option String} {symbol : String} {signature : Signature}
    {outcome : Except Failure Binding}
    (asked : engine.bind linker files current library symbol signature = (outcome, next)) :
    Unchanged engine next := by
  unfold bind at asked
  split at asked <;> cases asked <;> exact unchanged_of_findSymbol ‹_›

theorem unchanged_of_bindDeclared {name : String} {outcome : Except Failure Binding}
    (asked : engine.bindDeclared linker files current name = (outcome, next)) :
    Unchanged engine next := by
  unfold bindDeclared at asked
  split at asked
  · cases asked
    exact .refl engine
  · split at asked
    · cases asked
      exact .refl engine
    · exact unchanged_of_bind asked

theorem unchanged_of_bindNames {names : List String}
    {outcome : Except Failure (List (String × Binding))}
    (asked : engine.bindNames linker files current names = (outcome, next)) :
    Unchanged engine next := by
  induction names generalizing engine outcome with
  | nil =>
    cases asked
    exact .refl next
  | cons name rest ih =>
    unfold bindNames at asked
    split at asked
    case h_1 first =>
      cases asked
      exact unchanged_of_bindDeclared first
    case h_2 first =>
      split at asked <;> rename_i others <;> cases asked <;>
        exact (unchanged_of_bindDeclared first).trans (ih others)

/-- No request changes the settings or the platform. -/
theorem unchanged_of_requested (requested : Requested engine next) : Unchanged engine next := by
  obtain ⟨linker, files, current, request, rfl⟩ := requested
  cases request with
  | define name kind decls packing =>
    simp only [after]
    split
    · exact unchanged_of_define ‹_›
    · exact .refl engine
  | addPath path => exact ⟨rfl, rfl⟩
  | loadLibrary name =>
    simp only [after]
    split
    · exact unchanged_of_loadLibrary ‹_›
    · exact .refl engine
  | resolveSignature => exact .refl engine
  | bind => exact unchanged_of_bind rfl
  | bindDeclared => exact unchanged_of_bindDeclared rfl
  | bindAll => exact unchanged_of_bindNames rfl

/-- Nor do any number of them. -/
theorem unchanged_of_reached (reached : Relation.ReflTransGen Requested engine next) :
    Unchanged engine next := by
  induction reached with
  | refl => exact .refl engine
  | tail _ last ih => exact ih.trans (unchanged_of_requested last)

/-! ## What such an engine answers -/

/-- The refusal of a declaration on an engine for another platform. -/
def refusal (engine : Engine) (function : String) (convention : Convention) : Failure :=
  .unsupportedConvention function convention.name
    (.otherPlatform engine.registry.platform.model.name)

theorem resolveSignature_refused (foreign : engine.registry.platform.isHost = false)
    (function : String) (declaration : Declaration) :
    engine.resolveSignature function declaration
      = .error (engine.refusal function declaration.convention) := by
  rw [resolveSignature, foreign]
  rfl

theorem bindDeclared_refused (foreign : engine.registry.platform.isHost = false) (name : String) :
    ∃ failure, engine.bindDeclared linker files current name = (.error failure, engine) := by
  unfold bindDeclared
  split
  · exact ⟨_, rfl⟩
  · rw [resolveSignature_refused foreign]
    exact ⟨_, rfl⟩

theorem bindAll_refused (foreign : engine.registry.platform.isHost = false)
    (declared : engine.settings.functions ≠ []) :
    ∃ failure, engine.bindAll linker files current = (.error failure, engine) := by
  obtain ⟨⟨name, function⟩, rest, functions⟩ := List.exists_cons_of_ne_nil declared
  obtain ⟨failure, refused⟩ : ∃ failure, engine.bindDeclared linker files current name
      = (.error failure, engine) := bindDeclared_refused foreign name
  refine ⟨failure, ?_⟩
  -- The first refusal ends the request.
  rw [bindAll, functions, List.map_cons, bindNames, refused]

/-- What a symbol and a signature are bound to. -/
def bound (engine : Engine) (symbol : Symbol) (signature : Signature) : Binding :=
  { name := symbol.name, library := some symbol.library, address := symbol.address, signature,
    foreignReads := engine.settings.allowForeignReads }

/-- Only the symbol and the signature decide whether a symbol is bound. -/
theorem bind_eq_ok {library : Option String} {symbol : String} {signature : Signature}
    {binding : Binding} :
    (engine.bind linker files current library symbol signature).1 = .ok binding
      ↔ ∃ found, (engine.findSymbol linker files current library symbol).1 = .ok found
        ∧ found.address ≠ 0 ∧ signature.Bindable ∧ binding = engine.bound found signature := by
  unfold bind
  split
  case h_1 failure next looked =>
    rw [looked]
    exact iff_of_false (fun ran => nomatch ran) fun ⟨_, found, _⟩ => nomatch found
  case h_2 found next looked =>
    -- The search may load a library, but leaves the settings that the binding takes over.
    obtain ⟨settings, -⟩ := unchanged_of_findSymbol looked
    rw [looked, bindSymbol, CInterop.bind_eq_ok]
    simp only [EntryPoint.prepare_eq_ok, settings]
    constructor
    · rintro ⟨entry, ⟨present, bindable, rfl⟩, made⟩
      exact ⟨found, rfl, present, bindable, (Except.ok.inj made).symm⟩
    · rintro ⟨other, same, present, bindable, rfl⟩
      cases same
      exact ⟨_, ⟨present, bindable, rfl⟩, rfl⟩

theorem settings_of_ofSettings {settings : Settings} {home : String}
    (made : ofSettings home settings = .ok engine) : engine.settings = settings := by
  obtain ⟨platform, -, same⟩ := CInterop.bind_eq_ok.mp made
  cases same
  rfl

/-- An engine that was configured for another platform never binds what it declares, whatever it was
asked for before. It does bind a symbol to a signature, and asks no more of their types than an
engine for the host. -/
theorem binds_signatures_only {settings : Settings} {home : String} {start : Engine}
    (made : ofSettings home settings = .ok start)
    (foreign : start.registry.platform.isHost = false)
    (reached : Relation.ReflTransGen Requested start engine) (linker : Linker) (files : FileTree)
    (current : String) :
    (∀ function declaration, engine.resolveSignature function declaration
        = .error (engine.refusal function declaration.convention))
      ∧ (∀ name, ∃ failure,
          engine.bindDeclared linker files current name = (.error failure, engine))
      ∧ (settings.functions ≠ [] →
          ∃ failure, engine.bindAll linker files current = (.error failure, engine))
      ∧ ∀ library symbol signature binding,
          (engine.bind linker files current library symbol signature).1 = .ok binding
            ↔ ∃ found, (engine.findSymbol linker files current library symbol).1 = .ok found
              ∧ found.address ≠ 0 ∧ signature.Bindable
              ∧ binding = engine.bound found signature := by
  obtain ⟨same, platform⟩ := unchanged_of_reached reached
  rw [settings_of_ofSettings made] at same
  replace foreign : engine.registry.platform.isHost = false := platform ▸ foreign
  refine ⟨resolveSignature_refused foreign, bindDeclared_refused foreign, fun declared => ?_,
    fun _ _ _ _ => bind_eq_ok⟩
  exact bindAll_refused foreign (same ▸ declared)

/-! ## An engine with short words -/

/-- Settings for a platform on which `long` takes four bytes, with one declared function. -/
def shortWords : Settings :=
  { platform := some { model := some (.fixed .llp64) }
    functions := [("labs", { args := ["long"], returns := some "long" })] }

/-- The type `long` there. -/
def shortLong : CType := .natural "long" .w32 true

/-- The engine for them. -/
def shortWordsEngine : Engine :=
  { settings := shortWords, registry := .ofPlatform (.ofModel .llp64), loader := .ofPaths "/" [] }

/-- A linker by which the running process exports `labs`. -/
def labsLinker : Linker where
  fileName? := some
  knows := String.isEmpty
  address? _ symbol := if symbol = "labs" then some 0x200000000 else none

theorem shortWords_binds_signatures_only :
    ofSettings "/" shortWords = .ok shortWordsEngine
      ∧ shortWordsEngine.registry.platform.isHost = false
      ∧ shortWordsEngine.resolveSignature "labs" { args := ["long"], returns := "long" }
          = .error (shortWordsEngine.refusal "labs" .standard)
      ∧ ∃ failure, shortWordsEngine.bindAll labsLinker .empty "/"
          = (.error failure, shortWordsEngine) := by
  have made : ofSettings "/" shortWords = .ok shortWordsEngine := rfl
  have foreign : shortWordsEngine.registry.platform.isHost = false := by decide
  obtain ⟨resolve, -, all, -⟩ := binds_signatures_only made foreign .refl labsLinker .empty "/"
  exact ⟨made, foreign, resolve _ _, all (by decide)⟩

/-- Its registry gives `long` four bytes, and `labs` of the host is bound for it all the same. -/
theorem shortWords_binds :
    ofSettings "/" shortWords = .ok shortWordsEngine
      ∧ shortWordsEngine.registry.platform.isHost = false
      ∧ shortWordsEngine.registry.byName "long" = .ok shortLong
      ∧ ∃ binding, shortWordsEngine.bind labsLinker .empty "/" none "labs"
          ⟨[shortLong], shortLong, .standard, false⟩ = (.ok binding, shortWordsEngine) :=
  ⟨rfl, by decide, rfl, _, rfl⟩

end Engine

end CInterop
