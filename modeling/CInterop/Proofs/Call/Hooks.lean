import Mathlib.Data.List.Induction
import CInterop.Proofs.Call.Invocation

/-!
# Chained hooks

Hooks are chained two at a time. However they are bracketed, a result passes through them from left
to right, each hook sees what the one before it gave, and the first that fails is the last that is
run (`Hook.Passes`). A call has the hooks that were attached last and not detached since
(`Binding.inForce`); `Binding.invoke_after` says what it gives after any steps.

A `Hook` is a function, so that it cannot be told whether it was run. `Hook.chainIn` chains hooks
that do more than give a value: `Hook.chain` is the case of those that may only fail, and those of
`Hook.noted` take down that they were run.
-/

namespace CInterop

/-! ## Composition -/

/-- Things that were combined two at a time, with the brackets. -/
inductive Composed (α : Type) where
  | one (item : α)
  | pair (first second : Composed α)

namespace Composed

variable {α β : Type}

/-- The things in their order. -/
def items : Composed α → List α
  | one item => [item]
  | pair first second => first.items ++ second.items

/-- What the things are combined to. -/
def combine (op : α → α → α) : Composed α → α
  | one item => item
  | pair first second => op (first.combine op) (second.combine op)

/-- Other things with the same brackets. -/
def map (f : α → β) : Composed α → Composed β
  | one item => one (f item)
  | pair first second => pair (first.map f) (second.map f)

theorem items_map (f : α → β) (c : Composed α) : (c.map f).items = c.items.map f := by
  induction c with
  | one item => rfl
  | pair first second left right =>
    show (first.map f).items ++ (second.map f).items = _
    rw [left, right, ← List.map_append]
    rfl

end Composed

namespace Hook

/-- A hook that gives its value in some monad. -/
abbrev Within (m : Type → Type) := Value → EntryPoint → List Value → m Value

section

variable {m : Type → Type} [Monad m]

/-- The second hook sees what the first one gives. -/
def chainIn (first second : Within m) : Within m := fun result entry args => do
  second (← first result entry args) entry args

/-- Hooks that may only fail are chained in the same way. -/
theorem chain_eq_chainIn : chain = chainIn (m := Except String) := rfl

/-- Chained hooks are run from left to right, whatever they do besides. -/
theorem combine_chainIn [LawfulMonad m] (hooks : Composed (Within m)) (result : Value)
    (entry : EntryPoint) (args : List Value) :
    hooks.combine chainIn result entry args
      = hooks.items.foldlM (fun value hook => hook value entry args) result := by
  induction hooks generalizing result with
  | one hook =>
    show hook result entry args = hook result entry args >>= pure
    rw [bind_pure]
  | pair first second left right =>
    show (first.combine chainIn result entry args >>= fun value =>
      second.combine chainIn value entry args) = (first.items ++ second.items).foldlM _ result
    rw [List.foldlM_append, left]
    exact bind_congr right

end

/-! ## Passing through hooks -/

variable {entry : EntryPoint} {args : List Value} {hooks : List Hook} {result : Value}
  {calls : List (Hook × Value)} {outcome : Except String Value}

/-- A result passes through hooks, all of which see the same function and arguments. `calls` are the
hooks that are run, each with the value that it sees. -/
inductive Passes (entry : EntryPoint) (args : List Value) :
    List Hook → Value → List (Hook × Value) → Except String Value → Prop
  | through (result : Value) : Passes entry args [] result [] (.ok result)
  | next {hook : Hook} {hooks : List Hook} {result value : Value} {calls : List (Hook × Value)}
      {outcome : Except String Value} : hook result entry args = .ok value →
        Passes entry args hooks value calls outcome →
          Passes entry args (hook :: hooks) result ((hook, result) :: calls) outcome
  | failed {hook : Hook} (hooks : List Hook) {result : Value} {reason : String} :
      hook result entry args = .error reason →
        Passes entry args (hook :: hooks) result [(hook, result)] (.error reason)

theorem exists_passes (entry : EntryPoint) (args : List Value) (hooks : List Hook)
    (result : Value) : ∃ calls outcome, Passes entry args hooks result calls outcome := by
  induction hooks generalizing result with
  | nil => exact ⟨[], .ok result, .through result⟩
  | cons hook hooks ih =>
    cases ran : hook result entry args with
    | error reason => exact ⟨_, _, .failed hooks ran⟩
    | ok value =>
      obtain ⟨calls, outcome, passes⟩ := ih value
      exact ⟨_, _, .next ran passes⟩

theorem Passes.foldlM (passes : Passes entry args hooks result calls outcome) :
    hooks.foldlM (fun value hook => hook value entry args) result = outcome := by
  induction passes with
  | through result => rfl
  | next ran _ ih =>
    rw [List.foldlM_cons, ran]
    exact ih
  | failed hooks ran =>
    rw [List.foldlM_cons, ran]
    rfl

/-- A hook that takes down that it was run, and with which value. -/
def noted (hook : Hook) : Within (ExceptT String (StateM (List (Hook × Value)))) :=
  fun result entry args => do
    modify (· ++ [(hook, result)])
    liftM (hook result entry args)

theorem noted_run (hook : Hook) (result : Value) (entry : EntryPoint) (args : List Value)
    (notes : List (Hook × Value)) :
    hook.noted result entry args notes
      = (hook result entry args, notes ++ [(hook, result)]) := rfl

/-- What is taken down are the hooks that are run. -/
theorem Passes.foldlM_noted (passes : Passes entry args hooks result calls outcome)
    (notes : List (Hook × Value)) :
    (hooks.map noted).foldlM (fun value hook => hook value entry args) result notes
      = (outcome, notes ++ calls) := by
  induction passes generalizing notes with
  | through result =>
    rw [List.append_nil]
    rfl
  | next ran _ ih =>
    rw [List.map_cons, List.foldlM_cons, sequence_run, noted_run, ran]
    refine (ih _).trans ?_
    rw [List.append_assoc]
    rfl
  | failed hooks ran =>
    rw [List.map_cons, List.foldlM_cons, sequence_run, noted_run, ran]

end Hook

/-! ## Calls -/

/-- Calls a function, without any hook. -/
def EntryPoint.call (raw : RawCall) (entry : EntryPoint)
    (args : List Value) : ExceptT Failure (StateM World) Value := do
  let bare : Binding := { toEntryPoint := entry }
  let frame ← World.onHeap (bare.marshal args)
  bare.enterFrame raw frame

namespace Binding

theorem invoke_eq_call (raw : RawCall) (binding : Binding)
    (args : List Value) :
    binding.invoke raw args = (do
      let result ← binding.toEntryPoint.call raw args
      liftM (binding.checkResult result args)) := by
  unfold invoke EntryPoint.call
  rw [bind_assoc]
  rfl

/-- What is done with a binding. -/
inductive Step where
  | attach (hooks : Composed Hook)
  | detach
  | invoke (args : List Value)

/-- The binding and the world after a step. -/
def step (raw : RawCall) :
    Binding × World → Step → Binding × World
  | (binding, world), .attach hooks => (binding.attach (hooks.combine Hook.chain), world)
  | (binding, world), .detach => (binding.detach, world)
  | (binding, world), .invoke args => (binding, (binding.invoke raw args world).2)

/-- The binding and the world after some steps. At first nothing is attached. -/
def after (raw : RawCall) (entry : EntryPoint) (world : World)
    (steps : List Step) : Binding × World :=
  steps.foldl (step raw) ({ toEntryPoint := entry }, world)

/-- The hooks that count after some steps, of which the latest stands first: those that were
attached last, unless they were detached. -/
def inForce : List Step → Option (Composed Hook)
  | [] => none
  | .attach hooks :: _ => some hooks
  | .detach :: _ => none
  | .invoke _ :: earlier => inForce earlier

/-- The outcome of a call that some hooks, or none, have the last word on. -/
def Checked (raw : RawCall) (entry : EntryPoint)
    (slot : Option (Composed Hook)) (args : List Value) (world : World)
    (outcome : Except Failure Value × World) : Prop :=
  match entry.call raw args world, slot with
  -- There is no result to look at.
  | (.error failure, after), _ => outcome = (.error failure, after)
  | (.ok result, after), none => outcome = (.ok result, after)
  | (.ok result, after), some hooks => ∃ calls last,
    Hook.Passes entry args hooks.items result calls last
      -- The failure of a hook is reported as one of the function.
      ∧ outcome = (last.mapError (.errorHook entry.name), after)
      -- No other hooks are run than those.
      ∧ (hooks.map Hook.noted).combine Hook.chainIn result entry args [] = (last, calls)

section

variable (raw : RawCall) (entry : EntryPoint) (world : World)

theorem after_concat (steps : List Step) (last : Step) :
    after raw entry world (steps ++ [last]) = step raw (after raw entry world steps) last := by
  rw [after, List.foldl_append]
  rfl

/-- A step changes no more of a binding than what is attached. -/
theorem binding_after (steps : List Step) :
    (after raw entry world steps).1
      = ⟨entry, (inForce steps.reverse).map (·.combine Hook.chain)⟩ := by
  induction steps using List.reverseRecOn with
  | nil => rfl
  | append_singleton steps last ih =>
    rw [after_concat, List.reverse_append]
    cases last with
    | attach hooks => exact congrArg (Binding.attach · (hooks.combine Hook.chain)) ih
    | detach => exact congrArg Binding.detach ih
    | invoke args => exact ih

theorem checked_invoke (slot : Option (Composed Hook)) (args : List Value) :
    Checked raw entry slot args world
      (invoke raw ⟨entry, slot.map (·.combine Hook.chain)⟩ args world) := by
  unfold Checked
  rw [invoke_eq_call, sequence_run]
  cases called : entry.call raw args world with
  | mk outcome after =>
    cases outcome with
    | error failure => rfl
    | ok result =>
      cases slot with
      | none => rfl
      | some hooks =>
        obtain ⟨calls, last, passes⟩ := Hook.exists_passes entry args hooks.items result
        have chained : hooks.combine Hook.chain result entry args = last := by
          rw [Hook.chain_eq_chainIn]
          exact (Hook.combine_chainIn hooks result entry args).trans passes.foldlM
        have noted : (hooks.map Hook.noted).combine Hook.chainIn result entry args []
            = (last, calls) := by
          rw [Hook.combine_chainIn, Composed.items_map]
          exact passes.foldlM_noted []
        refine ⟨calls, last, passes, ?_, noted⟩
        show (checkResult ⟨entry, some (hooks.combine Hook.chain)⟩ result args, after) = _
        unfold checkResult
        dsimp only
        rw [chained]
        cases last <;> rfl

/-- After any steps, a call gives the result of the function, passed through the hooks that are in
force. -/
theorem invoke_after (steps : List Step) (args : List Value) :
    let (binding, now) := after raw entry world steps
    Checked raw entry (inForce steps.reverse) args now (binding.invoke raw args now) := by
  have attached := binding_after raw entry world steps
  generalize after raw entry world steps = state at attached ⊢
  obtain ⟨binding, now⟩ := state
  obtain rfl : binding = _ := attached
  exact checked_invoke raw entry now (inForce steps.reverse) args

end

end Binding

end CInterop
