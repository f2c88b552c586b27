import CInterop.Proofs.Heap.Run
import CInterop.View.Write

/-!
# Failing together

`HeapM.Together` says of two operations that they fail on the same grounds, whatever heaps they
find: on any two heaps, either both fail or both give results that are related. An operation that is
together with itself succeeds on every heap if it does on one.
-/

namespace CInterop

/-- Two outcomes that are both failures, or both results that are related. -/
inductive Agree {α β : Type} (related : α → β → Prop) : Except Failure α → Except Failure β → Prop
  | results {a : α} {b : β} (held : related a b) : Agree related (.ok a) (.ok b)
  | failures (failure other : Failure) : Agree related (.error failure) (.error other)

/-- Results that need not have anything in common. -/
def Unrelated {α β : Type} (_ : α) (_ : β) : Prop := True

namespace Agree

variable {α β γ δ : Type} {related : α → β → Prop} {outcome : Except Failure α}
  {other : Except Failure β}

theorem isOk_iff (agree : Agree related outcome other) :
    (∃ a, outcome = .ok a) ↔ ∃ b, other = .ok b := by
  cases agree with
  | results => simp
  | failures => simp

theorem refl (outcome : Except Failure α) : Agree Unrelated outcome outcome := by
  cases outcome with
  | ok a => exact .results trivial
  | error failure => exact .failures failure failure

theorem mapError (agree : Agree related outcome other) (change change' : Failure → Failure) :
    Agree related (outcome.mapError change) (other.mapError change') := by
  cases agree with
  | results held => exact .results held
  | failures failure other => exact .failures _ _

theorem held {a : α} {b : β} (agree : Agree related (.ok a) (.ok b)) : related a b := by
  cases agree with
  | results held => exact held

theorem bind_eq {next : α → Except Failure γ} {next' : β → Except Failure δ}
    {ending : γ → δ → Prop} (own : Agree related outcome other)
    (rest : ∀ a b, outcome = .ok a → other = .ok b → related a b →
      Agree ending (next a) (next' b)) :
    Agree ending (outcome >>= next) (other >>= next') := by
  cases own with
  | results held => exact rest _ _ rfl rfl held
  | failures failure other => exact .failures failure other

theorem bind {next : α → Except Failure γ} {next' : β → Except Failure δ}
    {ending : γ → δ → Prop} (own : Agree related outcome other)
    (rest : ∀ a b, related a b → Agree ending (next a) (next' b)) :
    Agree ending (outcome >>= next) (other >>= next') :=
  own.bind_eq fun a b _ _ => rest a b

end Agree

namespace HeapM

variable {α β γ δ : Type} {related : α → β → Prop}

/-- Two operations that fail on the same grounds, whatever heaps they find. -/
def Together (related : α → β → Prop) (operation : HeapM α) (other : HeapM β) : Prop :=
  ∀ heap heap', Agree related (operation heap).1 (other heap').1

theorem together_pure {a : α} {b : β} (held : related a b) :
    Together related (pure a) (pure b) := fun _ _ => .results held

theorem together_throw (failure other : Failure) :
    Together related (throw failure) (throw other) := fun _ _ => .failures failure other

theorem together_get : Together Unrelated (get : HeapM Heap) get := fun _ _ => .results trivial

theorem together_lift {outcome : Except Failure α} {other : Except Failure β}
    (agree : Agree related outcome other) : Together related (liftM outcome) (liftM other) :=
  fun _ _ => agree

theorem together_of_total {operation : HeapM α} {other : HeapM β} (total : Total operation)
    (others : Total other) : Together Unrelated operation other := by
  intro heap heap'
  obtain ⟨a, after, ran⟩ := total heap
  obtain ⟨b, after', ran'⟩ := others heap'
  rw [ran, ran']
  exact .results trivial

theorem Together.bind {first : HeapM α} {first' : HeapM β} {next : α → HeapM γ}
    {next' : β → HeapM δ} {ending : γ → δ → Prop} (own : Together related first first')
    (rest : ∀ a b, related a b → Together ending (next a) (next' b)) :
    Together ending (first >>= next) (first' >>= next') := by
  intro heap heap'
  have agree := own heap heap'
  rw [bind_run, bind_run]
  rcases ran : first heap with ⟨outcome, middle⟩
  rcases ran' : first' heap' with ⟨outcome', middle'⟩
  rw [ran, ran'] at agree
  cases agree with
  | results held => exact rest _ _ held middle middle'
  | failures failure other => exact .failures failure other

end HeapM

namespace Heap

open HeapM

theorem together_allocate (length : Nat) :
    Together (fun block other => block.length = length ∧ other.length = length) (allocate length)
      (allocate length) := by
  intro heap heap'
  by_cases fits : length ≤ largestBlock
  · rw [allocate_run heap fits, allocate_run heap' fits]
    exact .results ⟨rfl, rfl⟩
  · unfold allocate
    rw [if_pos (Nat.not_le.mp fits)]
    exact .failures _ _

theorem together_storeText (text : String) :
    Together Unrelated (storeText text) (storeText text) := by
  unfold storeText
  dsimp only
  split
  · exact together_throw _ _
  · have stored : ∀ change address kept, Total (onMemory change >>= fun _ =>
        (pure (address, kept) : HeapM (UInt64 × Kept))) :=
      fun change _ _ => (total_onMemory change).bind fun _ => total_pure _
    exact together_of_total ((total_modifyGet _).bind fun _ => stored _ _ _)
      ((total_modifyGet _).bind fun _ => stored _ _ _)

theorem together_storeWide (unit : Nat) (text : String) :
    Together Unrelated (storeWide unit text) (storeWide unit text) := by
  refine (together_allocate _).bind fun block other _ => ?_
  exact together_of_total ((total_onMemory _).bind fun _ => total_pure _)
    ((total_onMemory _).bind fun _ => total_pure _)

/-- Whether a value has an address is a matter of its kind and of its text. -/
theorem together_addressFor (type : CType) (target : Target) (value : Value) :
    Together Unrelated (addressFor type target value) (addressFor type target value) := by
  unfold addressFor
  split
  case h_2 =>
    split
    · exact together_pure trivial
    · exact together_throw _ _
  case h_4 p =>
    cases p.address with
    | error failure => exact together_throw _ _
    | ok address => exact together_pure trivial
  case h_6 text =>
    split
    · exact (together_storeText text).bind fun _ _ _ => together_pure trivial
    · exact (together_storeText text).bind fun _ _ _ => together_pure trivial
    · exact (together_storeWide _ text).bind fun _ _ _ => together_pure trivial
    · exact together_throw _ _
  case h_7 => exact together_throw _ _
  all_goals exact together_pure trivial

end Heap

end CInterop
