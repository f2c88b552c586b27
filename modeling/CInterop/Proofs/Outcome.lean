import Mathlib.Data.List.Forall2
import CInterop.Failure

/-!
# Computations that succeed

A computation in steps succeeds when every step does: `bind_eq_ok` peels off the first step, and
`mapM_eq_ok` says so of a step for each item of a list; `sequence_eq_ok` is `bind_eq_ok` for
computations that also change a state. `Ends` says what a computation that may fail ends with, and
`StaysInside` holds of one that does not fail for leaving the bounds of a block. `Overflows` holds
of one that ended at a sum or product that is no word.
-/

namespace CInterop

theorem bind_eq_ok {ε α β : Type} {first : Except ε α} {next : α → Except ε β} {result : β} :
    (first >>= next) = .ok result ↔ ∃ a, first = .ok a ∧ next a = .ok result := by
  cases first with
  | error failure => simp [bind, Except.bind]
  | ok a => simp [bind, Except.bind]

theorem toOption_eq_some {ε α : Type} {outcome : Except ε α} {result : α} :
    outcome.toOption = some result ↔ outcome = .ok result := by
  cases outcome <;> simp [Except.toOption]

theorem mapM_eq_ok {ε α β : Type} {step : α → Except ε β} {items : List α} {results : List β} :
    items.mapM step = .ok results ↔ List.Forall₂ (fun a b => step a = .ok b) items results := by
  induction items generalizing results with
  | nil =>
    rw [List.mapM_nil, List.forall₂_nil_left_iff]
    exact ⟨fun same => by cases same; rfl, fun same => same ▸ rfl⟩
  | cons item rest ih =>
    rw [List.mapM_cons, bind_eq_ok, List.forall₂_cons_left_iff]
    constructor
    · rintro ⟨b, first, others⟩
      obtain ⟨bs, tail, same⟩ := bind_eq_ok.mp others
      cases same
      exact ⟨b, bs, first, ih.mp tail, rfl⟩
    · rintro ⟨b, bs, first, others, rfl⟩
      exact ⟨b, first, bind_eq_ok.mpr ⟨bs, ih.mpr others, rfl⟩⟩

/-- Where each item of a list has a counterpart that equals it under a condition, all counterparts
equal their items exactly if all conditions hold. -/
theorem exists_counterparts {α β : Type} {first second : α → β → Prop} {condition : α → Prop}
    {items : List α} {results : List β} (pairs : List.Forall₂ first items results)
    (counterpart : ∀ item ∈ items, ∀ result, first item result →
      ∃ other, second item other ∧ (other = result ↔ condition item)) :
    ∃ others, List.Forall₂ second items others
      ∧ (others = results ↔ ∀ item ∈ items, condition item) := by
  induction pairs with
  | nil => exact ⟨[], .nil, by simp⟩
  | @cons item result items results pair _ ih =>
    obtain ⟨own, rest⟩ := List.forall_mem_cons.mp counterpart
    obtain ⟨other, found, same⟩ := own result pair
    obtain ⟨others, all_found, all_same⟩ := ih rest
    refine ⟨other :: others, .cons found all_found, ?_⟩
    rw [List.cons.injEq, same, all_same, List.forall_mem_cons]

theorem mapM_congr {ε α β : Type} {step other : α → Except ε β} {items : List α}
    (same : ∀ item ∈ items, step item = other item) : items.mapM step = items.mapM other := by
  induction items with
  | nil => rfl
  | cons item rest ih =>
    obtain ⟨first, others⟩ := List.forall_mem_cons.mp same
    rw [List.mapM_cons, List.mapM_cons, first, ih others]

theorem exists_of_mem_mapM {ε α β : Type} {step : α → Except ε β} {items : List α}
    {results : List β} (ran : items.mapM step = .ok results) {b : β} (found : b ∈ results) :
    ∃ a ∈ items, step a = .ok b := by
  replace ran := mapM_eq_ok.mp ran
  induction ran with
  | nil => cases found
  | cons first _ ih =>
    rcases List.mem_cons.mp found with rfl | later
    · exact ⟨_, List.mem_cons_self, first⟩
    · obtain ⟨a, mem, own⟩ := ih later
      exact ⟨a, List.mem_cons_of_mem _ mem, own⟩

theorem refuse_eq_ok {ε α β : Type} {refused : Prop} [Decidable refused] {failure : ε}
    {next : α → Except ε β} {rest : Except ε β} {result : β} :
    (if refused then throw failure >>= next else rest) = .ok result
      ↔ ¬refused ∧ rest = .ok result := by
  by_cases held : refused
  · rw [if_pos held]
    exact iff_of_false (fun failed => nomatch failed) fun free => free.1 held
  · rw [if_neg held, and_iff_right held]

theorem forIn_eq_ok {ε α β : Type} {step : α → Except ε β} {items : List α} {result : PUnit} :
    (forIn items PUnit.unit fun item _ => do
      let _ ← step item
      pure (ForInStep.yield PUnit.unit)) = .ok result ↔ ∀ item ∈ items, ∃ b, step item = .ok b := by
  induction items with
  | nil => exact ⟨fun _ => List.forall_mem_nil _, fun _ => rfl⟩
  | cons item rest ih =>
    rw [List.forIn_cons, List.forall_mem_cons, bind_eq_ok]
    constructor
    · rintro ⟨next, first, others⟩
      obtain ⟨b, ran, same⟩ := bind_eq_ok.mp first
      cases same
      exact ⟨⟨b, ran⟩, ih.mp others⟩
    · rintro ⟨⟨b, ran⟩, others⟩
      exact ⟨_, bind_eq_ok.mpr ⟨b, ran, rfl⟩, ih.mpr others⟩

/-! ## Overflows -/

/-- A computation ended where a sum or product is no word. -/
def Overflows {α : Type} (outcome : Except Failure α) : Prop :=
  ∃ operation, outcome = .error (.overflow operation)

theorem Overflows.bind {α β : Type} {first : Except Failure α} (overflows : Overflows first)
    (next : α → Except Failure β) : Overflows (first >>= next) := by
  obtain ⟨operation, rfl⟩ := overflows
  exact ⟨operation, rfl⟩

theorem not_overflows_ok {α : Type} (a : α) : ¬ Overflows (.ok a : Except Failure α) :=
  fun ⟨_, same⟩ => nomatch same

/-! ## How computations end -/

/-- A computation has a result with one property, or fails for a reason with another. -/
def Ends {ε α : Type} (outcome : Except ε α) (well : α → Prop) (ill : ε → Prop) : Prop :=
  match outcome with
  | .ok a => well a
  | .error failure => ill failure

namespace Ends

variable {ε α β : Type} {outcome : Except ε α} {well : α → Prop} {ill other : ε → Prop}

theorem mono_error (ends : Ends outcome well ill)
    (weaker : ∀ failure, ill failure → other failure) : Ends outcome well other := by
  cases outcome with
  | ok a => exact ends
  | error failure => exact weaker failure ends

theorem mono_ok {weak : α → Prop} (ends : Ends outcome well ill)
    (weaker : ∀ a, well a → weak a) : Ends outcome weak ill := by
  cases outcome with
  | ok a => exact weaker a ends
  | error failure => exact ends

theorem bind {next : α → Except ε β} {after : β → Prop} (first : Ends outcome well ill)
    (rest : ∀ a, well a → Ends (next a) after ill) : Ends (outcome >>= next) after ill := by
  cases outcome with
  | ok a => exact rest a first
  | error failure => exact first

theorem mapM {step : α → Except ε β} {items : List α}
    (each : ∀ item ∈ items, Ends (step item) (fun _ => True) ill) :
    Ends (items.mapM step) (fun _ => True) ill := by
  induction items with
  | nil => exact trivial
  | cons item rest ih =>
    obtain ⟨first, others⟩ := List.forall_mem_cons.mp each
    rw [List.mapM_cons]
    exact first.bind fun _ _ => (ih others).bind fun _ _ => trivial

end Ends

/-! ## Computations with a state -/

section

variable {ε σ α β : Type} {first : ExceptT ε (StateM σ) α} {next : α → ExceptT ε (StateM σ) β}
  {state after : σ}

theorem sequence_run (first : ExceptT ε (StateM σ) α) (next : α → ExceptT ε (StateM σ) β)
    (state : σ) :
    (first >>= next) state =
      match first state with
      | (.ok a, middle) => next a middle
      | (.error failure, middle) => (.error failure, middle) := by
  show ExceptT.bindCont next (first state).1 (first state).2 = _
  rcases first state with ⟨_ | a, middle⟩ <;> rfl

theorem sequence_eq_ok {result : β} :
    (first >>= next) state = (.ok result, after) ↔
      ∃ a middle, first state = (.ok a, middle) ∧ next a middle = (.ok result, after) := by
  rw [sequence_run]
  rcases first state with ⟨failure | a, middle⟩
  · constructor
    · intro failed
      cases failed
    · rintro ⟨_, _, failed, _⟩
      cases failed
  · constructor
    · exact fun rest => ⟨a, middle, rfl, rest⟩
    · rintro ⟨_, _, same, rest⟩
      cases same
      exact rest

end

/-! ## Bounds -/

/-- A failure for leaving the bounds of a block. -/
def Failure.LeavesBounds (failure : Failure) : Prop :=
  ∃ operation offset length size, failure = .outOfBounds operation offset length size

/-- A computation that does not fail for leaving the bounds of a block. -/
def StaysInside {α : Type} (outcome : Except Failure α) : Prop :=
  ∀ operation offset length size,
    outcome ≠ .error (.outOfBounds operation offset length size)

namespace StaysInside

variable {α β : Type}

theorem ok (a : α) : StaysInside (.ok a : Except Failure α) := by
  intro operation offset length size failed
  cases failed

theorem overflow (operation : String) :
    StaysInside (.error (.overflow operation) : Except Failure α) := by
  intro _ _ _ _ failed
  cases failed

theorem bind {first : Except Failure α} {next : α → Except Failure β} (inside : StaysInside first)
    (rest : ∀ a, first = .ok a → StaysInside (next a)) : StaysInside (first >>= next) := by
  cases first with
  | ok a => exact rest a rfl
  | error failure =>
    intro operation offset length size failed
    cases failed
    exact inside _ _ _ _ rfl

theorem mapM {step : α → Except Failure β} {items : List α}
    (inside : ∀ item ∈ items, StaysInside (step item)) : StaysInside (items.mapM step) := by
  induction items with
  | nil => exact ok _
  | cons item rest ih =>
    rw [List.mapM_cons]
    refine bind (inside item List.mem_cons_self) fun _ _ => ?_
    refine bind (ih fun other later => inside other (List.mem_cons_of_mem _ later)) fun _ _ => ?_
    exact ok _

/-- A computation that could fail in no other way has a result. -/
theorem exists_ok {outcome : Except Failure α} (inside : StaysInside outcome)
    (ends : Ends outcome (fun _ => True) Failure.LeavesBounds) : ∃ a, outcome = .ok a := by
  cases outcome with
  | ok a => exact ⟨a, rfl⟩
  | error failure =>
    obtain ⟨operation, offset, length, size, rfl⟩ := ends
    exact absurd rfl (inside operation offset length size)

end StaysInside

end CInterop
