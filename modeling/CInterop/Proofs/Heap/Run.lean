import CInterop.Heap
import CInterop.Proofs.Outcome

/-!
# Runs of heap operations

`operation heap` is the outcome of an operation together with the heap that it leaves. A sequence
succeeds when its first part does and the rest does on the heap that this leaves.
-/

namespace CInterop.HeapM

variable {α β : Type} {heap after : Heap}

@[simp] theorem pure_run (a : α) : (pure a : HeapM α) heap = (.ok a, heap) := rfl

@[simp] theorem lift_run (outcome : Except Failure α) :
    (liftM outcome : HeapM α) heap = (outcome, heap) := rfl

theorem lift_eq_ok {outcome : Except Failure α} {a : α} :
    (liftM outcome : HeapM α) heap = (.ok a, after) ↔ outcome = .ok a ∧ heap = after := by
  rw [lift_run, Prod.mk.injEq]

@[simp] theorem get_run : (get : HeapM Heap) heap = (.ok heap, heap) := rfl

theorem bind_run (first : HeapM α) (next : α → HeapM β) :
    (first >>= next) heap =
      match first heap with
      | (.ok a, middle) => next a middle
      | (.error failure, middle) => (.error failure, middle) := by
  rw [sequence_run]
  rcases first heap with ⟨_ | a, middle⟩ <;> rfl

theorem bind_eq_ok {first : HeapM α} {next : α → HeapM β} {result : β} :
    (first >>= next) heap = (.ok result, after) ↔
      ∃ a middle, first heap = (.ok a, middle) ∧ next a middle = (.ok result, after) :=
  sequence_eq_ok

theorem bind_of_ok {first : HeapM α} {next : α → HeapM β} {a : α} {middle : Heap}
    (ran : first heap = (.ok a, middle)) : (first >>= next) heap = next a middle := by
  rw [bind_run, ran]

/-! ## All or nothing -/

/-- An operation that changes nothing when it fails. -/
def Atomic (operation : HeapM α) : Prop :=
  ∀ ⦃heap failure after⦄, operation heap = (.error failure, after) → after = heap

/-- An operation that never changes anything. -/
def Quiet (operation : HeapM α) : Prop := ∀ heap, (operation heap).2 = heap

/-- An operation that never fails. -/
def Total (operation : HeapM α) : Prop := ∀ heap, ∃ a after, operation heap = (.ok a, after)

theorem quiet_lift (outcome : Except Failure α) : Quiet (liftM outcome : HeapM α) := fun _ => rfl

theorem quiet_get : Quiet (get : HeapM Heap) := fun _ => rfl

theorem quiet_throw (failure : Failure) : Quiet (throw failure : HeapM α) := fun _ => rfl

theorem quiet_pure (a : α) : Quiet (pure a : HeapM α) := fun _ => rfl

theorem total_modify (change : Heap → Heap) : Total (modify change : HeapM Unit) :=
  fun _ => ⟨_, _, rfl⟩

theorem total_modifyGet (change : Heap → α × Heap) : Total (modifyGet change : HeapM α) :=
  fun _ => ⟨_, _, rfl⟩

theorem total_onMemory (change : Memory → Memory) : Total (Heap.onMemory change) :=
  fun _ => ⟨_, _, rfl⟩

theorem total_pure (a : α) : Total (pure a : HeapM α) := fun _ => ⟨_, _, rfl⟩

theorem Total.bind {first : HeapM α} {next : α → HeapM β} (total : Total first)
    (rest : ∀ a, Total (next a)) : Total (first >>= next) := by
  intro heap
  obtain ⟨a, middle, ran⟩ := total heap
  rw [bind_of_ok ran]
  exact rest a middle

theorem Quiet.atomic {operation : HeapM α} (quiet : Quiet operation) : Atomic operation := by
  intro heap failure after failed
  have unchanged := quiet heap
  rw [failed] at unchanged
  exact unchanged

theorem Total.atomic {operation : HeapM α} (total : Total operation) : Atomic operation := by
  intro heap failure after failed
  obtain ⟨a, after, ran⟩ := total heap
  rw [ran] at failed
  cases failed

theorem Quiet.bind {first : HeapM α} {next : α → HeapM β} (quiet : Quiet first)
    (rest : ∀ a, Quiet (next a)) : Quiet (first >>= next) := by
  intro heap
  have unchanged := quiet heap
  rw [bind_run]
  cases ran : first heap with
  | mk outcome middle =>
    rw [ran] at unchanged
    cases outcome with
    | error _ => exact unchanged
    | ok a => exact (rest a middle).trans unchanged

/-- What goes first only looks, so that the rest starts on the heap that was there. -/
theorem Quiet.bind_atomic {first : HeapM α} {next : α → HeapM β} (quiet : Quiet first)
    (rest : ∀ a, Atomic (next a)) : Atomic (first >>= next) := by
  intro heap failure after failed
  have unchanged := quiet heap
  rw [bind_run] at failed
  cases ran : first heap with
  | mk outcome middle =>
    rw [ran] at failed unchanged
    subst unchanged
    cases outcome with
    | error _ =>
      cases failed
      rfl
    | ok a => exact rest a failed

/-- Only what goes first can fail. -/
theorem error_of_bind_total {first : HeapM α} {next : α → HeapM β} {failure : Failure}
    (rest : ∀ a, Total (next a)) (failed : (first >>= next) heap = (.error failure, after)) :
    first heap = (.error failure, after) := by
  rw [bind_run] at failed
  cases ran : first heap with
  | mk outcome middle =>
    rw [ran] at failed
    cases outcome with
    | error _ =>
      cases failed
      rfl
    | ok a =>
      obtain ⟨_, _, succeeded⟩ := rest a middle
      cases succeeded.symm.trans failed

theorem Atomic.bind_total {first : HeapM α} {next : α → HeapM β} (atomic : Atomic first)
    (rest : ∀ a, Total (next a)) : Atomic (first >>= next) :=
  fun _ _ _ failed => atomic (error_of_bind_total rest failed)

/-! ## Leaving alone what is kept -/

/-- An operation that leaves what the blocks keep as it is. -/
def Neutral (operation : HeapM α) : Prop := ∀ heap, (operation heap).2.kept = heap.kept

theorem Quiet.neutral {operation : HeapM α} (quiet : Quiet operation) : Neutral operation :=
  fun heap => congrArg Heap.kept (quiet heap)

theorem neutral_onMemory (change : Memory → Memory) : Neutral (Heap.onMemory change) :=
  fun _ => rfl

theorem Neutral.bind {first : HeapM α} {next : α → HeapM β} (neutral : Neutral first)
    (rest : ∀ a, Neutral (next a)) : Neutral (first >>= next) := by
  intro heap
  have kept := neutral heap
  rw [bind_run]
  cases ran : first heap with
  | mk outcome middle =>
    rw [ran] at kept
    cases outcome with
    | error _ => exact kept
    | ok a => exact (rest a middle).trans kept

theorem Neutral.kept {operation : HeapM α} (neutral : Neutral operation) {heap after : Heap} {a : α}
    (ran : operation heap = (.ok a, after)) : after.kept = heap.kept := by
  have kept := neutral heap
  rw [ran] at kept
  exact kept

/-! ## Leaving alone bytes too -/

/-- An operation that changes neither bytes nor what the blocks keep. -/
def Still (operation : HeapM α) : Prop :=
  ∀ heap, (operation heap).2.memory = heap.memory ∧ (operation heap).2.kept = heap.kept

theorem Quiet.still {operation : HeapM α} (quiet : Quiet operation) : Still operation :=
  fun heap => ⟨congrArg Heap.memory (quiet heap), congrArg Heap.kept (quiet heap)⟩

theorem Still.bind {first : HeapM α} {next : α → HeapM β} (still : Still first)
    (rest : ∀ a, Still (next a)) : Still (first >>= next) := by
  intro heap
  obtain ⟨memory, kept⟩ := still heap
  rw [bind_run]
  cases ran : first heap with
  | mk outcome middle =>
    rw [ran] at memory kept
    cases outcome with
    | error _ => exact ⟨memory, kept⟩
    | ok a => exact ⟨(rest a middle).1.trans memory, (rest a middle).2.trans kept⟩

end CInterop.HeapM

namespace CInterop.Heap

theorem allocate_eq_ok {length : Nat} {block : Block} {heap after : Heap}
    (allocated : allocate length heap = (.ok block, after)) :
    block = { id := heap.nextId, base := heap.frontier, length, native := false } := by
  unfold allocate at allocated
  split at allocated
  · cases allocated
  · cases allocated
    rfl

/-- Fresh memory lies before the new frontier. -/
theorem frontier_reserve (length : Nat) (heap : Heap) :
    heap.frontier + length < (reserve length heap).2.frontier := by
  have rounded : length ≤ (length + alignment - 1) / alignment * alignment := by
    unfold alignment
    omega
  have positive : 0 < gap := by decide
  show heap.frontier + length < heap.frontier + _ * alignment + gap
  omega

theorem allocate_run {length : Nat} (heap : Heap) (fits : length ≤ largestBlock) :
    allocate length heap
      = (.ok { id := heap.nextId, base := heap.frontier, length, native := false },
        { (reserve length heap).2 with nextId := heap.nextId + 1 }) := by
  unfold allocate
  rw [if_neg (Nat.not_lt.mpr fits)]
  rfl

theorem le_of_allocate_eq_ok {length : Nat} {block : Block} {heap after : Heap}
    (allocated : allocate length heap = (.ok block, after)) : length ≤ largestBlock := by
  unfold allocate at allocated
  split at allocated
  · cases allocated
  · omega

end CInterop.Heap
