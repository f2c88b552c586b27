import CInterop.Proofs.Call.Decoding
import CInterop.Proofs.Call.Slots

/-!
# Faults of arguments

What an argument does to memory is `Frame.store`: the steps of `Frame.push` with failures as memory
reports them. `push` does the same and reports a failure as a fault of the argument, with one
exception (`Frame.push_run`): lists and texts that are passed for an array are stored in an array of
their own first, and a failure there keeps its own name. A refused argument leaves the slots before
it as they are (`Frame.push_blames_iff`).
-/

namespace CInterop

open HeapM

namespace Failure

/-- What a write reports of a value that cannot be stored as the type, as a whole or in a part. -/
def Unstorable : Failure → Prop
  | typeMismatch .. | invalidString .. => True
  | _ => False

variable {function : String} {position : Nat} {failure : Failure}

theorem atArgument_of_unstorable (unstorable : failure.Unstorable) : ∃ expected found,
    failure.atArgument function position = .argumentType function position expected found := by
  cases failure with
  | typeMismatch _ expected found => exact ⟨expected, found, rfl⟩
  | invalidString fault => exact ⟨_, fault.reason, rfl⟩
  | _ => cases unstorable

theorem atArgument_of_storable (storable : ¬failure.Unstorable) :
    failure.atArgument function position = failure := by
  cases failure with
  | typeMismatch | invalidString => exact absurd trivial storable
  | _ => rfl

end Failure

namespace Frame

/-- Whether a value is stored in an array of its own before it is passed. -/
def materializes (type : CType) (value : Value) : Bool :=
  match type, value with
  | .array .., .list _ | .array .., .text _ => true
  | _, _ => false

/-- Writes an argument to a fresh slot, and blames nobody. -/
def store (type : CType) (value : Value) : HeapM Block := do
  let slot ← Heap.allocate (max type.size slotSize)
  let value ← materialize type value
  slot.view.write (decayed type) 0 value
  pure slot

/-- How a failure of `store` is reported. -/
def reported (function : String) (position : Nat) (type : CType) (value : Value)
    (failure : Failure) : Failure :=
  if materializes type value then failure else failure.atArgument function position

variable {frame pushed : Frame} {function : String} {position : Nat} {type : CType} {value : Value}
  {heap after : Heap}

theorem materialize_of_direct (direct : materializes type value = false) :
    materialize type value = pure value := by
  cases type with
  | array =>
    cases value with
    | list | text => cases direct
    | _ => rfl
  | _ => rfl

theorem materialize_of_apart (apart : materializes type value = true) :
    (∃ element count, type = .array element count)
      ∧ materialize type value = do return .object (← Instance.ofValue type value) := by
  cases type with
  | array element count =>
    cases value with
    | list | text => exact ⟨⟨element, count, rfl⟩, rfl⟩
    | _ => cases apart
  | _ => cases apart

theorem storable_of_allocate {length : Nat} {failure : Failure}
    (failed : Heap.allocate length heap = (.error failure, after)) : ¬failure.Unstorable := by
  unfold Heap.allocate at failed
  split at failed
  · cases failed
    exact id
  · cases failed

/-- The address of an array always fits a slot. -/
theorem exists_write_array {element : CType} {count : Nat} {x : Instance} {slot : Block}
    (array : x.type = .array element count) (room : slotSize ≤ slot.length) (heap : Heap) :
    ∃ after, slot.view.write (decayed (.array element count)) 0 (.object x) heap
      = (.ok (), after) := by
  obtain ⟨target, pointer⟩ := CType.pointerTo_eq .host element
  have located : slot.view.locate "write" 0 slotSize = .ok _ :=
    View.locate_of_le (Nat.le_trans (Nat.le_of_eq (Nat.zero_add _)) room)
  rw [decayed, pointer, write_array array]
  exact ⟨_, HeapM.bind_eq_ok.mpr ⟨_, heap, HeapM.lift_eq_ok.mpr ⟨located, rfl⟩, rfl⟩⟩

/-- Pushing an argument is storing it, with failures reported in its name. -/
theorem push_run (frame : Frame) (function : String) (position : Nat) (type : CType)
    (value : Value) (heap : Heap) :
    frame.push function position type value heap
      = (((store type value heap).1.map (frame ++ [·])).mapError
          (reported function position type value), (store type value heap).2) := by
  unfold push store
  rw [bind_run, bind_run]
  rcases allocated : Heap.allocate (max type.size slotSize) heap with ⟨failure | slot, middle⟩
  · -- A slot that is too large is no fault of the argument.
    have own : failure.atArgument function position = failure :=
      Failure.atArgument_of_storable (storable_of_allocate allocated)
    simp [Except.map, Except.mapError, reported, own]
  dsimp only
  cases apart : materializes type value with
  | false =>
    rw [materialize_of_direct apart, pure_bind, pure_bind, bind_run, bind_run, blame_run]
    rcases slot.view.write (decayed type) 0 value middle with ⟨_ | _, last⟩ <;>
      simp [Except.map, Except.mapError, reported, apart]
  | true =>
    obtain ⟨⟨element, count, rfl⟩, own⟩ := materialize_of_apart apart
    rw [own, bind_assoc, bind_assoc, bind_run, bind_run]
    rcases made : Instance.ofValue (.array element count) value middle with ⟨_ | x, last⟩
    · simp [Except.map, Except.mapError, reported, apart]
    have opened := opened_of_allocate allocated
    have room : slotSize ≤ slot.length := opened.length ▸ Nat.le_max_right _ _
    obtain ⟨after, written⟩ := exists_write_array (Instance.ofValue_inside made).1 room last
    dsimp only
    rw [pure_bind, pure_bind, bind_of_ok (blame_of_ok written), bind_of_ok written]
    rfl

/-- An argument that is refused is the one that `store` refuses, and leaves the slots before it as
they are. If it cannot be stored as its type, then the failure names the function and the position,
unless it was to be stored in an array of its own. -/
theorem push_blames_iff {found : Failure}
    (failed : frame.push function position type value heap = (.error found, after)) :
    heap.Spares after ∧ ∃ failure, store type value heap = (.error failure, after)
      ∧ (failure.Unstorable →
        ((∃ expected got, found = .argumentType function position expected got)
          ↔ materializes type value = false))
      ∧ (materializes type value = false → found = failure.atArgument function position)
      ∧ (materializes type value = true → found = failure) := by
  refine ⟨((touches_push _ _ _ _ _).changed failed).spares, ?_⟩
  rw [push_run] at failed
  rcases ran : store type value heap with ⟨failure | slot, last⟩
  case ok =>
    rw [ran] at failed
    cases failed
  rw [ran] at failed
  cases failed
  refine ⟨failure, rfl, fun unstorable => ?_, fun direct => if_neg (by simp [direct]),
    fun apart => if_pos apart⟩
  unfold reported
  cases apart : materializes type value with
  | false => exact iff_of_true (Failure.atArgument_of_unstorable unstorable) rfl
  | true =>
    refine iff_of_false ?_ nofun
    rintro ⟨expected, got, same⟩
    rw [if_pos rfl] at same
    rw [same] at unstorable
    exact unstorable

/-- A text for a bit-field of a struct. -/
theorem push_blames_member :
    let type := CType.composite Layout.mixedLayout
    let value := Value.list [.uint 1, .text "x"]
    let found := Failure.argumentType "f" 2 "uint32" "string"
    let passed := push [] "f" 2 type value Heap.empty
    passed.1 = .error found ∧ Heap.empty.Spares passed.2
      ∧ ∃ failure, store type value Heap.empty = (.error failure, passed.2)
        ∧ failure.Unstorable ∧ found = failure.atArgument "f" 2 := by
  intro type value found passed
  have failed : passed = (.error found, passed.2) := rfl
  obtain ⟨spares, failure, ran, _, direct, _⟩ := push_blames_iff failed
  have same : failure = .typeMismatch "write" "uint32" "string" :=
    (Except.error.inj (congrArg Prod.fst ran)).symm
  subst same
  exact ⟨rfl, spares, _, ran, trivial, direct rfl⟩

/-- A text for an element of an array, which is stored in an array of its own first. -/
theorem array_unblamed :
    let type := CType.array (.natural "int32" .w32 true) 2
    (push [] "f" 1 type (.list [.text "x"]) Heap.empty).1
        = .error (.typeMismatch "write" "int32" "string")
      ∧ (store type (.list [.text "x"]) Heap.empty).1
        = .error (.typeMismatch "write" "int32" "string")
      ∧ ¬∃ expected got, (push [] "f" 1 type (.list [.text "x"]) Heap.empty).1
        = .error (.argumentType "f" 1 expected got) :=
  ⟨rfl, rfl, fun ⟨_, _, same⟩ => nomatch same⟩

end Frame

end CInterop
