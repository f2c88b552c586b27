import CInterop.Call.Binding
import CInterop.Proofs.Instance.Bounds
import CInterop.Proofs.View.Confined
import CInterop.Proofs.View.Storing
import CInterop.Proofs.View.Together

/-!
# Slots of arguments

Whether an argument can be written to a slot is a matter of its type and its value alone
(`Frame.push_iff`), and writing it, successfully or not, changes nothing but free memory
(`Frame.touches_push`). So the arguments of a call are written one after another without getting in
each other's way (`Binding.marshal_cases`).
-/

namespace CInterop

open HeapM

variable {bits blocks : Nat → Prop} {type : CType} {value : Value}

/-! ## Fresh instances -/

namespace Instance

theorem together_create (type : CType) :
    Together (fun x y => (x.type = type ∧ y.type = type) ∧ x.offset = y.offset
      ∧ x.block.length = y.block.length) (create type) (create type) := by
  unfold create
  split
  case isTrue => exact together_throw _ _
  case isFalse =>
    refine (Heap.together_allocate _).bind fun block other sizes => together_pure ?_
    exact ⟨⟨rfl, rfl⟩, rfl, sizes.1.trans sizes.2.symm⟩

theorem together_ofValue (type : CType) (value : Value) :
    Together (fun x y => x.type = type ∧ y.type = type) (ofValue type value)
      (ofValue type value) := by
  refine (together_create type).bind fun x y ⟨types, offset, length⟩ => ?_
  refine (together_setValue (types.1.trans types.2.symm) offset length value).bind fun _ _ _ => ?_
  exact together_pure types

/-- What is stored in an instance lies in its block, or right behind it. -/
theorem touches_setValue (x : Instance) (value : Value) :
    Touches (fun i => 8 * x.block.base ≤ i ∧ i < 8 * (x.block.base + x.block.length + Heap.gap))
      (· = x.block.id) (x.setValue value) := by
  intro heap
  unfold setValue
  rw [bind_run, lift_run]
  cases viewed : x.view with
  | error failure => exact .refl heap
  | ok view =>
    obtain ⟨rfl, inside⟩ := view_eq_ok viewed
    refine (View.touches_write _ _ _ _ heap).mono ?_ fun _ same => same
    unfold Inside at inside
    unfold View.window View.place Heap.gap
    dsimp only
    omega

theorem touches_ofValue (type : CType) (value : Value) :
    Touches bits blocks (ofValue type value) := by
  unfold ofValue create
  split
  case isTrue => exact touches_of_quiet (quiet_throw _)
  case isFalse =>
    rw [bind_assoc]
    refine Heap.touches_fresh fun block length => ?_
    rw [pure_bind, ← length]
    exact (touches_setValue ⟨type, block, 0⟩ value).bind fun _ => touches_of_quiet (quiet_pure _)

end Instance

/-! ## One argument -/

namespace Frame

variable {frame pushed : Frame} {function : String} {position : Nat} {heap after : Heap}

theorem blame_run (action : HeapM Unit) : blame function position action heap
    = ((action heap).1.mapError (·.atArgument function position), (action heap).2) := by
  unfold blame
  rcases action heap with ⟨_ | _, _⟩ <;> rfl

theorem blame_of_ok {action : HeapM Unit} (ran : action heap = (.ok (), after)) :
    blame function position action heap = (.ok (), after) := by
  rw [blame_run, ran]
  rfl

theorem together_blame {action action' : HeapM Unit} (function function' : String)
    (position position' : Nat) (own : Together Unrelated action action') :
    Together Unrelated (blame function position action) (blame function' position' action') := by
  intro heap heap'
  rw [blame_run, blame_run]
  exact (own heap heap').mapError _ _

theorem touches_blame {action : HeapM Unit} (own : Touches bits blocks action) :
    Touches bits blocks (blame function position action) := by
  intro heap
  rw [blame_run]
  exact own heap

/-- What is written for one argument at different times: the value itself, or an array of its own
with the same items. -/
inductive Alike (type : CType) : Value → Value → Prop
  | itself (value : Value) : Alike type value value
  | arrays {element : CType} {count : Nat} {x y : Instance} (array : type = .array element count)
      (first : x.type = type) (second : y.type = type) : Alike type (.object x) (.object y)

theorem together_materialize (type : CType) (value : Value) :
    Together (Alike type) (materialize type value) (materialize type value) := by
  have fresh {element : CType} {count : Nat} (value : Value) :
      Together (Alike (.array element count))
        (do return .object (← Instance.ofValue (.array element count) value))
        (do return .object (← Instance.ofValue (.array element count) value)) :=
    (Instance.together_ofValue _ value).bind fun x y types =>
      together_pure (.arrays rfl types.1 types.2)
  unfold materialize
  split
  · exact fresh _
  · exact fresh _
  · exact together_pure (.itself value)

theorem touches_materialize (type : CType) (value : Value) :
    Touches bits blocks (materialize type value) := by
  unfold materialize
  split
  case h_1 | h_2 =>
    exact (Instance.touches_ofValue _ _).bind fun _ => touches_of_quiet (quiet_pure _)
  case h_3 => exact touches_of_quiet (quiet_pure _)

/-- An array is passed as its address. -/
theorem write_array {element : CType} {count : Nat} {x : Instance}
    (array : x.type = .array element count) (view : View) (target : Target) (width : Width) :
    view.write (.pointer target width) 0 (.object x)
      = view.writeScalar (.pointer target width) 0 (.object x) := by
  show view.writeWhole (.pointer target width) 0 (.object x) = _
  rw [View.writeWhole_object x rfl, array]
  rfl

theorem together_write_alike {view other : View} {value' : Value} (alike : Alike type value value')
    (same : view.length = other.length) :
    Together Unrelated (view.write (decayed type) 0 value)
      (other.write (decayed type) 0 value') := by
  cases alike with
  | itself => exact View.together_write same _ _ _
  | @arrays element count x y array first second =>
    -- The two arrays may lie anywhere: what is stored is their address, which always can be.
    subst array
    obtain ⟨target, pointer⟩ := CType.pointerTo_eq .host element
    rw [decayed, pointer, write_array first, write_array second]
    exact View.together_writePointer same _ _ (together_pure trivial)

/-- An argument that can be written to a slot in some call can be written in any. -/
theorem together_push (frame frame' : Frame) (function function' : String)
    (position position' : Nat) (type : CType) (value : Value) :
    Together Unrelated (frame.push function position type value)
      (frame'.push function' position' type value) := by
  refine (Heap.together_allocate _).bind fun slot other sizes => ?_
  refine (together_materialize type value).bind fun _ _ alike => ?_
  refine (together_blame _ _ _ _ (together_write_alike alike ?_)).bind fun _ _ _ => ?_
  · exact sizes.1.trans sizes.2.symm
  · exact together_pure trivial

/-- What is written to a slot lies in it, or is free memory. -/
theorem touches_slot (frame : Frame) (function : String) (position : Nat) (type : CType)
    (value : Value) (slot : Block) :
    Touches (fun i => 8 * slot.base ≤ i ∧ i < 8 * (slot.base + slot.length + Heap.gap))
      (· = slot.id) (do
        let value ← materialize type value
        blame function position (slot.view.write (decayed type) 0 value)
        pure (frame ++ [slot])) := by
  refine (touches_materialize type value).bind fun value => ?_
  refine (touches_blame fun heap => ?_).bind fun _ => touches_of_quiet (quiet_pure _)
  refine (slot.view.touches_write _ _ _ heap).mono ?_ fun _ same => same
  unfold View.window View.place Block.view Heap.gap
  dsimp only
  omega

/-- Writing an argument changes nothing but free memory. -/
theorem touches_push (frame : Frame) (function : String) (position : Nat) (type : CType)
    (value : Value) : Touches bits blocks (frame.push function position type value) :=
  Heap.touches_fresh fun slot length =>
    length ▸ touches_slot frame function position type value slot

/-- A value can be passed as a type: it can be written to a slot of a call. -/
def Marshals (type : CType) (value : Value) : Prop :=
  ∃ heap pushed after, Frame.push [] "" 0 type value heap = (.ok pushed, after)

theorem push_iff (frame : Frame) (function : String) (position : Nat) (type : CType)
    (value : Value) (heap : Heap) :
    (∃ pushed, (frame.push function position type value heap).1 = .ok pushed)
      ↔ Marshals type value := by
  have together := together_push frame [] function "" position 0 type value heap
  constructor
  · intro ok
    obtain ⟨pushed, ran⟩ := (together heap).isOk_iff.mp ok
    exact ⟨heap, pushed, _, Prod.ext ran rfl⟩
  · rintro ⟨before, pushed, after, ran⟩
    exact (together before).isOk_iff.mpr ⟨pushed, congrArg Prod.fst ran⟩

/-- The slot of an argument is put behind those that are there, in memory that was free. -/
theorem push_append (ran : frame.push function position type value heap = (.ok pushed, after)) :
    ∃ slot, pushed = frame ++ [slot] ∧ slot.base + slot.length ≤ after.frontier
      ∧ Frame.push [] function position type value heap = (.ok [slot], after) := by
  obtain ⟨slot, fresh, allocated, rest⟩ := HeapM.bind_eq_ok.mp ran
  obtain ⟨given, middle, made, filled⟩ := HeapM.bind_eq_ok.mp rest
  obtain ⟨_, last, written, same⟩ := HeapM.bind_eq_ok.mp filled
  cases same
  refine ⟨slot, rfl, ?below, HeapM.bind_eq_ok.mpr ⟨slot, fresh, allocated,
    HeapM.bind_eq_ok.mpr ⟨given, middle, made, HeapM.bind_eq_ok.mpr ⟨(), _, written, rfl⟩⟩⟩⟩
  have room := Heap.room_of_allocate allocated
  have grown := ((touches_slot frame function position type value slot).changed rest).frontier
  rw [Heap.allocate_eq_ok allocated]
  dsimp only
  omega

end Frame

end CInterop
