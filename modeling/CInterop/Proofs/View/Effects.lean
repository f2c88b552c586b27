import CInterop.Instance
import CInterop.Proofs.Heap.Retention
import CInterop.Proofs.Heap.Run
import CInterop.Proofs.Outcome

/-!
# The effects of elementary stores

A store that fails changes nothing. Storing plain bytes leaves alone what the blocks keep; storing
in a pointer slot and copying an instance leave one note each.
-/

namespace CInterop

open HeapM

/-- Some bytes of a view. -/
def View.span (view : View) (offset length : Nat) : Span :=
  ⟨view.block, view.start + offset, length⟩

/-- The bytes of an instance. -/
def Instance.span (x : Instance) : Span := ⟨x.block, x.offset, x.type.size⟩

namespace Heap

/-- Taking memory for a block. -/
def takeBlock (length : Nat) : HeapM Block := do
  let base ← modifyGet (reserve length)
  modifyGet fun heap =>
    ({ id := heap.nextId, base, length, native := false }, { heap with nextId := heap.nextId + 1 })

theorem total_takeBlock (length : Nat) : Total (takeBlock length) :=
  (total_modifyGet _).bind fun _ => total_modifyGet _

theorem neutral_takeBlock (length : Nat) : Neutral (takeBlock length) := fun _ => rfl

theorem atomic_allocate (length : Nat) : Atomic (allocate length) := by
  unfold allocate
  split
  · exact (quiet_throw _).bind_atomic fun _ => (total_takeBlock length).atomic
  · exact (total_takeBlock length).atomic

theorem neutral_allocate (length : Nat) : Neutral (allocate length) := by
  unfold allocate
  split
  · exact (quiet_throw _).neutral.bind fun _ => neutral_takeBlock length
  · exact neutral_takeBlock length

theorem atomic_storeText (text : String) : Atomic (storeText text) := by
  unfold storeText
  dsimp only
  split
  · exact (quiet_throw _).atomic
  · refine (total_modifyGet _).bind (fun address => ?_) |>.atomic
    exact (total_onMemory _).bind fun _ => total_pure _

theorem neutral_storeText (text : String) : Neutral (storeText text) := by
  unfold storeText
  dsimp only
  split
  · exact (quiet_throw _).neutral
  · exact fun _ => rfl

theorem atomic_storeWide (unit : Nat) (text : String) : Atomic (storeWide unit text) := by
  refine (atomic_allocate _).bind_total fun block => ?_
  exact (total_onMemory _).bind fun _ => total_pure _

theorem neutral_storeWide (unit : Nat) (text : String) : Neutral (storeWide unit text) := by
  refine (neutral_allocate _).bind fun block => ?_
  exact (neutral_onMemory _).bind fun _ => (quiet_pure _).neutral

/-- An address is found without a change, or by storing a text. -/
theorem addressFor_cases {motive : HeapM (UInt64 × Option Kept) → Prop} (type : CType)
    (target : Target) (value : Value) (quiet : ∀ operation, Quiet operation → motive operation)
    (text : ∀ s, motive (do let (address, kept) ← storeText s; pure (address, some kept)))
    (wide : ∀ unit s,
      motive (do let (address, kept) ← storeWide unit s; pure (address, some kept))) :
    motive (addressFor type target value) := by
  unfold addressFor
  split
  case h_2 =>
    split
    · exact quiet _ (quiet_pure _)
    · exact quiet _ (quiet_throw _)
  case h_4 p => exact quiet _ ((quiet_lift p.address).bind fun _ => quiet_pure _)
  case h_6 s =>
    split
    · exact text s
    · exact text s
    · exact wide _ s
    · exact quiet _ (quiet_throw _)
  case h_7 => exact quiet _ (quiet_throw _)
  all_goals exact quiet _ (quiet_pure _)

theorem atomic_addressFor (type : CType) (target : Target) (value : Value) :
    Atomic (addressFor type target value) := by
  refine addressFor_cases type target value (fun operation quiet => quiet.atomic) ?_ ?_
  · exact fun s => (atomic_storeText s).bind_total fun _ => total_pure _
  · exact fun unit s => (atomic_storeWide unit s).bind_total fun _ => total_pure _

theorem neutral_addressFor (type : CType) (target : Target) (value : Value) :
    Neutral (addressFor type target value) := by
  refine addressFor_cases type target value (fun operation quiet => quiet.neutral) ?_ ?_
  · exact fun s => (neutral_storeText s).bind fun _ => (quiet_pure _).neutral
  · exact fun unit s => (neutral_storeWide unit s).bind fun _ => (quiet_pure _).neutral

end Heap

namespace View

section

variable (view : View) (offset : Nat)

theorem quiet_target (length : Nat) : Quiet (view.target offset length) := quiet_lift _

theorem atomic_located (length : Nat) (change : Nat → Memory → Memory) :
    Atomic (do Heap.onMemory (change (← view.target offset length))) :=
  (quiet_target view offset length).bind_atomic fun _ => (total_onMemory _).atomic

theorem neutral_located (length : Nat) (change : Nat → Memory → Memory) :
    Neutral (do Heap.onMemory (change (← view.target offset length))) :=
  (quiet_target view offset length).neutral.bind fun _ => neutral_onMemory _

theorem atomic_writeBits (type : CType) (slot : BitSlot) (value : Value) :
    Atomic (view.writeBits type offset slot value) := by
  unfold writeBits
  refine quiet_get.bind_atomic fun heap => ?_
  refine (quiet_lift _).bind_atomic fun bits => ?_
  refine (quiet_target view offset _).bind_atomic fun address => ?_
  exact (quiet_lift _).bind_atomic fun first => (total_onMemory _).atomic

theorem neutral_writeBits (type : CType) (slot : BitSlot) (value : Value) :
    Neutral (view.writeBits type offset slot value) := by
  unfold writeBits
  refine quiet_get.neutral.bind fun heap => ?_
  refine (quiet_lift _).neutral.bind fun bits => ?_
  refine (quiet_target view offset _).neutral.bind fun address => ?_
  exact (quiet_lift _).neutral.bind fun first => neutral_onMemory _

theorem atomic_writePointer (target : Target) (width : Width) (value : Value) :
    Atomic (view.writeScalar (.pointer target width) offset value) := by
  refine (quiet_target view offset _).bind_atomic fun place => ?_
  refine (Heap.atomic_addressFor _ target value).bind_total fun found => ?_
  exact (total_onMemory _).bind fun _ => total_modify _

theorem atomic_copyInstance (source : Instance) : Atomic (view.copyInstance offset source) := by
  unfold copyInstance
  refine quiet_get.bind_atomic fun heap => ?_
  refine (quiet_lift _).bind_atomic fun bytes => ?_
  exact (atomic_located view offset _ _).bind_total fun _ => total_modify _

theorem atomic_copyPointer (type : CType) (source : Instance) :
    Atomic (view.copyPointer type offset source) := by
  unfold copyPointer
  refine quiet_get.bind_atomic fun heap => ?_
  refine (quiet_lift _).bind_atomic fun bytes => ?_
  exact (atomic_located view offset _ _).bind_total fun _ => total_modify _

end

/-! ## Notes -/

variable {view : View} {offset : Nat} {heap after middle : Heap}

/-- Storing in a pointer slot leaves one note. -/
theorem kept_writePointer {target : Target} {width : Width} {value : Value} {address : UInt64}
    {item : Option Kept}
    (found : Heap.addressFor (.pointer target width) target value heap
      = (.ok (address, item), middle))
    (ran : view.writeScalar (.pointer target width) offset value heap = (.ok (), after)) :
    after.kept = (Note.apply ⟨view.span offset width.bytes, item⟩ heap).kept := by
  have unchanged : middle.kept = heap.kept := (Heap.neutral_addressFor _ target value).kept found
  obtain ⟨place, located, same, ran⟩ := HeapM.bind_eq_ok.mp ran
  obtain rfl : heap = located := congrArg Prod.snd same
  rw [bind_of_ok found] at ran
  cases ran
  exact Note.apply_congr ⟨view.span offset width.bytes, item⟩ unchanged

theorem length_bytes {source : Instance} {bytes : Bytes} (read : source.bytes heap = .ok bytes) :
    bytes.length = source.type.size := by
  obtain ⟨window, _, read⟩ := bind_eq_ok.mp read
  obtain ⟨address, _, read⟩ := bind_eq_ok.mp read
  cases read
  exact Memory.length_load _ _ _

theorem kept_copyInstance {source : Instance}
    (ran : view.copyInstance offset source heap = (.ok (), after)) :
    after.kept = (Note.apply ⟨view.span offset source.type.size,
      if source.type.holdsPointer then some (.block source.block) else none⟩ heap).kept := by
  obtain ⟨_, _, got, ran⟩ := HeapM.bind_eq_ok.mp ran
  cases got
  obtain ⟨bytes, middle, read, ran⟩ := HeapM.bind_eq_ok.mp ran
  obtain rfl : heap = middle := congrArg Prod.snd read
  rw [← length_bytes (congrArg Prod.fst read)]
  obtain ⟨_, written, stored, ran⟩ := HeapM.bind_eq_ok.mp ran
  have unchanged := (neutral_located view offset _ _).kept stored
  cases ran
  exact Note.apply_congr ⟨view.span offset bytes.length, _⟩ unchanged

theorem kept_copyPointer {type : CType} {source : Instance} {bytes : Bytes}
    (read : source.bytes heap = .ok bytes)
    (ran : view.copyPointer type offset source heap = (.ok (), after)) :
    after.kept = (Note.apply ⟨view.span offset type.size,
      if bytes.toWord = 0 then none else some (.block source.block)⟩ heap).kept := by
  obtain ⟨_, _, got, ran⟩ := HeapM.bind_eq_ok.mp ran
  cases got
  have lifted : (liftM (source.bytes heap) : HeapM Bytes) heap = (.ok bytes, heap) := by
    rw [lift_run, read]
  rw [bind_of_ok lifted] at ran
  obtain ⟨_, written, stored, ran⟩ := HeapM.bind_eq_ok.mp ran
  have unchanged := (neutral_located view offset _ _).kept stored
  cases ran
  exact Note.apply_congr ⟨view.span offset type.size, _⟩ unchanged

end View

end CInterop
