import CInterop.Proofs.Heap.Alive
import CInterop.Proofs.Instance.Bounds
import CInterop.Proofs.View.Assembly
import CInterop.Proofs.View.Effects

/-!
# What a write keeps alive

Every store of a write leaves its notes with the block of the view. What the other blocks keep and
what was handed over to native code stays as it is (`View.keepsFor_write`).
-/

namespace CInterop

open HeapM

/-! ## Sequences -/

namespace HeapM

variable {α β : Type} {block : Block}

/-- An operation changes nothing of what is kept alive but for what one block keeps. -/
def KeepsFor (block : Block) (operation : HeapM α) : Prop :=
  ∀ heap, Heap.KeptApart block heap (operation heap).2

theorem keepsFor_of_quiet {operation : HeapM α} (quiet : Quiet operation) :
    KeepsFor block operation := by
  intro heap
  rw [quiet heap]
  exact .refl block heap

theorem KeepsFor.bind {first : HeapM α} {next : α → HeapM β} (own : KeepsFor block first)
    (rest : ∀ a, KeepsFor block (next a)) : KeepsFor block (first >>= next) := by
  intro heap
  have changed := own heap
  rw [bind_run]
  cases ran : first heap with
  | mk outcome middle =>
    rw [ran] at changed
    cases outcome with
    | error _ => exact changed
    | ok a => exact changed.trans (rest a middle)

theorem keepsFor_onMemory (change : Memory → Memory) : KeepsFor block (Heap.onMemory change) :=
  fun _ => ⟨rfl, fun _ _ => rfl⟩

end HeapM

/-! ## Stores -/

namespace Heap

variable {block : Block}

theorem keepsFor_allocate (length : Nat) : KeepsFor block (allocate length) := by
  unfold allocate
  split
  · exact keepsFor_of_quiet (quiet_throw _)
  · exact fun _ => ⟨rfl, fun _ _ => rfl⟩

theorem keepsFor_addressFor (type : CType) (target : Target) (value : Value) :
    KeepsFor block (addressFor type target value) := by
  refine addressFor_cases type target value (fun _ quiet => keepsFor_of_quiet quiet) ?_ ?_
  · intro s
    refine KeepsFor.bind ?_ fun _ => keepsFor_of_quiet (quiet_pure _)
    unfold storeText
    dsimp only
    split
    · exact keepsFor_of_quiet (quiet_throw _)
    · exact fun _ => ⟨rfl, fun _ _ => rfl⟩
  · intro unit s
    refine KeepsFor.bind ?_ fun _ => keepsFor_of_quiet (quiet_pure _)
    refine (keepsFor_allocate _).bind fun fresh => ?_
    exact (keepsFor_onMemory _).bind fun _ => keepsFor_of_quiet (quiet_pure _)

end Heap

namespace View

variable (view : View) (offset : Nat)

theorem keepsFor_keep (length : Nat) (item : Option Kept) :
    KeepsFor view.block (view.keep offset length item) :=
  fun _ => ⟨rfl, fun _ apart => if_neg fun same => apart (beq_iff_eq.mpr same)⟩

theorem keepsFor_located (length : Nat) (change : Nat → Memory → Memory) :
    KeepsFor view.block (do Heap.onMemory (change (← view.target offset length))) :=
  (keepsFor_of_quiet (quiet_target view offset length)).bind fun _ => keepsFor_onMemory _

theorem keepsFor_writeScalar (type : CType) (value : Value) :
    KeepsFor view.block (view.writeScalar type offset value) := by
  unfold writeScalar
  split
  case h_1 | h_2 | h_3 =>
    refine (keepsFor_of_quiet quiet_get).bind fun heap => ?_
    exact (keepsFor_of_quiet (quiet_lift _)).bind fun bits => keepsFor_located view offset _ _
  case h_4 | h_5 =>
    exact (keepsFor_of_quiet (quiet_lift _)).bind fun word => keepsFor_located view offset _ _
  case h_6 target width =>
    refine (keepsFor_of_quiet (quiet_target view offset _)).bind fun place => ?_
    refine (Heap.keepsFor_addressFor _ target value).bind fun found => ?_
    exact (keepsFor_onMemory _).bind fun _ => keepsFor_keep view offset _ _
  case h_7 => exact keepsFor_of_quiet (quiet_throw _)

theorem keepsFor_copyInstance (source : Instance) :
    KeepsFor view.block (view.copyInstance offset source) := by
  unfold copyInstance
  refine (keepsFor_of_quiet quiet_get).bind fun heap => ?_
  refine (keepsFor_of_quiet (quiet_lift _)).bind fun bytes => ?_
  exact (keepsFor_located view offset _ _).bind fun _ => keepsFor_keep view offset _ _

theorem keepsFor_copyPointer (type : CType) (source : Instance) :
    KeepsFor view.block (view.copyPointer type offset source) := by
  unfold copyPointer
  refine (keepsFor_of_quiet quiet_get).bind fun heap => ?_
  refine (keepsFor_of_quiet (quiet_lift _)).bind fun bytes => ?_
  exact (keepsFor_located view offset _ _).bind fun _ => keepsFor_keep view offset _ _

theorem keepsFor_writeText (type : CType) (count : Nat) (text : String) :
    KeepsFor view.block (view.writeText type count offset text) := by
  unfold writeText
  dsimp only
  split
  · refine (keepsFor_located view offset _ _).bind fun _ => ?_
    split
    · exact keepsFor_located view _ 1 _
    · exact keepsFor_of_quiet (quiet_pure _)
  · exact keepsFor_of_quiet (quiet_throw _)

theorem keepsFor_writeBits (type : CType) (slot : BitSlot) (value : Value) :
    KeepsFor view.block (view.writeBits type offset slot value) := by
  unfold writeBits
  refine (keepsFor_of_quiet quiet_get).bind fun heap => ?_
  refine (keepsFor_of_quiet (quiet_lift _)).bind fun bits => ?_
  refine (keepsFor_of_quiet (quiet_target view offset _)).bind fun address => ?_
  exact (keepsFor_of_quiet (quiet_lift _)).bind fun first => keepsFor_onMemory _

/-! ## Writes -/

/-- A write changes what its own block keeps alive, and nothing else that is kept. -/
theorem keepsFor_write (type : CType) (value : Value) :
    KeepsFor view.block (view.write type offset value) := by
  have assembly : Assembly view view (fun operation _ => KeepsFor view.block operation)
      (fun _ _ => True) (fun _ _ _ => True) := by
    refine assembly_of_stores keepsFor_of_quiet ?looking ?both ?scalar ?copied ?held ?text ?bits
      (fun _ _ => trivial) fun _ _ => memberFits_true _ _
    case looking => exact fun quiet rest => (keepsFor_of_quiet quiet).bind rest
    case both => exact fun first rest => first.bind fun _ => rest
    case scalar => exact fun value _ => keepsFor_writeScalar view _ _ value
    case copied => exact fun _ _ => keepsFor_copyInstance view _ _
    case held => exact fun source _ => keepsFor_copyPointer view _ _ source
    case text => exact fun text _ _ => keepsFor_writeText view _ _ _ text
    case bits => exact fun value _ => keepsFor_writeBits view _ _ _ value
  exact assembly.write type offset value trivial

end View

end CInterop
