import CInterop.Proofs.View.Assembly
import CInterop.Proofs.View.Effects
import Mathlib.Logic.Relation

/-!
# The ledger of a heap

A `Ledger` is a heap with its history: the notes of the stores that were made in it, and the slots
whose bytes are the address of host-owned memory. `Step` says what each elementary store does to the
ledger. Every typed write is a run of elementary stores, whether it succeeds or fails in the middle
(`traced_of_typedWrite`).
-/

namespace CInterop

/-- Bytes that are the address of host-owned memory. The slot is `direct` when the address was
stored there itself, and no empty instance was copied to its place since. -/
structure Slot where
  span : Span
  item : Kept
  direct : Bool

namespace Slot

/-- A slot after a store that left its bytes alone. What is kept for no bytes at all at the offset
of the slot replaces what was kept for the slot. -/
def beside (note : Note) (slot : Slot) : Slot :=
  let displaced := note.span.length == 0 && note.kept.isSome
    && note.span.block.same slot.span.block && note.span.offset == slot.span.offset
  { slot with direct := slot.direct && !displaced }

/-- What a slot becomes where the bytes around it are copied to. -/
def carried? (source target : Span) (slot : Slot) : Option Slot :=
  if slot.span.within source && source.length == target.length then
    let place := target.offset + (slot.span.offset - source.offset)
    some ⟨⟨target.block, place, slot.span.length⟩, slot.item, false⟩
  else none

end Slot

/-- A heap with its history, the latest note first. -/
structure Ledger where
  heap : Heap
  notes : List Note
  slots : List Slot

namespace Ledger

/-- The ledger of the heap in which nothing is allocated. -/
def empty : Ledger := ⟨.empty, [], []⟩

/-- The ledger after a store that keeps nothing. -/
def overwrite (ledger : Ledger) (span : Span) (heap : Heap) : Ledger :=
  { ledger with heap, slots := ledger.slots.filter (!·.span.meets span) }

/-- The ledger after a store that leaves a note and makes slots. -/
def retain (ledger : Ledger) (note : Note) (fresh : List Slot) (heap : Heap) : Ledger :=
  { heap
    notes := note :: ledger.notes
    slots := fresh ++ (ledger.slots.filter (!·.span.meets note.span)).map (·.beside note) }

/-- The slots that a copy makes. -/
def carried (ledger : Ledger) (source target : Span) : List Slot :=
  ledger.slots.filterMap (·.carried? source target)

/-- An allocation, or an elementary store that succeeds. -/
inductive Step : Ledger → Ledger → Prop
  | allocate {ledger : Ledger} {length : Nat} {block : Block} {heap : Heap} :
      Heap.allocate length ledger.heap = (.ok block, heap) → Step ledger { ledger with heap }
  | bytes {ledger : Ledger} {view : View} {offset : Nat} {bytes : Bytes} {heap : Heap} :
      view.writeBytes offset bytes ledger.heap = (.ok (), heap) →
      Step ledger (ledger.overwrite (view.span offset bytes.length) heap)
  | zeros {ledger : Ledger} {view : View} {offset length : Nat} {heap : Heap} :
      view.zero offset length ledger.heap = (.ok (), heap) →
      Step ledger (ledger.overwrite (view.span offset length) heap)
  | word {ledger : Ledger} {view : View} {offset count : Nat} {word : UInt64} {heap : Heap} :
      view.writeWord offset count word ledger.heap = (.ok (), heap) →
      Step ledger (ledger.overwrite (view.span offset count) heap)
  | unit {ledger : Ledger} {view : View} {offset size : Nat} {word : UInt64} {heap : Heap} :
      view.writeUnit offset size word ledger.heap = (.ok (), heap) →
      Step ledger (ledger.overwrite (view.span offset (Bits.unitBytes size)) heap)
  | bits {ledger : Ledger} {view : View} {type : CType} {offset : Nat} {slot : BitSlot}
      {value : Value} {heap : Heap} :
      view.writeBits type offset slot value ledger.heap = (.ok (), heap) →
      Step ledger (ledger.overwrite (view.span offset (Bits.unitBytes type.size)) heap)
  | pointer {ledger : Ledger} {view : View} {target : Target} {width : Width} {offset : Nat}
      {value : Value} {address : UInt64} {item : Option Kept} {middle heap : Heap} :
      Heap.addressFor (.pointer target width) target value ledger.heap
        = (.ok (address, item), middle) →
      view.writeScalar (.pointer target width) offset value ledger.heap = (.ok (), heap) →
      Step ledger (ledger.retain ⟨view.span offset width.bytes, item⟩
        (item.toList.map (⟨view.span offset width.bytes, ·, true⟩)) heap)
  | copyInstance {ledger : Ledger} {view : View} {offset : Nat} {source : Instance} {heap : Heap} :
      view.copyInstance offset source ledger.heap = (.ok (), heap) →
      Step ledger (ledger.retain
        ⟨view.span offset source.type.size,
          if source.type.holdsPointer then some (.block source.block) else none⟩
        (ledger.carried source.span (view.span offset source.type.size)) heap)
  | copyPointer {ledger : Ledger} {view : View} {type : CType} {offset : Nat} {source : Instance}
      {bytes : Bytes} {heap : Heap} :
      source.bytes ledger.heap = .ok bytes →
      view.copyPointer type offset source ledger.heap = (.ok (), heap) →
      Step ledger (ledger.retain
        ⟨view.span offset type.size,
          if bytes.toWord = 0 then none else some (.block source.block)⟩
        (ledger.carried source.span (view.span offset type.size)) heap)

/-- The ledgers that elementary stores lead to. -/
def Reachable (ledger : Ledger) : Prop := Relation.ReflTransGen Step empty ledger

/-- An operation does nothing but run elementary stores. -/
def Traced {α : Type} (operation : HeapM α) : Prop :=
  ∀ ledger : Ledger, ∃ after : Ledger,
    Relation.ReflTransGen Step ledger after ∧ after.heap = (operation ledger.heap).2

/-! ## Elementary stores -/

section Stores

variable {α β : Type}

theorem Traced.bind {first : HeapM α} {next : α → HeapM β} (traced : Traced first)
    (rest : ∀ a, Traced (next a)) : Traced (first >>= next) := by
  intro ledger
  obtain ⟨middle, steps, heap⟩ := traced ledger
  rw [HeapM.bind_run]
  cases ran : first ledger.heap with
  | mk outcome stopped =>
    rw [ran] at heap
    cases outcome with
    -- What was stored before the failure stays stored.
    | error failure => exact ⟨middle, steps, heap⟩
    | ok a =>
      obtain ⟨after, more, same⟩ := rest a middle
      exact ⟨after, steps.trans more, by rw [same, heap]⟩

theorem traced_of_quiet {operation : HeapM α} (quiet : HeapM.Quiet operation) :
    Traced operation := fun ledger => ⟨ledger, .refl, (quiet ledger.heap).symm⟩

/-- An operation that changes nothing when it fails is traced once its successes are. -/
theorem traced_of_atomic {operation : HeapM Unit} (atomic : HeapM.Atomic operation)
    (stores : ∀ {ledger : Ledger} {heap : Heap}, operation ledger.heap = (.ok (), heap) →
      ∃ after, Step ledger after ∧ after.heap = heap) : Traced operation := by
  intro ledger
  cases ran : operation ledger.heap with
  | mk outcome heap =>
    cases outcome with
    | error failure => exact ⟨ledger, .refl, (atomic ran).symm⟩
    | ok done =>
      obtain ⟨after, step, same⟩ := stores ran
      exact ⟨after, .single step, same⟩

variable (view : View) (offset : Nat)

theorem traced_writeBytes (bytes : Bytes) : Traced (view.writeBytes offset bytes) :=
  traced_of_atomic (view.atomic_located offset _ _) fun ran => ⟨_, .bytes ran, rfl⟩

theorem traced_zero (length : Nat) : Traced (view.zero offset length) :=
  traced_of_atomic (view.atomic_located offset _ _) fun ran => ⟨_, .zeros ran, rfl⟩

theorem traced_writeWord (count : Nat) (word : UInt64) :
    Traced (view.writeWord offset count word) :=
  traced_of_atomic (view.atomic_located offset _ _) fun ran => ⟨_, .word ran, rfl⟩

theorem traced_writeUnit (size : Nat) (word : UInt64) :
    Traced (view.writeUnit offset size word) :=
  traced_of_atomic (view.atomic_located offset _ _) fun ran => ⟨_, .unit ran, rfl⟩

theorem traced_writeBits (type : CType) (slot : BitSlot) (value : Value) :
    Traced (view.writeBits type offset slot value) :=
  traced_of_atomic (view.atomic_writeBits offset type slot value) fun ran => ⟨_, .bits ran, rfl⟩

theorem traced_writeScalar (type : CType) (value : Value) :
    Traced (view.writeScalar type offset value) := by
  unfold View.writeScalar
  split
  case h_1 =>
    refine (traced_of_quiet HeapM.quiet_get).bind fun heap => ?_
    exact (traced_of_quiet (HeapM.quiet_lift _)).bind fun bits => traced_writeWord view offset _ _
  case h_2 =>
    refine (traced_of_quiet HeapM.quiet_get).bind fun heap => ?_
    exact (traced_of_quiet (HeapM.quiet_lift _)).bind fun bits => traced_writeWord view offset _ _
  case h_3 =>
    refine (traced_of_quiet HeapM.quiet_get).bind fun heap => ?_
    exact (traced_of_quiet (HeapM.quiet_lift _)).bind fun bits => traced_writeUnit view offset _ _
  case h_4 =>
    exact (traced_of_quiet (HeapM.quiet_lift _)).bind fun word => traced_writeWord view offset _ _
  case h_5 =>
    exact (traced_of_quiet (HeapM.quiet_lift _)).bind fun word => traced_writeWord view offset _ _
  case h_6 target width =>
    refine traced_of_atomic (view.atomic_writePointer offset target width value) ?_
    intro ledger heap ran
    obtain ⟨place, middle, located, rest⟩ := HeapM.bind_eq_ok.mp ran
    obtain ⟨⟨address, item⟩, stored, found, _⟩ := HeapM.bind_eq_ok.mp rest
    obtain rfl : ledger.heap = middle := congrArg Prod.snd located
    exact ⟨_, .pointer found ran, rfl⟩
  case h_7 => exact traced_of_quiet (HeapM.quiet_throw _)

theorem traced_copyInstance (source : Instance) : Traced (view.copyInstance offset source) :=
  traced_of_atomic (view.atomic_copyInstance offset source) fun ran => ⟨_, .copyInstance ran, rfl⟩

theorem traced_copyPointer (type : CType) (source : Instance) :
    Traced (view.copyPointer type offset source) := by
  refine traced_of_atomic (view.atomic_copyPointer offset type source) ?_
  intro ledger heap ran
  obtain ⟨_, _, got, rest⟩ := HeapM.bind_eq_ok.mp ran
  obtain ⟨bytes, _, read, _⟩ := HeapM.bind_eq_ok.mp rest
  cases got
  exact ⟨_, .copyPointer (congrArg Prod.fst read) ran, rfl⟩

theorem traced_writeText (type : CType) (count : Nat) (text : String) :
    Traced (view.writeText type count offset text) := by
  unfold View.writeText
  dsimp only
  split
  · refine (traced_writeBytes view offset _).bind fun _ => ?_
    split
    · exact traced_zero view _ 1
    · exact traced_of_quiet (HeapM.quiet_pure _)
  · exact traced_of_quiet (HeapM.quiet_throw _)

end Stores

/-! ## Typed writes -/

theorem traced_assembly (view : View) :
    View.Assembly view view (fun operation _ => Traced operation) (fun _ _ => True)
      (fun _ _ _ => True) := by
  refine View.assembly_of_stores traced_of_quiet ?looking ?both ?scalar ?copied ?held ?text ?bits
    (fun _ _ => trivial) ?member
  case looking => exact fun quiet rest => (traced_of_quiet quiet).bind rest
  case both => exact fun first rest => first.bind fun _ => rest
  case scalar => exact fun value _ => traced_writeScalar view _ _ value
  case copied => exact fun _ _ => traced_copyInstance view _ _
  case held => exact fun source _ => traced_copyPointer view _ _ source
  case text => exact fun text _ _ => traced_writeText view _ _ _ text
  case bits => exact fun value _ => traced_writeBits view _ _ _ value
  case member => exact fun _ _ => View.memberFits_true _ _

/-- The operations that store a host value as a value of a type. -/
inductive TypedWrite : HeapM Unit → Prop
  | write (view : View) (type : CType) (offset : Nat) (value : Value) :
      TypedWrite (view.write type offset value)
  | member (view : View) (member : Member) (base : Nat) (value : Value) :
      TypedWrite (view.writeMember member base value)
  | setValue (x : Instance) (value : Value) : TypedWrite (x.setValue value)
  | set (x : Instance) (name : String) (value : Value) : TypedWrite (x.set name value)
  | setIndex (x : Instance) (index : Nat) (value : Value) : TypedWrite (x.setIndex index value)

/-- Typed writes do nothing but run elementary stores, also when they fail. -/
theorem traced_of_typedWrite {operation : HeapM Unit} (typed : TypedWrite operation) :
    Traced operation := by
  have traced_setValue : ∀ (x : Instance) (value : Value), Traced (x.setValue value) := by
    intro x value
    refine (traced_of_quiet (HeapM.quiet_lift _)).bind fun view => ?_
    exact (traced_assembly view).write x.type 0 value trivial
  have traced_writeMember : ∀ (view : View) (member : Member) (base : Nat) (value : Value),
      Traced (view.writeMember member base value) := fun view member base value =>
    (traced_assembly view).writeMember value (View.memberFits_true base member)
  cases typed with
  | write view type offset value => exact (traced_assembly view).write type offset value trivial
  | member view member base value => exact traced_writeMember view member base value
  | setValue x value => exact traced_setValue x value
  | set x name value =>
    refine (traced_of_quiet (HeapM.quiet_lift _)).bind fun member => ?_
    refine (traced_of_quiet (HeapM.quiet_lift _)).bind fun view => ?_
    exact traced_writeMember view member 0 value
  | setIndex x index value =>
    refine (traced_of_quiet (HeapM.quiet_lift _)).bind fun element => ?_
    exact traced_setValue element value

end Ledger

end CInterop
