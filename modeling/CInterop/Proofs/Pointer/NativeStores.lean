import CInterop.Proofs.Pointer.Arithmetic
import CInterop.Proofs.View.KeepAlive
import CInterop.Proofs.View.Retaining

/-!
# Stores in native memory

A value is stored through a foreign pointer by `Pointer.set`, or through the instance that it points
at (`Pointer.setContents`). Both wrap the native memory in a block of their own and store the same
bytes in it. The first way hands over what the block keeps, the second one leaves it in the block,
where it is lost with the block (`Pointer.stores_alive`).
-/

namespace CInterop

open HeapM

/-! ## Two ways of storing -/

namespace Pointer

variable {p : Pointer} {address : UInt64} {heap : Heap}

/-- Stores a value in the instance that a pointer points at. -/
def setContents (p : Pointer) (value : Value) : HeapM Unit := do (← p.contents).setValue value

/-- The block that native memory is wrapped in for a store. -/
def wrapper (p : Pointer) (address : UInt64) (heap : Heap) : Block :=
  ⟨heap.nextId, address.toNat, p.target.size, true⟩

/-- The heap after memory was wrapped. -/
def wrapped (heap : Heap) : Heap := { heap with nextId := heap.nextId + 1 }

section Granted

variable (foreign : p.place = .foreign address) (granted : p.granted = true)

include granted in
theorem foreignBlock_run (operation : String) (address : UInt64) (heap : Heap) :
    p.foreignBlock operation address p.target.size heap =
      if address = 0 then
        (.error (.nullDereference "wrap_native" s!"{p.target.size} bytes"), heap)
      else (.ok (p.wrapper address heap), wrapped heap) := by
  unfold foreignBlock
  rw [granted]
  show Heap.wrapNative _ _ heap = _
  unfold Heap.wrapNative
  split <;> rfl

include foreign in
theorem element_eq (sized : p.target.size ≠ 0) (operation : String) :
    p.element operation 0
      = p.foreignBlock operation address p.target.size >>= fun block => pure (block.view, 0) := by
  obtain ⟨own, located, found⟩ := element_of_isForeign (isForeign_iff.mpr ⟨_, foreign⟩) operation 0
  rw [offset_zero, Pointer.address, foreign] at located
  cases located
  rw [found, foreignElement, elementSize, if_neg sized]
  rfl

include foreign in
theorem contents_eq (sized : p.target.size ≠ 0) :
    p.contents = p.foreignBlock "contents" address p.target.size >>= fun block =>
      liftM (Instance.inBlock p.target block 0) := by
  unfold contents elementSize
  rw [if_neg sized]
  simp only [foreign]
  rfl

include foreign granted

/-- Nothing is stored at a target of no size, nor at no address. -/
theorem stores_refused (none : p.target.size = 0 ∨ address = 0) (value : Value) (heap : Heap) :
    (∃ failure, p.set value heap = (.error failure, heap))
      ∧ ∃ failure, p.setContents value heap = (.error failure, heap) := by
  by_cases sized : p.target.size = 0
  · constructor
    · refine ⟨.unsupportedType p.target.name (.unsizedTarget "index_set"), ?_⟩
      unfold Pointer.set setIndex element elementSize
      rw [if_pos sized]
      rfl
    · refine ⟨.unsupportedType p.target.name (.unsizedTarget "contents"), ?_⟩
      unfold setContents contents elementSize
      rw [if_pos sized]
      rfl
  · have nowhere := none.resolve_left sized
    have refused (operation : String) := foreignBlock_run granted operation address heap
    simp only [if_pos nowhere] at refused
    constructor
    · refine ⟨.nullDereference "wrap_native" s!"{p.target.size} bytes", ?_⟩
      unfold Pointer.set setIndex
      rw [element_eq foreign sized, bind_assoc, bind_run, refused]
    · refine ⟨.nullDereference "wrap_native" s!"{p.target.size} bytes", ?_⟩
      unfold setContents
      rw [contents_eq foreign sized, bind_assoc, bind_run, refused]

variable (sized : p.target.size ≠ 0) (somewhere : address ≠ 0)

include sized somewhere

theorem contents_run (heap : Heap) :
    p.contents heap = (.ok ⟨p.target, p.wrapper address heap, 0⟩, wrapped heap) := by
  have ran := foreignBlock_run granted "contents" address heap
  rw [if_neg somewhere] at ran
  have within : 0 + p.target.size ≤ (p.wrapper address heap).length :=
    Nat.le_of_eq (Nat.zero_add _)
  rw [contents_eq foreign sized, bind_of_ok ran, lift_run, Instance.inBlock_of_le within]

theorem setContents_run (value : Value) (heap : Heap) :
    p.setContents value heap
      = (p.wrapper address heap).view.write p.target 0 value (wrapped heap) := by
  have within : Instance.Inside ⟨p.target, p.wrapper address heap, 0⟩ :=
    Nat.le_of_eq (Nat.zero_add _)
  unfold setContents
  rw [bind_of_ok (contents_run foreign granted sized somewhere heap), Instance.setValue,
    Instance.view_of_inside within]
  rfl

/-- Storing a value wraps the memory, stores the value in the wrapper and hands over what this
keeps. -/
theorem set_run (value : Value) (heap : Heap) :
    p.set value heap = match p.setContents value heap with
      | (.ok (), after) => (.ok (), after.leak (p.wrapper address heap))
      | (.error failure, after) => (.error failure, after) := by
  have ran := foreignBlock_run granted "index_set" address heap
  rw [if_neg somewhere] at ran
  rw [setContents_run foreign granted sized somewhere]
  unfold Pointer.set setIndex
  rw [element_eq foreign sized, bind_assoc, bind_of_ok ran]
  show ((p.wrapper address heap).view.write p.target 0 value >>= fun _ => _) (wrapped heap) = _
  rw [bind_run]
  rcases (p.wrapper address heap).view.write p.target 0 value (wrapped heap) with ⟨_ | _, after⟩
  all_goals rfl

end Granted

end Pointer

/-! ## Ledgers with native memory -/

theorem Heap.neutral_wrapNative (address : UInt64) (length : Nat) :
    Neutral (wrapNative address length) := by
  unfold wrapNative
  split
  · exact (quiet_throw _).neutral
  · exact fun _ => rfl

namespace Note

/-- Without the notes for a block that block keeps nothing, and the others what they did. -/
theorem keptBy_replay_filter (notes : List Note) (block other : Block) :
    (replay (notes.filter (!·.span.block.same block))).keptBy other
      = if other.same block = true then [] else (replay notes).keptBy other := by
  induction notes with
  | nil => exact (ite_self _).symm
  | cons note notes ih =>
    show _ = if _ then [] else (note.apply (replay notes)).keptBy other
    have transfer (own : note.span.block.same other = true) :
        note.span.block.same block = other.same block := by
      unfold Block.same
      rw [beq_iff_eq.mp own]
    by_cases own : note.span.block.same block = true
    · rw [List.filter_cons_of_neg (by simp [own]), ih]
      by_cases dropped : other.same block = true
      · rw [if_pos dropped, if_pos dropped]
      · rw [if_neg dropped, if_neg dropped,
          keptBy_apply_of_other fun same => dropped (transfer same ▸ own)]
    · rw [List.filter_cons_of_pos (by simp [own])]
      show (note.apply (replay (notes.filter _))).keptBy other = _
      by_cases same : note.span.block.same other = true
      · rw [keptBy_apply_of_same same, keptBy_apply_of_same same, ih,
          if_neg (transfer same ▸ own), if_neg (transfer same ▸ own)]
      · rw [keptBy_apply_of_other same, keptBy_apply_of_other same, ih]

end Note

namespace Ledger

variable {ledger : Ledger}

/-- The ledger after what a block keeps was handed over. Nothing is noted for the block any more. -/
def handOver (ledger : Ledger) (block : Block) : Ledger where
  heap := ledger.heap.leak block
  notes := ledger.notes.filter (!·.span.block.same block)
  slots := ledger.slots.filter (!·.span.block.same block)

/-- The ledgers that elementary stores, wrapping native memory and handing over lead to. -/
inductive Lived : Ledger → Prop
  | empty : Lived .empty
  | step {ledger after : Ledger} : Lived ledger → Step ledger after → Lived after
  | wrap {ledger : Ledger} {address : UInt64} {length : Nat} {block : Block} {heap : Heap} :
      Lived ledger → Heap.wrapNative address length ledger.heap = (.ok block, heap) →
      Lived { ledger with heap }
  | handOver {ledger : Ledger} (block : Block) : Lived ledger → Lived (ledger.handOver block)

theorem Faithful.handOver (faithful : ledger.Faithful) (block : Block) :
    (ledger.handOver block).Faithful := by
  have kept (other : Block) : (ledger.heap.leak block).keptBy other
      = (Note.replay (ledger.handOver block).notes).keptBy other := by
    have before : ledger.heap.keptBy other = (Note.replay ledger.notes).keptBy other :=
      congrFun faithful.kept other.id
    refine Eq.trans ?_ (Note.keptBy_replay_filter ledger.notes block other).symm
    by_cases same : other.same block = true
    · rw [Heap.keptBy_leak_of_same same, if_pos same]
    · rw [Heap.keptBy_leak_of_other same, if_neg same, before]
  refine ⟨funext fun id => kept ⟨id, 0, 0, false⟩, fun slot mem => ?_, fun slot mem direct => ?_⟩
  · exact faithful.nonempty slot (List.mem_filter.mp mem).1
  · obtain ⟨listed, spared⟩ := List.mem_filter.mp mem
    have apart : ¬ slot.span.block.same block = true := by simpa using spared
    refine (faithful.backed slot listed direct).imp_right fun standing => ?_
    rw [← Note.mem_replay] at standing ⊢
    rwa [← kept, Heap.keptBy_leak_of_other apart, Heap.keptBy, faithful.kept]

theorem Lived.faithful (lived : Lived ledger) : ledger.Faithful := by
  induction lived with
  | empty => exact faithful_empty
  | step _ step ih => exact ih.step step
  | wrap _ wrapped ih =>
    have same := (Heap.neutral_wrapNative _ _).kept wrapped
    exact ⟨same.trans ih.kept, ih.nonempty, ih.backed⟩
  | handOver block _ ih => exact ih.handOver block

end Ledger

/-! ## What the two ways come to -/

namespace Pointer

variable {p : Pointer} {address : UInt64} {ledger history : Ledger} {held : Block → Prop}
  {value : Value}

/-- A ledger records how a value is stored where a pointer points, from another ledger on. -/
def Records (p : Pointer) (value : Value) (ledger history : Ledger) : Prop :=
  Relation.ReflTransGen Ledger.Step { ledger with heap := (p.contents ledger.heap).2 } history
    ∧ history.heap = (p.setContents value ledger.heap).2

theorem neutral_contents (p : Pointer) : Neutral p.contents := by
  unfold contents
  refine (quiet_lift _).neutral.bind fun size => ?_
  split
  · exact (quiet_throw _).neutral
  · exact (quiet_lift _).neutral
  · refine Neutral.bind ?_ fun _ => (quiet_lift _).neutral
    unfold foreignBlock
    split
    · exact Heap.neutral_wrapNative _ _
    · exact (quiet_throw _).neutral.bind fun _ => Heap.neutral_wrapNative _ _

theorem exists_records (p : Pointer) (value : Value) (ledger : Ledger) :
    ∃ history, p.Records value ledger history := by
  unfold Records setContents
  rw [bind_run]
  rcases p.contents ledger.heap with ⟨_ | x, middle⟩
  · exact ⟨_, .refl, rfl⟩
  · exact Ledger.traced_of_typedWrite (.setValue x value) { ledger with heap := middle }

theorem Records.faithful (records : p.Records value ledger history)
    (faithful : ledger.Faithful) : history.Faithful := by
  obtain ⟨steps, -⟩ := records
  have wrapped : Ledger.Faithful { ledger with heap := (p.contents ledger.heap).2 } :=
    ⟨(p.neutral_contents ledger.heap).trans faithful.kept, faithful.nonempty, faithful.backed⟩
  induction steps with
  | refl => exact wrapped
  | tail _ step ih => exact ih.step step

section Granted

variable (foreign : p.place = .foreign address) (granted : p.granted = true)

include foreign granted

/-- What is stored in native memory changes what its own wrapper keeps, and nothing else. -/
theorem keptApart_setContents (value : Value) (heap : Heap) :
    Heap.KeptApart (p.wrapper address heap) heap (p.setContents value heap).2 := by
  by_cases none : p.target.size = 0 ∨ address = 0
  · obtain ⟨-, failure, refused⟩ := stores_refused foreign granted none value heap
    rw [refused]
    exact .refl _ heap
  · obtain ⟨sized, somewhere⟩ := not_or.mp none
    have own : Heap.KeptApart (p.wrapper address heap) heap (wrapped heap) := ⟨rfl, fun _ _ => rfl⟩
    rw [setContents_run foreign granted sized somewhere]
    exact own.trans
      (View.keepsFor_write (p.wrapper address heap).view 0 p.target value (wrapped heap))

/-- The two ways differ in that the first one hands over what the wrapper keeps, if it succeeds. -/
theorem set_cases (value : Value) (heap : Heap) :
    (∃ after, p.setContents value heap = (.ok (), after)
        ∧ p.set value heap = (.ok (), after.leak (p.wrapper address heap)))
      ∨ ∃ failure failure' after, p.setContents value heap = (.error failure, after)
        ∧ p.set value heap = (.error failure', after) := by
  by_cases none : p.target.size = 0 ∨ address = 0
  · obtain ⟨⟨failure', refused'⟩, ⟨failure, refused⟩⟩ :=
      stores_refused foreign granted none value heap
    exact .inr ⟨failure, failure', heap, refused, refused'⟩
  · obtain ⟨sized, somewhere⟩ := not_or.mp none
    have ran := set_run foreign granted sized somewhere value heap
    rcases stored : p.setContents value heap with ⟨failure | done, after⟩
    · rw [stored] at ran
      exact .inr ⟨failure, failure, after, rfl, ran⟩
    · rw [stored] at ran
      exact .inl ⟨after, rfl, ran⟩

end Granted

/-- What is alive when a value was stored in native memory in each of the two ways, and no handle
but those from before is held. -/
structure StoreOutcomes (p : Pointer) (address : UInt64) (value : Value) (ledger : Ledger)
    (held : Block → Prop) : Prop where
  outcome : (p.set value ledger.heap).1.isOk = (p.setContents value ledger.heap).1.isOk
  memory : (p.set value ledger.heap).2.memory = (p.setContents value ledger.heap).2.memory
  recorded : ∃ history, p.Records value ledger history
  /-- Through the contents, nothing is alive that was not alive before. -/
  contents : ∀ item, (p.setContents value ledger.heap).2.Alive held item
    ↔ ledger.heap.Alive held item
  /-- A store that fails in the middle hands nothing over. -/
  failed : (p.set value ledger.heap).1.isOk = false → ∀ item,
    (p.set value ledger.heap).2.Alive held item ↔ ledger.heap.Alive held item
  /-- A store that succeeds hands over what standing notes link to the memory, and so whatever was
  stored there itself. -/
  stored : (p.set value ledger.heap).1.isOk = true → ∀ history, p.Records value ledger history →
    ∀ slot ∈ history.slots, slot.span.block.same (p.wrapper address ledger.heap) = true →
      Heap.isSelf (p.wrapper address ledger.heap) slot.item = false →
        ((p.set value ledger.heap).2.Alive held slot.item
          ↔ ledger.heap.Alive held slot.item
            ∨ Note.Linked history.notes (p.wrapper address ledger.heap) slot.item)
        ∧ (slot.direct = true → (p.set value ledger.heap).2.Alive held slot.item)

/-- Both ways of storing a value in native memory store the same bytes. What the bytes refer to is
alive afterwards if it was handed over by the first way, and in the second one only if it was alive
before. -/
theorem stores_alive (foreign : p.place = .foreign address) (granted : p.granted = true)
    (lived : ledger.Lived)
    (fresh : ¬ ledger.heap.Alive held (.block (p.wrapper address ledger.heap))) (value : Value) :
    p.StoreOutcomes address value ledger held := by
  have contents (item : Kept) : (p.setContents value ledger.heap).2.Alive held item
      ↔ ledger.heap.Alive held item :=
    (keptApart_setContents foreign granted value ledger.heap).alive_iff fresh
  have recorded := exists_records p value ledger
  rcases set_cases foreign granted value ledger.heap with
    ⟨after, through, set⟩ | ⟨failure, failure', after, through, set⟩
  · have alive (item : Kept) (other : Heap.isSelf (p.wrapper address ledger.heap) item = false) :
        (after.leak (p.wrapper address ledger.heap)).Alive held item
          ↔ ledger.heap.Alive held item ∨ after.Keeps (p.wrapper address ledger.heap) item := by
      have own := contents item
      rw [through] at own
      rw [Heap.alive_leak_iff other, Heap.alive_or_iff, own]
    constructor
    case outcome => rw [set, through]
    case memory => rw [set, through, Heap.memory_leak]
    case recorded => exact recorded
    case contents => exact contents
    case failed =>
      intro bad
      rw [set] at bad
      cases bad
    case stored =>
      intro _ history records slot mem same other
      have faithful := records.faithful lived.faithful
      have heap : history.heap = after := by rw [records.2, through]
      rw [set]
      constructor
      · rw [alive _ other, ← heap, Heap.keeps_iff_linked faithful.kept]
      · intro direct
        have keeps := faithful.keeps_of_direct mem direct
        rw [heap] at keeps
        exact (alive _ other).mpr (.inr (keeps.of_same same))
  · constructor
    case outcome => rw [set, through]; rfl
    case memory => rw [set, through]
    case recorded => exact recorded
    case contents => exact contents
    case failed =>
      intro _ item
      have own := contents item
      rw [through] at own
      rw [set]
      exact own
    case stored =>
      intro ok
      rw [set] at ok
      cases ok

/-! ## A text in native memory -/

/-- Memory for one pointer, which native code is in charge of. -/
def slotBlock : Block := ⟨0, 0x10000000000, 8, false⟩

/-- A ledger after the memory was allocated. -/
def slotLedger : Ledger := { Ledger.empty with heap := (Heap.allocate 8 .empty).2 }

/-- A pointer to the memory that knows nothing but its address. -/
def slotPointer : Pointer := (Pointer.foreign Ledger.textPointer 0x10000000000).grant

theorem slotLedger_lived : slotLedger.Lived :=
  .step .empty (.allocate (rfl : Heap.allocate 8 .empty = (.ok slotBlock, slotLedger.heap)))

theorem wrapper_fresh :
    ¬ slotLedger.heap.Alive (· = slotBlock)
      (.block (slotPointer.wrapper 0x10000000000 slotLedger.heap)) := by
  intro alive
  obtain ⟨block, other, rfl, own, same⟩ := alive.eq_self rfl fun block own => own ▸ rfl
  cases own
  exact absurd same (by decide)

/-- A text that is stored by the first way stays alive when nothing is held. -/
theorem stores_alive_text :
    slotPointer.StoreOutcomes 0x10000000000 (.text "hello") slotLedger (· = slotBlock)
      ∧ (slotPointer.set (.text "hello") slotLedger.heap).2.Alive (fun _ => False)
        Ledger.hello := by
  have outcomes :
      slotPointer.StoreOutcomes 0x10000000000 (.text "hello") slotLedger (· = slotBlock) :=
    stores_alive rfl rfl slotLedger_lived wrapper_fresh _
  exact ⟨outcomes, .inl (by decide)⟩

/-- The text whose address both ways store is lost by the second way, also while the memory that
holds its address is held. -/
theorem contents_loses_text :
    let stored := slotPointer.set (.text "hello") slotLedger.heap
    let through := slotPointer.setContents (.text "hello") slotLedger.heap
    stored.1 = .ok () ∧ through.1 = .ok ()
      ∧ stored.2.memory.loadWord slotBlock.base 8 = 0x10100000010
      ∧ through.2.memory.loadWord slotBlock.base 8 = 0x10100000010
      ∧ stored.2.Alive (fun _ => False) Ledger.hello
      ∧ ¬ through.2.Alive (· = slotBlock) Ledger.hello := by
  intro stored through
  refine ⟨rfl, rfl, by decide, by decide, .inl ?_, ?_⟩
  · exact List.mem_singleton_self _
  · intro alive
    obtain ⟨block, other, -, text, -⟩ := alive.eq_self rfl fun block own => own ▸ rfl
    cases text

end Pointer

end CInterop
