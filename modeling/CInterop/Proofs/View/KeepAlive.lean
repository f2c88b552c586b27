import CInterop.Proofs.View.Ledger

/-!
# Keeping stored addresses alive

A slot is kept alive when the block that it lies in keeps what its address refers to. In every
reachable ledger that is so exactly when standing notes link the block to it, and always so for an
address that was stored in the slot itself. An instance that is copied leaves a note on its block
only, and none in that block, so that a copy of an address may outlive what it refers to.
-/

namespace CInterop

/-- A span that starts inside of another has a byte in common with it. -/
theorem Span.meets_of_start {a b : Span} (same : b.block.same a.block = true)
    (behind : b.offset ≤ a.offset) (before : a.offset < b.finish) (nonempty : 0 < a.length) :
    a.meets b = true := by
  have alike : a.block.same b.block = true := by
    rw [Block.same, beq_iff_eq] at same ⊢
    exact same.symm
  unfold finish at before
  simp only [meets, alike, Bool.true_and, finish]
  apply decide_eq_true
  omega

namespace Slot

variable {slot : Slot} {note : Note} {notes : List Note}

/-- The note for a slot stands, unless the slot refers to the block that it lies in. -/
def Backed (notes : List Note) (slot : Slot) : Prop :=
  Heap.isSelf slot.span.block slot.item = true
    ∨ Note.Standing notes slot.span.block slot.span.offset slot.item

/-- A store beside a slot takes away what is kept for it only by keeping something for no bytes. -/
theorem not_takes_of_beside (nonempty : 0 < slot.span.length)
    (apart : slot.span.meets note.span = false) (direct : (slot.beside note).direct = true) :
    ¬ note.Takes slot.span.block slot.span.offset := by
  rintro (⟨same, start, inside⟩ | ⟨same, start, kept⟩)
  · have before := Nat.lt_of_lt_of_le inside (Nat.min_le_left _ _)
    rw [Span.meets_of_start same start before nonempty] at apart
    cases apart
  · by_cases empty : note.span.length = 0
    · simp [beside, empty, kept, same, start] at direct
    · have before : slot.span.offset < note.span.finish := by
        unfold Span.finish
        omega
      rw [Span.meets_of_start same (Nat.le_of_eq start) before nonempty] at apart
      cases apart

theorem Backed.beside (backed : slot.Backed notes) (nonempty : 0 < slot.span.length)
    (apart : slot.span.meets note.span = false) (direct : (slot.beside note).direct = true) :
    (slot.beside note).Backed (note :: notes) := by
  have untaken := not_takes_of_beside nonempty apart direct
  rcases backed with self | standing
  · exact .inl self
  · exact .inr (Note.standing_cons.mpr (.inr ⟨untaken, standing⟩))

theorem direct_of_beside (direct : (slot.beside note).direct = true) : slot.direct = true :=
  (Bool.and_eq_true_iff.mp direct).1

theorem backed_of_item {span : Span} {item : Kept} :
    (⟨span, item, true⟩ : Slot).Backed (⟨span, some item⟩ :: notes) := by
  cases self : Heap.isSelf span.block item with
  | true => exact .inl self
  | false =>
    have same : span.block.same span.block = true := beq_self_eq_true _
    refine .inr (Note.standing_cons.mpr (.inl ⟨same, rfl, ?_⟩))
    simp [Note.kept, self]

end Slot

namespace Ledger

variable {ledger : Ledger}

/-- The notes tell what the heap keeps, and the slots that were stored in are among it. -/
structure Faithful (ledger : Ledger) : Prop where
  kept : ledger.heap.kept = (Note.replay ledger.notes).kept
  nonempty : ∀ slot ∈ ledger.slots, 0 < slot.span.length
  backed : ∀ slot ∈ ledger.slots, slot.direct = true → slot.Backed ledger.notes

theorem faithful_empty : empty.Faithful := by
  refine ⟨rfl, ?_, ?_⟩
  · intro slot mem
    cases mem
  · intro slot mem
    cases mem

namespace Faithful

/-- A store that keeps nothing only overwrites slots. -/
theorem overwrite (faithful : ledger.Faithful) {span : Span} {heap : Heap}
    (same : heap.kept = ledger.heap.kept) : (ledger.overwrite span heap).Faithful := by
  refine ⟨same.trans faithful.kept, ?_, ?_⟩
  · intro slot mem
    exact faithful.nonempty slot (List.mem_filter.mp mem).1
  · intro slot mem
    exact faithful.backed slot (List.mem_filter.mp mem).1

/-- A store that leaves a note backs its own slots and takes nothing from those beside it. -/
theorem retain (faithful : ledger.Faithful) {note : Note} {fresh : List Slot} {heap : Heap}
    (applied : heap.kept = (note.apply ledger.heap).kept)
    (nonempty : ∀ slot ∈ fresh, 0 < slot.span.length)
    (backed : ∀ slot ∈ fresh, slot.direct = true → slot.Backed (note :: ledger.notes)) :
    (ledger.retain note fresh heap).Faithful := by
  have spared : ∀ slot ∈ ledger.slots.filter (!·.span.meets note.span),
      slot ∈ ledger.slots ∧ slot.span.meets note.span = false := by
    intro slot mem
    obtain ⟨old, apart⟩ := List.mem_filter.mp mem
    exact ⟨old, Bool.not_eq_true' _ |>.mp apart⟩
  refine ⟨applied.trans (note.apply_congr faithful.kept), ?_, ?_⟩
  · intro slot mem
    rcases List.mem_append.mp mem with new | old
    · exact nonempty slot new
    · obtain ⟨before, listed, rfl⟩ := List.mem_map.mp old
      exact faithful.nonempty before (spared before listed).1
  · intro slot mem direct
    rcases List.mem_append.mp mem with new | old
    · exact backed slot new direct
    · obtain ⟨before, listed, rfl⟩ := List.mem_map.mp old
      obtain ⟨known, apart⟩ := spared before listed
      have stood := faithful.backed before known (Slot.direct_of_beside direct)
      exact stood.beside (faithful.nonempty before known) apart direct

/-- Copied slots are as long as those that they were copied from, and not direct. -/
theorem of_carried (faithful : ledger.Faithful) {source target : Span} {slot : Slot}
    (mem : slot ∈ ledger.carried source target) : 0 < slot.span.length ∧ slot.direct = false := by
  obtain ⟨origin, listed, moved⟩ := List.mem_filterMap.mp mem
  unfold Slot.carried? at moved
  split at moved
  · cases moved
    exact ⟨faithful.nonempty origin listed, rfl⟩
  · cases moved

theorem step (faithful : ledger.Faithful) {after : Ledger} (step : Step ledger after) :
    after.Faithful := by
  -- Only a store in a pointer slot makes a direct slot, and its note is the latest.
  cases step with
  | allocate ran =>
    exact ⟨((Heap.neutral_allocate _).kept ran).trans faithful.kept, faithful.nonempty,
      faithful.backed⟩
  | bytes ran => exact faithful.overwrite ((View.neutral_located _ _ _ _).kept ran)
  | zeros ran => exact faithful.overwrite ((View.neutral_located _ _ _ _).kept ran)
  | word ran => exact faithful.overwrite ((View.neutral_located _ _ _ _).kept ran)
  | unit ran => exact faithful.overwrite ((View.neutral_located _ _ _ _).kept ran)
  | bits ran => exact faithful.overwrite ((View.neutral_writeBits _ _ _ _ _).kept ran)
  | @pointer view target width offset value address item middle heap found ran =>
    refine faithful.retain (View.kept_writePointer found ran) ?_ ?_
    · intro slot mem
      obtain ⟨kept, _, rfl⟩ := List.mem_map.mp mem
      show 0 < width.bytes
      cases width <;> decide
    · intro slot mem _
      obtain ⟨kept, listed, rfl⟩ := List.mem_map.mp mem
      obtain rfl := Option.mem_toList.mp listed
      exact Slot.backed_of_item
  | copyInstance ran =>
    refine faithful.retain (View.kept_copyInstance ran) ?_ ?_
    · exact fun slot mem => (faithful.of_carried mem).1
    · intro slot mem direct
      rw [(faithful.of_carried mem).2] at direct
      cases direct
  | copyPointer read ran =>
    refine faithful.retain (View.kept_copyPointer read ran) ?_ ?_
    · exact fun slot mem => (faithful.of_carried mem).1
    · intro slot mem direct
      rw [(faithful.of_carried mem).2] at direct
      cases direct

end Faithful

theorem Reachable.faithful (reached : Reachable ledger) : ledger.Faithful := by
  induction reached with
  | refl => exact faithful_empty
  | tail _ step ih => exact ih.step step

theorem Faithful.keeps_of_direct (faithful : ledger.Faithful) {slot : Slot}
    (mem : slot ∈ ledger.slots) (direct : slot.direct = true) :
    ledger.heap.Keeps slot.span.block slot.item := by
  rw [Heap.keeps_iff_linked faithful.kept]
  rcases faithful.backed slot mem direct with self | standing
  · cases item : slot.item with
    | block other =>
      rw [item] at self
      exact .self self
    | text address length =>
      rw [item] at self
      cases self
  · exact .direct ⟨_, standing⟩

/-- Typed writes lead from reachable ledgers to reachable ones, and in each of them what a slot
refers to is kept alive exactly when standing notes link its block to it. What was stored in the
slot itself is kept alive as long as the slot is not overwritten. -/
theorem keeps_iff_linked_of_reachable (reached : Reachable ledger) :
    (∀ operation, TypedWrite operation →
        ∃ after, Reachable after ∧ after.heap = (operation ledger.heap).2)
      ∧ ∀ slot ∈ ledger.slots,
        (ledger.heap.Keeps slot.span.block slot.item ↔
            Note.Linked ledger.notes slot.span.block slot.item)
          ∧ (slot.direct = true → ledger.heap.Keeps slot.span.block slot.item) := by
  have faithful := reached.faithful
  refine ⟨?_, ?_⟩
  · intro operation typed
    obtain ⟨after, steps, same⟩ := traced_of_typedWrite typed ledger
    exact ⟨after, reached.trans steps, same⟩
  · intro slot mem
    exact ⟨Heap.keeps_iff_linked faithful.kept, faithful.keeps_of_direct mem⟩

/-! ## A copy that outlives its text -/

/-- The type of a pointer to a text. -/
def textPointer : CType := .pointer .cstring .w64

/-- A block for two pointers. -/
def pairBlock : Block := ⟨0, 0x10000000000, 16, false⟩

/-- The two pointers as an instance. -/
def pair : Instance := ⟨.array textPointer 2, pairBlock, 0⟩

/-- The first of the two pointers as an instance. -/
def pairFirst : Instance := ⟨textPointer, pairBlock, 0⟩

/-- The text that the pointers are made to point at. -/
def hello : Kept := .text 0x10100000010 5

/-- A ledger after the block was allocated. -/
def pairLedger : Ledger := { empty with heap := (Heap.allocate 16 .empty).2 }

/-- A text is stored in the first pointer. -/
def storedLedger : Ledger :=
  let span := pairBlock.view.span 0 8
  pairLedger.retain ⟨span, some hello⟩ [⟨span, hello, true⟩]
    (pair.setIndex 0 (.text "hello") pairLedger.heap).2

/-- The first pointer is copied to the second. -/
def copiedLedger : Ledger :=
  let span := pairBlock.view.span 8 8
  storedLedger.retain ⟨span, some (.block pairBlock)⟩ (storedLedger.carried pairFirst.span span)
    (pair.setIndex 1 (.object pairFirst) storedLedger.heap).2

/-- The first pointer is cleared. -/
def clearedLedger : Ledger :=
  copiedLedger.retain ⟨pairBlock.view.span 0 8, none⟩ [] (pair.setIndex 0 .null copiedLedger.heap).2

theorem copiedLedger_reachable : Reachable copiedLedger := by
  have allocated : Step empty pairLedger :=
    .allocate (rfl : Heap.allocate 16 .empty = (.ok pairBlock, pairLedger.heap))
  have stored : Step pairLedger storedLedger :=
    .pointer
      (rfl : Heap.addressFor textPointer .cstring (.text "hello") pairLedger.heap
        = (.ok (0x10100000010, some hello), (Heap.storeText "hello" pairLedger.heap).2))
      (rfl : pairBlock.view.writeScalar textPointer 0 (.text "hello") pairLedger.heap
        = (.ok (), storedLedger.heap))
  have copied : Step storedLedger copiedLedger :=
    .copyInstance (rfl : pairBlock.view.copyInstance 8 pairFirst storedLedger.heap
      = (.ok (), copiedLedger.heap))
  exact ((Relation.ReflTransGen.single allocated).tail stored).tail copied

theorem clearedLedger_reachable : Reachable clearedLedger := by
  have cleared : Step copiedLedger clearedLedger :=
    .pointer
      (rfl : Heap.addressFor textPointer .cstring .null copiedLedger.heap
        = (.ok (0, none), copiedLedger.heap))
      (rfl : pairBlock.view.writeScalar textPointer 0 .null copiedLedger.heap
        = (.ok (), clearedLedger.heap))
  exact copiedLedger_reachable.tail cleared

/-- While the first pointer holds the text, the block keeps it alive for both. -/
theorem keeps_copiedLedger :
    let copy : Slot := ⟨pairBlock.view.span 8 8, hello, false⟩
    let first : Slot := ⟨pairBlock.view.span 0 8, hello, true⟩
    copiedLedger.slots = [copy, first] ∧ copiedLedger.heap.Keeps pairBlock hello
      ∧ Note.Linked copiedLedger.notes pairBlock hello := by
  have slots : copiedLedger.slots
      = [⟨pairBlock.view.span 8 8, hello, false⟩, ⟨pairBlock.view.span 0 8, hello, true⟩] := rfl
  have settled := (keeps_iff_linked_of_reachable copiedLedger_reachable).2
    ⟨pairBlock.view.span 0 8, hello, true⟩ (by rw [slots]; simp)
  have kept : copiedLedger.heap.Keeps pairBlock hello := settled.2 rfl
  exact ⟨slots, kept, settled.1.mp kept⟩

/-- Once the first pointer is cleared, the second holds the address of a text that nobody keeps. -/
theorem copied_unkept :
    let writes : HeapM Unit := do
      pair.setIndex 0 (.text "hello")
      pair.setIndex 1 (.object pairFirst)
      pair.setIndex 0 .null
    Reachable clearedLedger ∧ writes pairLedger.heap = (.ok (), clearedLedger.heap)
      ∧ clearedLedger.slots = [⟨pairBlock.view.span 8 8, hello, false⟩]
      ∧ ¬ clearedLedger.heap.Keeps pairBlock hello := by
  refine ⟨clearedLedger_reachable, rfl, rfl, fun keeps => ?_⟩
  have nothing : clearedLedger.heap.keptBy pairBlock = [] := rfl
  obtain ⟨other, same, _⟩ := keeps.eq_self fun item held => by
    obtain ⟨offset, mem⟩ := held
    rw [nothing] at mem
    cases mem
  cases same

end Ledger

end CInterop
