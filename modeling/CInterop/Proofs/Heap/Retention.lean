import CInterop.Heap

/-!
# Retention

What a block keeps alive is told by the stores that were made in it. A `Note` is what one store
asked to be kept, and for which bytes. A note stands until a later one takes its place away, and the
entries of a heap are the notes that stand (`mem_replay`). Hence a block keeps an item alive, itself
or through blocks that it keeps, exactly when standing notes link it to the item
(`keeps_iff_linked`).
-/

namespace CInterop

/-- Some bytes of a block. -/
structure Span where
  block : Block
  offset : Nat
  length : Nat
  deriving DecidableEq, Repr

namespace Span

/-- The offset behind the last byte. -/
def finish (span : Span) : Nat := span.offset + span.length

/-- Whether two spans have a byte in common. -/
def meets (a b : Span) : Bool :=
  a.block.same b.block && max a.offset b.offset < min a.finish b.finish

/-- Whether all bytes of a span are bytes of another. -/
def within (a b : Span) : Bool :=
  a.block.same b.block && b.offset ≤ a.offset && a.finish ≤ b.finish

/-- Whether an offset of a block is given up when the block keeps something for a span. -/
def covers (span : Span) (block : Block) (offset : Nat) : Prop :=
  span.block.same block = true ∧ span.offset ≤ offset ∧ offset < min span.finish (Word.modulus - 1)

end Span

/-- What a store asked a block to keep alive for the bytes that it wrote. -/
structure Note where
  span : Span
  item : Option Kept

namespace Note

/-- What the block has to keep; it need not keep itself. -/
def kept (note : Note) : Option Kept := note.item.filter (!Heap.isSelf note.span.block ·)

/-- Does what the note asks for. -/
def apply (note : Note) (heap : Heap) : Heap :=
  Heap.keepAt note.span.block note.span.offset note.span.length note.item heap

/-- Whether the note has an item kept for an offset of a block. -/
def Puts (note : Note) (block : Block) (offset : Nat) (item : Kept) : Prop :=
  note.span.block.same block = true ∧ note.span.offset = offset ∧ note.kept = some item

/-- Whether the note takes away what was kept for an offset of a block. -/
def Takes (note : Note) (block : Block) (offset : Nat) : Prop :=
  note.span.covers block offset
    ∨ note.span.block.same block = true ∧ note.span.offset = offset ∧ note.kept.isSome = true

/-- An item was put by a note that none of the later ones takes away. The latest is the first. -/
def Standing (notes : List Note) (block : Block) (offset : Nat) (item : Kept) : Prop :=
  ∃ later note earlier, notes = later ++ note :: earlier ∧ note.Puts block offset item
    ∧ ∀ taking ∈ later, ¬ taking.Takes block offset

theorem not_standing_nil (block : Block) (offset : Nat) (item : Kept) :
    ¬ Standing [] block offset item := by
  rintro ⟨later, note, earlier, none, _⟩
  simp at none

/-- The latest note puts an item, or leaves one standing. -/
theorem standing_cons {note : Note} {notes : List Note} {block : Block} {offset : Nat}
    {item : Kept} :
    Standing (note :: notes) block offset item ↔
      note.Puts block offset item
        ∨ ¬ note.Takes block offset ∧ Standing notes block offset item := by
  constructor
  · rintro ⟨later, putting, earlier, split, puts, untaken⟩
    cases later with
    | nil =>
      obtain ⟨rfl, rfl⟩ := List.cons.inj split
      exact .inl puts
    | cons first later =>
      obtain ⟨rfl, rfl⟩ := List.cons.inj split
      rw [List.forall_mem_cons] at untaken
      exact .inr ⟨untaken.1, later, putting, earlier, rfl, puts, untaken.2⟩
  · rintro (puts | ⟨untaken, later, putting, earlier, rfl, puts, rest⟩)
    · exact ⟨[], note, notes, rfl, puts, by simp⟩
    · exact ⟨note :: later, putting, earlier, rfl, puts, List.forall_mem_cons.mpr ⟨untaken, rest⟩⟩

/-- The heap in which nothing happened but the notes. -/
def replay (notes : List Note) : Heap := notes.foldr apply .empty

end Note

namespace Heap

/-! ## Entries -/

variable {entries : List (Nat × Kept)} {offset other : Nat} {item kept : Kept}

/-- Entries stand in the order of their offsets, one for each. -/
def InOrder (entries : List (Nat × Kept)) : Prop :=
  entries.Pairwise fun a b => a.1 < b.1

theorem mem_insertKept (order : InOrder entries) :
    (other, kept) ∈ insertKept offset item entries ↔
      other = offset ∧ kept = item ∨ other ≠ offset ∧ (other, kept) ∈ entries := by
  induction entries with
  | nil => simp [insertKept]
  | cons entry rest ih =>
    obtain ⟨place, old⟩ := entry
    obtain ⟨ahead, order⟩ := List.pairwise_cons.mp order
    have behind : (other, kept) ∈ rest → place < other := fun mem => ahead _ mem
    unfold insertKept
    split
    case isTrue before =>
      -- The new entry comes first, and none of the others has its offset.
      have apart : (other, kept) ∈ (place, old) :: rest → other ≠ offset := by
        intro mem
        rcases List.mem_cons.mp mem with same | mem
        · cases same
          omega
        · have := behind mem
          omega
      rw [List.mem_cons, Prod.mk.injEq]
      exact or_congr_right ⟨fun mem => ⟨apart mem, mem⟩, fun found => found.2⟩
    case isFalse =>
      split
      case isTrue same =>
        subst same
        have apart : (other, kept) ∈ rest → other ≠ offset := fun mem => Nat.ne_of_gt (behind mem)
        simp only [List.mem_cons, Prod.mk.injEq]
        constructor
        · exact Or.imp_right fun mem => ⟨apart mem, .inr mem⟩
        · rintro (new | ⟨apart, same | mem⟩)
          · exact .inl new
          · exact absurd same.1 apart
          · exact .inr mem
      case isFalse differs =>
        rw [List.mem_cons, List.mem_cons, ih order, Prod.mk.injEq]
        constructor
        · rintro (⟨rfl, rfl⟩ | new | ⟨apart, mem⟩)
          · exact .inr ⟨fun same => differs same.symm, .inl ⟨rfl, rfl⟩⟩
          · exact .inl new
          · exact .inr ⟨apart, .inr mem⟩
        · rintro (new | ⟨apart, same | mem⟩)
          · exact .inr (.inl new)
          · exact .inl same
          · exact .inr (.inr ⟨apart, mem⟩)

theorem mem_of_mem_insertKept (mem : (other, kept) ∈ insertKept offset item entries) :
    kept = item ∨ (other, kept) ∈ entries := by
  induction entries with
  | nil =>
    cases List.mem_singleton.mp mem
    exact .inl rfl
  | cons entry rest ih =>
    unfold insertKept at mem
    split at mem
    case isTrue => exact (List.mem_cons.mp mem).imp_left (congrArg Prod.snd)
    case isFalse =>
      split at mem
      case isTrue =>
        exact (List.mem_cons.mp mem).imp (congrArg Prod.snd) (List.mem_cons_of_mem _)
      case isFalse =>
        rcases List.mem_cons.mp mem with same | later
        · exact .inr (List.mem_cons.mpr (.inl same))
        · exact (ih later).imp_right (List.mem_cons_of_mem _)

theorem inOrder_insertKept (order : InOrder entries) :
    InOrder (insertKept offset item entries) := by
  induction entries with
  | nil => exact List.pairwise_singleton _ _
  | cons entry rest ih =>
    obtain ⟨place, old⟩ := entry
    obtain ⟨ahead, tail⟩ := List.pairwise_cons.mp order
    unfold insertKept
    split
    case isTrue before =>
      refine List.pairwise_cons.mpr ⟨?_, order⟩
      rw [List.forall_mem_cons]
      exact ⟨before, fun entry mem => Nat.lt_trans before (ahead entry mem)⟩
    case isFalse =>
      split
      case isTrue same =>
        exact List.pairwise_cons.mpr ⟨same ▸ ahead, tail⟩
      case isFalse =>
        refine List.pairwise_cons.mpr ⟨?_, ih tail⟩
        rintro ⟨other, kept⟩ mem
        rcases (mem_insertKept tail).mp mem with ⟨rfl, _⟩ | ⟨_, mem⟩
        · show place < other
          omega
        · exact ahead _ mem

theorem mem_releaseKept {length : Nat} :
    (other, kept) ∈ releaseKept offset length entries ↔
      ¬ (offset ≤ other ∧ other < min (offset + length) (Word.modulus - 1))
        ∧ (other, kept) ∈ entries := by
  unfold releaseKept
  rw [List.mem_filter, and_comm]
  refine and_congr_left' ?_
  simp only [Bool.not_eq_true', ← Bool.not_eq_true, Bool.and_eq_true, decide_eq_true_eq]

theorem inOrder_releaseKept {length : Nat} (order : InOrder entries) :
    InOrder (releaseKept offset length entries) := List.Pairwise.filter _ order

end Heap

/-! ## Notes and entries -/

namespace Note

variable {note : Note} {block : Block} {offset : Nat} {item : Kept} {heap : Heap}

/-- What becomes of the entries of the note's block. -/
def revise (note : Note) (entries : List (Nat × Kept)) : List (Nat × Kept) :=
  let released := Heap.releaseKept note.span.offset note.span.length entries
  match note.kept with
  | none => released
  | some item => Heap.insertKept note.span.offset item released

/-- What a note does depends on nothing but what the blocks keep. -/
theorem apply_congr (note : Note) {heap other : Heap} (same : heap.kept = other.kept) :
    (note.apply heap).kept = (note.apply other).kept := by
  show (Heap.setKept heap _ _).kept = (Heap.setKept other _ _).kept
  unfold Heap.setKept Heap.keptBy
  rw [same]

theorem keptBy_apply_of_same (same : note.span.block.same block = true) :
    (note.apply heap).keptBy block = note.revise (heap.keptBy block) := by
  have equal : block.id = note.span.block.id := (beq_iff_eq.mp same).symm
  have alike : heap.keptBy block = heap.keptBy note.span.block := congrArg heap.kept equal
  rw [alike]
  exact if_pos equal

theorem keptBy_apply_of_other (other : ¬ note.span.block.same block = true) :
    (note.apply heap).keptBy block = heap.keptBy block := by
  have differ : ¬ block.id = note.span.block.id := fun equal => other (beq_iff_eq.mpr equal.symm)
  exact if_neg differ

theorem mem_revise {entries : List (Nat × Kept)} (order : Heap.InOrder entries)
    (same : note.span.block.same block = true) :
    (offset, item) ∈ note.revise entries ↔
      note.Puts block offset item ∨ ¬ note.Takes block offset ∧ (offset, item) ∈ entries := by
  unfold revise Puts Takes Span.covers
  simp only [same, true_and]
  cases note.kept with
  | none =>
    rw [Heap.mem_releaseKept]
    simp [Span.finish]
  | some put =>
    show (offset, item) ∈ Heap.insertKept _ put _ ↔ _
    rw [Heap.mem_insertKept (Heap.inOrder_releaseKept order), Heap.mem_releaseKept]
    simp only [Option.some.injEq, Option.isSome_some, and_true, not_or, and_assoc, Span.finish]
    refine or_congr ⟨?_, ?_⟩ ⟨?_, ?_⟩
    · exact fun ⟨place, kept⟩ => ⟨place.symm, kept.symm⟩
    · exact fun ⟨place, kept⟩ => ⟨place.symm, kept.symm⟩
    · exact fun ⟨apart, uncovered, mem⟩ => ⟨uncovered, fun same => apart same.symm, mem⟩
    · exact fun ⟨uncovered, apart, mem⟩ => ⟨fun same => apart same.symm, uncovered, mem⟩

theorem inOrder_revise {entries : List (Nat × Kept)} (order : Heap.InOrder entries) :
    Heap.InOrder (note.revise entries) := by
  unfold revise
  cases note.kept with
  | none => exact Heap.inOrder_releaseKept order
  | some put => exact Heap.inOrder_insertKept (Heap.inOrder_releaseKept order)

end Note

namespace Heap

variable {heap : Heap}

/-- What every block keeps is in order. -/
def Ordered (heap : Heap) : Prop := ∀ block, InOrder (heap.keptBy block)

theorem Ordered.apply (ordered : heap.Ordered) (note : Note) : (note.apply heap).Ordered := by
  intro block
  by_cases same : note.span.block.same block = true
  · rw [Note.keptBy_apply_of_same same]
    exact Note.inOrder_revise (ordered block)
  · rw [Note.keptBy_apply_of_other same]
    exact ordered block

theorem Ordered.mem_apply (ordered : heap.Ordered) {note : Note} {block : Block} {offset : Nat}
    {item : Kept} :
    (offset, item) ∈ (note.apply heap).keptBy block ↔
      note.Puts block offset item
        ∨ ¬ note.Takes block offset ∧ (offset, item) ∈ heap.keptBy block := by
  by_cases same : note.span.block.same block = true
  · rw [Note.keptBy_apply_of_same same]
    exact Note.mem_revise (ordered block) same
  · rw [Note.keptBy_apply_of_other same]
    simp [Note.Puts, Note.Takes, Span.covers, same]

end Heap

namespace Note

theorem ordered_replay (notes : List Note) : (replay notes).Ordered := by
  induction notes with
  | nil => exact fun _ => List.Pairwise.nil
  | cons note notes ih => exact ih.apply note

/-- What a block keeps are the notes that stand. -/
theorem mem_replay {notes : List Note} {block : Block} {offset : Nat} {item : Kept} :
    (offset, item) ∈ (replay notes).keptBy block ↔ Standing notes block offset item := by
  induction notes with
  | nil => exact iff_of_false List.not_mem_nil (not_standing_nil block offset item)
  | cons note notes ih =>
    rw [standing_cons, ← ih]
    exact (ordered_replay notes).mem_apply

end Note

/-! ## Keeping alive -/

/-- A block is connected to itself, to what it holds, and to whatever a block that it holds is
connected to. -/
inductive Connected (Holds : Block → Kept → Prop) : Block → Kept → Prop
  | self {block other : Block} : block.same other = true → Connected Holds block (.block other)
  | direct {block : Block} {item : Kept} : Holds block item → Connected Holds block item
  | through {block other : Block} {item : Kept} : Holds block (.block other) →
      Connected Holds other item → Connected Holds block item

namespace Connected

variable {Holds Has : Block → Kept → Prop} {block : Block} {item : Kept}

theorem mono (more : ∀ block item, Holds block item → Has block item)
    (connected : Connected Holds block item) : Connected Has block item := by
  induction connected with
  | self same => exact .self same
  | direct holds => exact .direct (more _ _ holds)
  | through holds _ ih => exact .through (more _ _ holds) ih

theorem congr (same : ∀ block item, Holds block item ↔ Has block item) :
    Connected Holds block item ↔ Connected Has block item :=
  ⟨mono fun _ _ => (same _ _).mp, mono fun _ _ => (same _ _).mpr⟩

/-- A block that holds nothing is connected to nothing but itself. -/
theorem eq_self (nothing : ∀ item, ¬ Holds block item) (connected : Connected Holds block item) :
    ∃ other, item = .block other ∧ block.same other = true := by
  cases connected with
  | self same => exact ⟨_, rfl, same⟩
  | direct holds => exact absurd holds (nothing _)
  | through holds _ => exact absurd holds (nothing _)

end Connected

/-- A block keeps itself alive, what it is recorded to keep, and what the blocks among that keep. -/
def Heap.Keeps (heap : Heap) : Block → Kept → Prop :=
  Connected fun block item => ∃ offset, (offset, item) ∈ heap.keptBy block

/-- Standing notes lead from a block to an item. -/
def Note.Linked (notes : List Note) : Block → Kept → Prop :=
  Connected fun block item => ∃ offset, Standing notes block offset item

/-- A heap keeps alive what the standing ones of the notes made in it link. -/
theorem Heap.keeps_iff_linked {heap : Heap} {notes : List Note}
    (same : heap.kept = (Note.replay notes).kept) {block : Block} {item : Kept} :
    heap.Keeps block item ↔ Note.Linked notes block item := by
  refine Connected.congr fun block item => exists_congr fun offset => ?_
  rw [← Note.mem_replay, keptBy, same]
  rfl

end CInterop
