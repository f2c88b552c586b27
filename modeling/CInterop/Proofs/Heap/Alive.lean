import CInterop.Proofs.Heap.Retention

/-!
# What stays alive

Memory of the host stays alive as long as a block is held that keeps it, or when it was handed over
to native code (`Heap.Alive`). Handing over what a block keeps is as good as holding the block for
ever (`Heap.alive_leak_iff`).
-/

namespace CInterop

/-! ## Connections that stay out of a block -/

/-- What a block is connected to without the help of another one depends only on what the others
hold. -/
theorem Connected.congr_apart {Holds Has : Block → Kept → Prop} {apart block : Block} {item : Kept}
    (same : ∀ other, ¬ other.same apart = true → ∀ item, Holds other item ↔ Has other item)
    (out : ¬ Connected Holds block (.block apart)) :
    Connected Holds block item ↔ Connected Has block item := by
  have other {block : Block} (out : ¬ Connected Holds block (.block apart)) :
      ¬ block.same apart = true := fun alike => out (.self alike)
  constructor
  · intro connected
    induction connected with
    | self alike => exact .self alike
    | direct holds => exact .direct ((same _ (other out) _).mp holds)
    | through holds _ ih =>
      exact .through ((same _ (other out) _).mp holds) (ih fun rest => out (.through holds rest))
  · intro connected
    induction connected with
    | self alike => exact .self alike
    | direct has => exact .direct ((same _ (other out) _).mpr has)
    | through has _ ih =>
      have holds := (same _ (other out) _).mpr has
      exact .through holds (ih fun rest => out (.through holds rest))

namespace Heap

variable {heap after : Heap} {block other : Block} {held : Block → Prop} {item : Kept}

/-- An item is alive while a block is held that keeps it, or if it was handed over to native code,
by itself or with a block that keeps it. -/
def Alive (heap : Heap) (held : Block → Prop) (item : Kept) : Prop :=
  item ∈ heap.leaked ∨ ∃ block, (held block ∨ .block block ∈ heap.leaked) ∧ heap.Keeps block item

/-- Blocks that keep nothing are alive themselves, and nothing else is. -/
theorem Alive.eq_self (alive : heap.Alive held item) (kept : heap.leaked = [])
    (nothing : ∀ block, held block → heap.keptBy block = []) :
    ∃ block other, held block ∧ item = .block other ∧ block.same other = true := by
  rcases alive with leaked | ⟨block, own | leaked, keeps⟩
  · rw [kept] at leaked
    cases leaked
  · obtain ⟨other, same, alike⟩ := keeps.eq_self fun item ⟨offset, mem⟩ => by
      rw [nothing block own] at mem
      cases mem
    exact ⟨block, other, own, same, alike⟩
  · rw [kept] at leaked
    cases leaked

/-! ## Changes to one block -/

/-- Nothing of what is kept alive has changed but for what one block keeps. -/
structure KeptApart (block : Block) (heap after : Heap) : Prop where
  leaked : after.leaked = heap.leaked
  others : ∀ other : Block, ¬ other.same block = true → after.keptBy other = heap.keptBy other

namespace KeptApart

theorem refl (block : Block) (heap : Heap) : KeptApart block heap heap := ⟨rfl, fun _ _ => rfl⟩

theorem trans {middle : Heap} (first : KeptApart block heap middle)
    (second : KeptApart block middle after) : KeptApart block heap after :=
  ⟨second.leaked.trans first.leaked, fun other apart =>
    (second.others other apart).trans (first.others other apart)⟩

theorem keeps_iff (changed : KeptApart block heap after)
    (out : ¬ heap.Keeps other (.block block)) :
    heap.Keeps other item ↔ after.Keeps other item :=
  Connected.congr_apart (fun other apart item => by rw [changed.others other apart]) out

/-- What a block keeps that is not alive itself makes nothing alive. -/
theorem alive_iff (changed : KeptApart block heap after) (out : ¬ heap.Alive held (.block block)) :
    after.Alive held item ↔ heap.Alive held item := by
  unfold Alive
  rw [changed.leaked]
  refine or_congr_right (exists_congr fun other => and_congr_right fun root => ?_)
  exact (changed.keeps_iff fun keeps => out (.inr ⟨other, root, keeps⟩)).symm

end KeptApart

/-! ## Handing over -/

theorem memory_leak (block : Block) (heap : Heap) : (heap.leak block).memory = heap.memory := rfl

theorem keptBy_leak_of_same (same : other.same block = true) :
    (heap.leak block).keptBy other = [] := if_pos (beq_iff_eq.mp same)

theorem keptBy_leak_of_other (apart : ¬ other.same block = true) :
    (heap.leak block).keptBy other = heap.keptBy other :=
  if_neg fun same => apart (beq_iff_eq.mpr same)

theorem mem_leaked_leak :
    item ∈ (heap.leak block).leaked
      ↔ (∃ offset, (offset, item) ∈ heap.keptBy block) ∨ item ∈ heap.leaked := by
  show item ∈ (heap.keptBy block).map (·.2) ++ heap.leaked ↔ _
  rw [List.mem_append, List.mem_map]
  simp

theorem keeps_of_keeps_leak (keeps : (heap.leak block).Keeps other item) :
    heap.Keeps other item := by
  refine keeps.mono fun other item ⟨offset, mem⟩ => ⟨offset, ?_⟩
  by_cases same : other.same block = true
  · rw [keptBy_leak_of_same same] at mem
    cases mem
  · rwa [keptBy_leak_of_other same] at mem

/-- What is kept with the help of the block was handed over with it. -/
theorem keeps_leak_cases (held : Block → Prop) (keeps : heap.Keeps other item) :
    isSelf block item = true ∨ (heap.leak block).Alive held item
      ∨ ¬ other.same block = true ∧ (heap.leak block).Keeps other item := by
  induction keeps with
  | @self other item same =>
    by_cases own : other.same block = true
    · refine .inl (beq_iff_eq.mpr ?_)
      exact (beq_iff_eq.mp own).symm.trans (beq_iff_eq.mp same)
    · exact .inr (.inr ⟨own, .self same⟩)
  | @direct other item holds =>
    by_cases own : other.same block = true
    · have alike : heap.keptBy other = heap.keptBy block := congrArg heap.kept (beq_iff_eq.mp own)
      rw [alike] at holds
      exact .inr (.inl (.inl (mem_leaked_leak.mpr (.inl holds))))
    · exact .inr (.inr ⟨own, .direct (by rwa [keptBy_leak_of_other own])⟩)
  | @through other next item holds _ ih =>
    rcases ih with self | alive | ⟨-, rest⟩
    · exact .inl self
    · exact .inr (.inl alive)
    · by_cases own : other.same block = true
      · have alike : heap.keptBy other = heap.keptBy block := congrArg heap.kept (beq_iff_eq.mp own)
        rw [alike] at holds
        exact .inr (.inl (.inr ⟨next, .inr (mem_leaked_leak.mpr (.inl holds)), rest⟩))
      · exact .inr (.inr ⟨own, .through (by rwa [keptBy_leak_of_other own]) rest⟩)

/-- Handing over what a block keeps is as good as holding the block for ever. -/
theorem alive_leak_iff (foreign : isSelf block item = false) :
    (heap.leak block).Alive held item
      ↔ heap.Alive (fun other => held other ∨ other = block) item := by
  constructor
  · rintro (leaked | ⟨other, root, keeps⟩)
    · rcases mem_leaked_leak.mp leaked with kept | before
      · exact .inr ⟨block, .inl (.inr rfl), .direct kept⟩
      · exact .inl before
    · have kept := keeps_of_keeps_leak keeps
      rcases root with own | leaked
      · exact .inr ⟨other, .inl (.inl own), kept⟩
      · rcases mem_leaked_leak.mp leaked with held | before
        · exact .inr ⟨block, .inl (.inr rfl), .through held kept⟩
        · exact .inr ⟨other, .inr before, kept⟩
  · rintro (leaked | ⟨other, root, keeps⟩)
    · exact .inl (mem_leaked_leak.mpr (.inr leaked))
    · rcases keeps_leak_cases held keeps with self | alive | ⟨apart, rest⟩
      · rw [foreign] at self
        cases self
      · exact alive
      · refine .inr ⟨other, ?_, rest⟩
        rcases root with (own | rfl) | leaked
        · exact .inl own
        · exact absurd (beq_self_eq_true _) apart
        · exact .inr (mem_leaked_leak.mpr (.inr leaked))

/-- What is held in addition keeps something alive beside what was alive before. -/
theorem alive_or_iff :
    heap.Alive (fun other => held other ∨ other = block) item
      ↔ heap.Alive held item ∨ heap.Keeps block item := by
  constructor
  · rintro (leaked | ⟨other, (own | rfl) | leaked, keeps⟩)
    · exact .inl (.inl leaked)
    · exact .inl (.inr ⟨other, .inl own, keeps⟩)
    · exact .inr keeps
    · exact .inl (.inr ⟨other, .inr leaked, keeps⟩)
  · rintro ((leaked | ⟨other, own | leaked, keeps⟩) | keeps)
    · exact .inl leaked
    · exact .inr ⟨other, .inl (.inl own), keeps⟩
    · exact .inr ⟨other, .inr leaked, keeps⟩
    · exact .inr ⟨block, .inl (.inr rfl), keeps⟩

/-- Two handles to one block keep the same alive. -/
theorem Keeps.of_same (keeps : heap.Keeps other item) (same : other.same block = true) :
    heap.Keeps block item := by
  have alike : heap.keptBy other = heap.keptBy block := congrArg heap.kept (beq_iff_eq.mp same)
  cases keeps with
  | self own =>
    exact .self (beq_iff_eq.mpr ((beq_iff_eq.mp same).symm.trans (beq_iff_eq.mp own)))
  | direct holds => exact .direct (by rwa [alike] at holds)
  | through holds rest => exact .through (by rwa [alike] at holds) rest

end Heap

end CInterop
