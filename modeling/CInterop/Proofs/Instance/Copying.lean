import CInterop.Proofs.Heap.Lookup
import CInterop.Proofs.Instance.Bounds
import CInterop.Proofs.View.Confined
import CInterop.Proofs.View.KeepAlive
import CInterop.Proofs.View.Locality
import CInterop.Proofs.View.Storing

/-!
# Copies of instances

An instance is copied byte by byte, and a copy reads as its source did as far as bytes tell. What
the address in a pointer stands for is told by the block that it is read from: the block of the
source before the copy, and that of the copy afterwards. So a copy equals its source exactly if this
comes to the same for every pointer in it (`Instance.copy_reads`). The block of a copy keeps the
block of the source alive, but not what that one keeps, and so a text is found again within a block,
but not in another one.
-/

namespace CInterop

namespace CType

/-! ## The pointers in a value -/

/-- A value that lies at an offset has a pointer at some other offset. -/
inductive PointerAt : CType → Nat → Nat → Target → Width → Prop
  | pointer {target : Target} {width : Width} {place : Nat} :
    PointerAt (.pointer target width) place place target width
  | item {element : CType} {count i base place : Nat} {target : Target} {width : Width}
    (below : i < count) (inner : PointerAt element (base + i * element.size) place target width) :
    PointerAt (.array element count) base place target width
  | member {layout : Layout} {part : Member} {base place : Nat} {target : Target} {width : Width}
    (mem : part ∈ layout.members) (plain : part.bits = none)
    (inner : PointerAt part.type (base + part.offset) place target width) :
    PointerAt (.composite layout) base place target width

theorem PointerFree.not_pointerAt {type : CType} (free : type.PointerFree) {base place : Nat}
    {target : Target} {width : Width} : ¬ type.PointerAt base place target width := by
  intro found
  induction found with
  | pointer => cases free
  | item _ _ ih =>
    cases free with
    | array element_free => exact ih element_free
  | member mem _ _ ih =>
    cases free with
    | composite members_free => exact ih (members_free _ mem)

end CType

/-! ## Reading a copy of some bytes -/

namespace Spot

/-- At a spot lie the bytes of a view, as they were in another state of the heap. -/
structure Mirrors (spot : Spot) (after : Heap) (origin : View) (heap : Heap) : Prop where
  holds : spot.Holds origin.length
  bits : ∀ i < 8 * origin.length,
    after.memory.bit (spot.start + i) = heap.memory.bit (8 * origin.place 0 + i)

/-- The pointers in a value at an offset of a view stand for the same as those in a copy of the view
at a spot. -/
def Agrees (spot : Spot) (after : Heap) (origin : View) (heap : Heap) (type : CType) (base : Nat) :
    Prop :=
  ∀ place target width, type.PointerAt base place target width →
    let address := heap.memory.loadWord (origin.place place) width.bytes
    after.pointerValue spot.view.block target address
      = heap.pointerValue origin.block target address

/-- Whatever is read at an offset of a view is read from a copy of the view, too, and comes to the
same exactly if the pointers in it stand for the same. -/
def Carries (spot : Spot) (after : Heap) (origin : View) (heap : Heap) (type : CType) (base : Nat) :
    Prop :=
  ∀ value, origin.read heap type base = .ok value →
    ∃ result, spot.view.read after type (spot.offset + base) = .ok result
      ∧ (result = value ↔ spot.Agrees after origin heap type base)

namespace Mirrors

variable {spot : Spot} {origin : View} {heap after : Heap} {base count : Nat} {type : CType}
  {value : Value}

theorem inside (mirrors : spot.Mirrors after origin heap) (inside : base + count ≤ origin.length) :
    spot.offset + base + count ≤ spot.view.length := by
  have whole := mirrors.holds.inside
  omega

/-- A bit that lies in the origin lies in the copy. -/
theorem bit (mirrors : spot.Mirrors after origin heap) (inside : base + count ≤ origin.length)
    {i : Nat} (below : i < 8 * count) :
    after.memory.bit (8 * spot.view.place (spot.offset + base) + i)
      = heap.memory.bit (8 * origin.place base + i) := by
  have same := mirrors.bits (8 * base + i) (by omega)
  rw [show 8 * spot.view.place (spot.offset + base) + i = spot.start + (8 * base + i) by
      simp only [View.place, start, address]
      omega,
    show 8 * origin.place base + i = 8 * origin.place 0 + (8 * base + i) by
      simp only [View.place]
      omega]
  exact same

theorem loadWord (mirrors : spot.Mirrors after origin heap) (small : count ≤ 8)
    (inside : base + count ≤ origin.length) :
    after.memory.loadWord (spot.view.place (spot.offset + base)) count
      = heap.memory.loadWord (origin.place base) count :=
  Memory.loadWord_congr small fun _ below => mirrors.bit inside below

theorem readWord (mirrors : spot.Mirrors after origin heap) (small : count ≤ 8) {word : UInt64}
    (read : origin.readWord heap base count = .ok word) :
    word = heap.memory.loadWord (origin.place base) count
      ∧ spot.view.readWord after (spot.offset + base) count = .ok word := by
  obtain ⟨address, located, same⟩ := bind_eq_ok.mp read
  obtain ⟨inside, rfl⟩ := View.locate_eq_ok_iff.mp located
  cases same
  refine ⟨rfl, ?_⟩
  rw [View.readWord_of_le (mirrors.inside inside)]
  exact congrArg Except.ok (mirrors.loadWord small inside)

/-- What is made of a word is made of its copy. -/
theorem readWord_bind (mirrors : spot.Mirrors after origin heap) (small : count ≤ 8)
    {next : UInt64 → Except Failure Value}
    (read : origin.readWord heap base count >>= next = .ok value) :
    spot.view.readWord after (spot.offset + base) count >>= next = .ok value := by
  obtain ⟨word, found, rest⟩ := bind_eq_ok.mp read
  exact bind_eq_ok.mpr ⟨word, (mirrors.readWord small found).2, rest⟩

/-- What is read of the bytes behind a wide character of a stray size makes no difference. -/
theorem readStray (mirrors : spot.Mirrors after origin heap) {bytes : Nat}
    (read : origin.read heap (.stray bytes) base = .ok value) :
    spot.view.read after (.stray bytes) (spot.offset + base) = .ok value := by
  obtain ⟨_, unit, -⟩ := bind_eq_ok.mp read
  obtain ⟨_, located, -⟩ := bind_eq_ok.mp unit
  obtain ⟨inside, -⟩ := View.locate_eq_ok_iff.mp located
  unfold View.read at read ⊢
  rw [View.readUnit_of_le inside] at read
  rw [View.readUnit_of_le (mirrors.inside inside), ← read]
  exact congrArg Except.ok (ofBits_unit_congr fun _ below => mirrors.bit inside below)

theorem readBits (mirrors : spot.Mirrors after origin heap) {slot : BitSlot}
    (fits : slot.offset + slot.width ≤ 8 * type.size)
    (read : origin.readBits heap type base slot = .ok value) :
    spot.view.readBits after type (spot.offset + base) slot = .ok value := by
  obtain ⟨address, located, rest⟩ := bind_eq_ok.mp read
  obtain ⟨inside, -⟩ := View.locate_eq_ok_iff.mp located
  obtain ⟨first, shifted, -⟩ := bind_eq_ok.mp rest
  have small := Word.lt_of_shift_eq_ok shifted
  rw [readBits_of_le inside small] at read
  rw [readBits_of_le (mirrors.inside inside) small, ← read]
  have field := extract_unit_congr fits small fun i _ below =>
    mirrors.bit inside (show i < 8 * type.size by omega)
  exact congrArg (fun field => (.ok (fieldValue type field slot.width) : Except Failure Value))
    field

theorem readMember (mirrors : spot.Mirrors after origin heap) {part : Member}
    (fits : part.SlotFits)
    (carries : ∀ place, spot.Carries after origin heap part.type place)
    (read : origin.readMember heap part base = .ok value) :
    ∃ result, spot.view.readMember after part (spot.offset + base) = .ok result
      ∧ (result = value ↔ (part.bits = none →
          spot.Agrees after origin heap part.type (base + part.offset))) := by
  unfold View.readMember at read ⊢
  rw [Nat.add_assoc]
  cases bits : part.bits with
  | some slot =>
    rw [bits] at read
    exact ⟨value, mirrors.readBits (fits slot bits).2 read, by simp⟩
  | none =>
    rw [bits] at read
    obtain ⟨result, found, same⟩ := carries _ _ read
    exact ⟨result, found, by simp [same]⟩

theorem carries_pointer (mirrors : spot.Mirrors after origin heap) (target : Target)
    (width : Width) : spot.Carries after origin heap (.pointer target width) base := by
  intro value read
  obtain ⟨word, found, same⟩ := bind_eq_ok.mp read
  obtain ⟨rfl, copied⟩ := mirrors.readWord width.bytes_le found
  cases same
  refine ⟨_, bind_eq_ok.mpr ⟨_, copied, rfl⟩, ?_, fun agrees => agrees _ _ _ .pointer⟩
  intro same place target width found
  cases found
  exact same

theorem carries_undivided (mirrors : spot.Mirrors after origin heap)
    (undivided : type.Undivided) : spot.Carries after origin heap type base := by
  have bare {type : CType} (free : type.PointerFree) : spot.Agrees after origin heap type base :=
    fun _ _ _ found => absurd found free.not_pointerAt
  cases type with
  | pointer target width => exact mirrors.carries_pointer target width
  | array => cases undivided.1
  | composite => cases undivided.2
  | void =>
    intro value read
    cases read
  | bool =>
    intro value read
    exact ⟨value, mirrors.readWord_bind (by decide) read, by simp [bare .bool]⟩
  | int =>
    intro value read
    exact ⟨value, mirrors.readWord_bind (Width.bytes_le _) read, by simp [bare .int]⟩
  | stray =>
    intro value read
    exact ⟨value, mirrors.readStray read, by simp [bare .stray]⟩
  | float precision =>
    intro value read
    cases precision <;>
      exact ⟨value, mirrors.readWord_bind (by decide) read, by simp [bare .float]⟩

theorem carries_array (mirrors : spot.Mirrors after origin heap) {element : CType}
    (carries : ∀ place, spot.Carries after origin heap element place) :
    spot.Carries after origin heap (.array element count) base := by
  intro value read
  obtain ⟨_, located, read⟩ := bind_eq_ok.mp read
  obtain ⟨items, each, same⟩ := bind_eq_ok.mp read
  cases same
  have inside := (View.locate_eq_ok_iff.mp located).1
  obtain ⟨results, found, same⟩ := exists_counterparts (mapM_eq_ok.mp each) fun i _ item read =>
    carries (base + i * element.size) item read
  simp only [← Nat.add_assoc] at found
  refine ⟨.list results, bind_eq_ok.mpr ⟨_, View.locate_of_le (mirrors.inside inside),
    bind_eq_ok.mpr ⟨results, mapM_eq_ok.mpr found, rfl⟩⟩, ?_⟩
  rw [Value.list.injEq, same]
  constructor
  · rintro all place target width (_ | ⟨below, inner⟩)
    exact all _ (List.mem_range.mpr below) place target width inner
  · intro agrees i mem place target width inner
    exact agrees place target width (.item (List.mem_range.mp mem) inner)

theorem carries_composite (mirrors : spot.Mirrors after origin heap) {layout : Layout}
    (distinct : (layout.members.map (·.name)).Nodup)
    (proper : ∀ part ∈ layout.members, Layout.Proper part)
    (carries : ∀ part ∈ layout.members, ∀ place,
      spot.Carries after origin heap part.type place) :
    spot.Carries after origin heap (.composite layout) base := by
  intro value read
  obtain ⟨_, located, read⟩ := bind_eq_ok.mp read
  obtain ⟨entries, each, same⟩ := bind_eq_ok.mp read
  cases same
  have inside := (View.locate_eq_ok_iff.mp located).1
  replace each : List.Forall₂ (fun part entry => entry.1 = part.name
      ∧ ReadsMember ⟨origin, base⟩ heap part entry.2) layout.members entries :=
    View.readMembers_eq_ok.mp each
  obtain ⟨results, found, same⟩ : ∃ results, List.Forall₂ (fun part entry =>
        entry.1 = part.name ∧ (spot.plus base).ReadsMember after part entry.2)
        layout.members results
      ∧ (results = entries ↔ ∀ part ∈ layout.members, part.bits = none →
        spot.Agrees after origin heap part.type (base + part.offset)) := by
    refine exists_counterparts each ?_
    rintro part mem ⟨_, value⟩ ⟨rfl, read⟩
    obtain ⟨result, found, same⟩ :=
      mirrors.readMember (proper part mem).fits (carries part mem) read
    exact ⟨(part.name, result), ⟨rfl, found⟩, by simp [same]⟩
  refine ⟨.ofEntries results, bind_eq_ok.mpr ⟨_, View.locate_of_le (mirrors.inside inside),
    bind_eq_ok.mpr ⟨results, View.readMembers_eq_ok.mpr found, rfl⟩⟩, ?_⟩
  -- The names of the members are distinct, so that the record tells the entries.
  have told : Value.ofEntries results = .ofEntries entries ↔ results = entries :=
    ⟨entries_unique distinct found each, congrArg Value.ofEntries⟩
  rw [told, same]
  constructor
  · rintro all place target width (_ | _ | ⟨mem, plain, inner⟩)
    exact all _ mem plain place target width inner
  · intro agrees part mem plain place target width inner
    exact agrees place target width (.member mem plain inner)

theorem carries (mirrors : spot.Mirrors after origin heap) (shaped : type.Shaped) :
    spot.Carries after origin heap type base := by
  induction shaped generalizing base with
  | undivided undivided => exact mirrors.carries_undivided undivided
  | array _ ih => exact mirrors.carries_array fun _ => ih
  | composite distinct proper _ ih =>
    exact mirrors.carries_composite distinct proper fun part mem _ => ih part mem

end Mirrors

end Spot

/-! ## Copying an instance -/

/-- The bytes of an instance as a view, if they lie inside its block. -/
def Instance.window (x : Instance) : View := ⟨x.block, x.offset, x.type.size⟩

namespace Spot

/-- What the block of a spot is asked to keep alive when an instance is copied to the spot. -/
def note (spot : Spot) (source : Instance) : Note :=
  ⟨spot.view.span spot.offset source.type.size,
    if source.type.holdsPointer then some (.block source.block) else none⟩

/-- What a heap becomes when an instance is copied to a spot. -/
def copied (spot : Spot) (source : Instance) (heap : Heap) : Heap :=
  let bytes := heap.memory.load (source.block.base + source.offset) source.type.size
  (spot.note source).apply { heap with memory := heap.memory.store spot.address bytes }

variable {spot : Spot} {source : Instance} {heap : Heap}

theorem memory_copied : (spot.copied source heap).memory = heap.memory.store spot.address
    (heap.memory.load (source.block.base + source.offset) source.type.size) := rfl

theorem keptBy_copied : (spot.copied source heap).keptBy spot.view.block
    = (spot.note source).revise (heap.keptBy spot.view.block) :=
  Note.keptBy_apply_of_same (beq_self_eq_true _)

theorem copyInstance_spot (holds : spot.Holds source.type.size) (inside : source.Inside) :
    spot.view.copyInstance spot.offset source heap = (.ok (), spot.copied source heap) := by
  have length := Memory.length_load heap.memory (source.block.base + source.offset) source.type.size
  have stored : spot.view.writeBytes spot.offset
      (heap.memory.load (source.block.base + source.offset) source.type.size) heap
      = (.ok (), { heap with memory := (spot.copied source heap).memory }) := by
    unfold View.writeBytes
    rw [length, HeapM.bind_of_ok (target_spot holds)]
    rfl
  refine HeapM.bind_eq_ok.mpr ⟨heap, heap, rfl, HeapM.bind_eq_ok.mpr ⟨_, heap,
    HeapM.lift_eq_ok.mpr ⟨Instance.bytes_of_inside inside heap, rfl⟩,
    HeapM.bind_eq_ok.mpr ⟨(), _, stored, ?_⟩⟩⟩
  rw [length]
  rfl

theorem write_object (holds : spot.Holds source.type.size) (inside : source.Inside) :
    spot.view.write source.type spot.offset (.object source) heap
      = (.ok (), spot.copied source heap) := by
  rw [View.write_of_same (CType.same_refl source.type), copyInstance_spot holds inside]

/-- A copy has the bytes of its source, also where the two overlap. -/
theorem mirrors_copied (holds : spot.Holds source.type.size) :
    spot.Mirrors (spot.copied source heap) source.window heap := by
  refine ⟨holds, fun i below => ?_⟩
  replace below : i < 8 * source.type.size := below
  have covered : 8 * spot.address ≤ spot.start + i
      ∧ spot.start + i < 8 * (spot.address + source.type.size) := by
    unfold start
    omega
  rw [memory_copied, Memory.bit_store, Memory.length_load, if_pos covered, start,
    Nat.add_sub_cancel_left, Memory.bit_load _ _ below]
  rfl

end Spot

/-! ## Copying within a block -/

namespace Heap

variable {heap after : Heap} {block : Block}

/-- What an address stands for is told by what the block keeps and by the bytes of that. -/
theorem pointerValue_congr (kept : after.keptBy block = heap.keptBy block)
    (bytes : ∀ entry ∈ heap.keptBy block,
      after.memory.load entry.2.start entry.2.length
        = heap.memory.load entry.2.start entry.2.length) (target : Target) (address : UInt64) :
    after.pointerValue block target address = heap.pointerValue block target address := by
  have resolved : after.resolve? block address = heap.resolve? block address := by
    unfold resolve?
    rw [kept]
  have text : after.keptText? block address = heap.keptText? block address := by
    unfold keptText?
    rw [kept]
    refine findSome?_congr ?_
    rintro ⟨offset, other | ⟨start, length⟩⟩ mem
    · rfl
    · exact congrArg (fun found => if start = address.toNat then some found else none)
        (bytes _ mem)
  have wide : after.keptBlock? block address = heap.keptBlock? block address := by
    unfold keptBlock?
    rw [kept]
    refine findSome?_congr ?_
    rintro ⟨offset, other | ⟨start, length⟩⟩ mem
    · exact congrArg (fun found => if other.address = address then some found else none)
        (bytes _ mem)
    · rfl
  unfold pointerValue
  rw [resolved, text, wide]

end Heap

namespace Spot

variable {spot : Spot} {source : Instance} {heap : Heap}

/-- The block of a spot keeps nothing for the bytes at the spot, and nothing that lies there. -/
structure Clear (spot : Spot) (heap : Heap) (size : Nat) : Prop where
  offsets : ∀ entry ∈ heap.keptBy spot.view.block,
    entry.1 < spot.view.start + spot.offset ∨ spot.view.start + spot.offset + size ≤ entry.1
  bytes : ∀ entry ∈ heap.keptBy spot.view.block, ∀ i < entry.2.length,
    entry.2.start + i < spot.address ∨ spot.address + size ≤ entry.2.start + i

theorem keptBy_of_clear (within : source.block = spot.view.block)
    (clear : spot.Clear heap source.type.size) :
    (spot.copied source heap).keptBy spot.view.block = heap.keptBy spot.view.block := by
  -- The block is not asked to keep itself.
  have self : Heap.isSelf spot.view.block (.block source.block) = true := by
    rw [within]
    exact beq_self_eq_true _
  have nothing : (spot.note source).kept = none := by
    simp only [Note.kept, note, View.span]
    split <;> simp [self]
  rw [keptBy_copied, Note.revise, nothing]
  refine List.filter_eq_self.mpr fun entry mem => ?_
  have outside := clear.offsets entry mem
  have cut := Nat.min_le_left (spot.view.start + spot.offset + source.type.size) (Word.modulus - 1)
  rw [Bool.not_eq_true', ← Bool.not_eq_true, Bool.and_eq_true, decide_eq_true_eq, decide_eq_true_eq]
  simp only [note, View.span]
  omega

theorem agrees_copied (within : source.block = spot.view.block)
    (clear : spot.Clear heap source.type.size) {type : CType} {base : Nat} :
    spot.Agrees (spot.copied source heap) source.window heap type base := by
  intro place target width _
  have block : source.window.block = spot.view.block := within
  rw [block]
  refine Heap.pointerValue_congr (keptBy_of_clear within clear) (fun entry mem => ?_) _ _
  refine List.map_congr_left fun i below => ?_
  have outside := clear.bytes entry mem i (List.mem_range.mp below)
  rw [memory_copied, Memory.byte_store_of_outside _ (by rwa [Memory.length_load])]

end Spot

/-! ## Copying to another block -/

namespace Heap

variable {heap : Heap} {block : Block} {address : UInt64} {offset other : Nat} {item kept : Kept}
  {entries : List (Nat × Kept)}

theorem keptText?_eq_none : heap.keptText? block address = none ↔
    ∀ offset start length, (offset, .text start length) ∈ heap.keptBy block →
      start ≠ address.toNat := by
  unfold keptText?
  rw [List.findSome?_eq_none_iff]
  constructor
  · intro none offset start length mem same
    simpa [same] using none _ mem
  · rintro apart ⟨offset, _ | ⟨start, length⟩⟩ mem
    · rfl
    · exact if_neg (apart offset start length mem)

end Heap

namespace Spot

variable {spot : Spot} {source : Instance} {heap : Heap} {address : UInt64}

theorem kept_note {item : Kept} (kept : (spot.note source).kept = some item) :
    item = .block source.block := by
  have asked := (Option.filter_eq_some_iff.mp kept).1
  unfold note at asked
  split at asked
  · exact (Option.some.inj asked).symm
  · cases asked

/-- A copy has no text kept alive that was not kept before. -/
theorem keptText?_copied (unkept : heap.keptText? spot.view.block address = none) :
    (spot.copied source heap).keptText? spot.view.block address = none := by
  rw [Heap.keptText?_eq_none] at unkept ⊢
  intro offset start length mem
  have old : (offset, Kept.text start length) ∈ Heap.releaseKept (spot.note source).span.offset
      (spot.note source).span.length (heap.keptBy spot.view.block) := by
    rw [keptBy_copied] at mem
    unfold Note.revise at mem
    cases kept : (spot.note source).kept with
    | none => rwa [kept] at mem
    | some item =>
      rw [kept] at mem
      rcases Heap.mem_of_mem_insertKept mem with rfl | old
      · cases kept_note kept
      · exact old
  exact unkept offset start length (List.mem_filter.mp old).1

/-- A text is lost where the block of the copy did not keep it. -/
theorem not_agrees_of_text {window : View} {type : CType} {base place : Nat} {width : Width}
    (found : type.PointerAt base place .cstring width)
    (address : heap.memory.loadWord (window.place place) width.bytes ≠ 0)
    (text : heap.keptText? window.block
      (heap.memory.loadWord (window.place place) width.bytes) ≠ none)
    (unkept : heap.keptText? spot.view.block
      (heap.memory.loadWord (window.place place) width.bytes) = none) :
    ¬ spot.Agrees (spot.copied source heap) window heap type base := by
  intro agrees
  have same := agrees place .cstring width found
  obtain ⟨bytes, kept⟩ := Option.ne_none_iff_exists'.mp text
  simp only [Heap.pointerValue, if_neg address, keptText?_copied unkept, kept] at same
  cases same

end Spot

/-- An instance is copied to every place that has room for it, and the copy is read as its source
was before exactly if every pointer in it stands for the same in both places. That is so if the type
holds no pointers, or if the copy is made within a block that keeps nothing for the bytes of the
copy and nothing that lies there. It is not so if a pointer refers to a text that the block of the
source keeps and the block of the copy did not. -/
theorem Instance.copy_reads {source : Instance} {spot : Spot} {heap : Heap} {value : Value}
    (built : source.type.Built) (holds : spot.Holds source.type.size)
    (read : source.value heap = .ok value) :
    let after := spot.copied source heap
    spot.view.write source.type spot.offset (.object source) heap = (.ok (), after)
      ∧ ∃ result, spot.Reads after source.type result
        ∧ (result = value ↔ spot.Agrees after source.window heap source.type 0)
        ∧ (source.type.holdsPointer = false → result = value)
        ∧ (source.block = spot.view.block → spot.Clear heap source.type.size → result = value)
        ∧ ∀ place width, source.type.PointerAt 0 place .cstring width →
            let address := heap.memory.loadWord (source.window.place place) width.bytes
            address ≠ 0 → heap.keptText? source.block address ≠ none →
              heap.keptText? spot.view.block address = none → result ≠ value := by
  obtain ⟨window, viewed, found⟩ := bind_eq_ok.mp read
  obtain ⟨rfl, inside⟩ := Instance.view_eq_ok viewed
  obtain ⟨result, copied, same⟩ := (Spot.mirrors_copied holds).carries built.shaped value found
  refine ⟨Spot.write_object holds inside, result, copied, same, ?bare, ?within, ?lost⟩
  case bare =>
    intro bare
    exact same.mpr fun _ _ _ found => absurd found (built.pointerFree bare).not_pointerAt
  case within =>
    intro within clear
    exact same.mpr (Spot.agrees_copied within clear)
  case lost =>
    intro place width found address nonzero text unkept equal
    exact Spot.not_agrees_of_text found nonzero text unkept (same.mp equal)

namespace Ledger

/-- The second of the two pointers. -/
def pairSecond : Spot := ⟨pairBlock.view, 8⟩

theorem textPointer_built : textPointer.Built :=
  .primitive (rfl : Primitive.cstring.type? .host = some textPointer)

/-- Within their block, the first pointer is copied to the second together with its text. -/
theorem copy_within_pair :
    textPointer.Built ∧ pairSecond.Holds textPointer.size
      ∧ pairFirst.value storedLedger.heap = .ok (.text "hello")
      ∧ pairFirst.block = pairSecond.view.block
      ∧ pairSecond.Clear storedLedger.heap textPointer.size
      ∧ pairSecond.Reads (pairSecond.copied pairFirst storedLedger.heap) textPointer
          (.text "hello") := by
  have built := textPointer_built
  have holds : pairSecond.Holds textPointer.size := ⟨by decide⟩
  have read : pairFirst.value storedLedger.heap = .ok (.text "hello") := rfl
  have clear : pairSecond.Clear storedLedger.heap textPointer.size := by
    have kept : storedLedger.heap.keptBy pairSecond.view.block = [(0, hello)] := rfl
    have address : pairSecond.address = 0x10000000008 := rfl
    refine ⟨?_, ?_⟩ <;> rw [kept, List.forall_mem_singleton]
    · exact .inl (by decide)
    · intro i _
      refine .inr ?_
      show pairSecond.address + 8 ≤ 0x10100000010 + i
      omega
  obtain ⟨_, result, found, _, _, within, _⟩ := Instance.copy_reads built holds read
  obtain rfl := within rfl clear
  exact ⟨built, holds, read, rfl, clear, found⟩

/-- A block for one more pointer. -/
def otherBlock : Block := ⟨1, storedLedger.heap.frontier, 8, false⟩

/-- In another block, the first pointer is copied as an address that nothing is known of. -/
theorem copy_loses_text :
    let heap := (Heap.allocate 8 storedLedger.heap).2
    let spot : Spot := ⟨otherBlock.view, 0⟩
    textPointer.Built ∧ Heap.allocate 8 storedLedger.heap = (.ok otherBlock, heap)
      ∧ pairFirst.value heap = .ok (.text "hello")
      ∧ spot.view.write textPointer 0 (.object pairFirst) heap
          = (.ok (), spot.copied pairFirst heap)
      ∧ spot.Reads (spot.copied pairFirst heap) textPointer
          (.pointer (.foreign (.natural "char" .w8 true) 0x10100000010)) :=
  ⟨textPointer_built, rfl, rfl, rfl, rfl⟩

end Ledger

end CInterop
