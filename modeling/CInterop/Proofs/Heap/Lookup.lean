import CInterop.Proofs.Heap.Retention
import CInterop.Value

/-!
# Finding what an address refers to

A block looks for an address among all that it keeps alive, and takes the first that fits. This is
the right one as long as nothing that is kept aliases another: `Tidy` says so of the items that a
host knows, and that it stays so when fresh memory is handed out (`Tidy.grow`). Then an entry is
found from its address wherever it stands (`Tidy.keptText?_of_mem` and the like).
-/

namespace CInterop

namespace Kept

/-- The address of the first byte that is kept alive. -/
def start : Kept → Nat
  | block other => other.base
  | text address _ => address

/-- The number of bytes that are kept alive. -/
def length : Kept → Nat
  | block other => other.length
  | text _ length => length

/-- Two items have no address in common. One without bytes still has an address to itself. -/
def Apart (a b : Kept) : Prop :=
  a.start + max 1 a.length ≤ b.start ∨ b.start + max 1 b.length ≤ a.start

end Kept

theorem findSome?_congr {α β : Type} {first second : α → Option β} {items : List α}
    (same : ∀ item ∈ items, first item = second item) :
    items.findSome? first = items.findSome? second := by
  induction items with
  | nil => rfl
  | cons item rest ih =>
    obtain ⟨own, others⟩ := List.forall_mem_cons.mp same
    rw [List.findSome?_cons, List.findSome?_cons, own, ih others]

/-- What only one item gives is found. -/
theorem findSome?_of_unique {α β : Type} {give : α → Option β} {items : List α} {item : α}
    {result : β} (mem : item ∈ items) (given : give item = some result)
    (unique : ∀ other ∈ items, ∀ found, give other = some found → found = result) :
    items.findSome? give = some result := by
  cases found : items.findSome? give with
  | none => exact absurd (List.findSome?_eq_none_iff.mp found item mem) (by simp [given])
  | some first =>
    obtain ⟨other, other_mem, same⟩ := List.exists_of_findSome?_eq_some found
    rw [unique other other_mem first same]

namespace Block

variable {block : Block} {address : UInt64}

theorem toNat_address (words : block.base < Word.modulus) : block.address.toNat = block.base :=
  UInt64.toNat_ofNat_of_lt' words

theorem distance_add (block : Block) (offset : UInt64) :
    block.distance (block.address + offset) = offset.toNat := by
  rw [distance, UInt64.add_comm, UInt64.add_sub_cancel]

theorem address_add_distance (block : Block) (address : UInt64) :
    block.address + .ofNat (block.distance address) = address := by
  rw [distance, UInt64.ofNat_toNat, UInt64.add_comm, UInt64.sub_add_cancel]

/-- A block that does not wrap around contains the addresses of its bytes. -/
theorem contains_iff (words : block.base < Word.modulus)
    (inside : block.base + block.length ≤ Word.modulus) :
    block.contains address = true
      ↔ block.base ≤ address.toNat ∧ address.toNat < block.base + block.length := by
  have below : address.toNat < Word.modulus := address.toNat_lt
  have distance : block.distance address
      = (Word.modulus - block.base + address.toNat) % Word.modulus := by
    rw [Block.distance, UInt64.toNat_sub, toNat_address words]
    rfl
  rw [contains, decide_eq_true_eq, distance]
  unfold Word.modulus at *
  omega

/-- An address in such a block is that of its distance. -/
theorem address_inBlock_distance (inside : block.base + block.length ≤ Word.modulus)
    (contained : block.contains address = true) :
    (Place.inBlock block (.ofNat (block.distance address))).address = .ok address := by
  have far : (UInt64.ofNat (block.distance address)).toNat = block.distance address := by
    rw [distance, UInt64.ofNat_toNat]
  have near : block.distance address < block.length := of_decide_eq_true contained
  have words : block.base < Word.modulus := by omega
  rw [Place.address_inBlock_eq_ok, far, toNat_address words, address_add_distance]
  exact ⟨by omega, rfl⟩

end Block

namespace Heap

variable {limit : Nat} {block : Block} {items more : List Kept} {heap after : Heap}

/-- An address is resolved to its distance from the block that it lies in: the block that it was
found in, or one that this keeps. -/
theorem resolve?_eq_some {other : Block} {address : UInt64} {distance : Nat}
    (found : heap.resolve? block address = some (other, distance)) :
    (other = block ∨ ∃ offset, (offset, .block other) ∈ heap.keptBy block)
      ∧ other.contains address = true ∧ distance = other.distance address := by
  unfold resolve? at found
  split at found
  case isTrue own =>
    cases found
    exact ⟨.inl rfl, own, rfl⟩
  case isFalse =>
    obtain ⟨⟨place, another | ⟨start, length⟩⟩, mem, given⟩ :=
      List.exists_of_findSome?_eq_some found
    · simp only at given
      split at given
      case isTrue contained =>
        cases given
        exact ⟨.inr ⟨place, mem⟩, contained, rfl⟩
      case isFalse => cases given
    · cases given

/-- The items that a host knows, of which a block keeps some, do not alias each other. They lie in
memory that was handed out, or beyond a limit that this does not get to. -/
structure Tidy (limit : Nat) (block : Block) (items : List Kept) (heap : Heap) : Prop where
  ordered : heap.Ordered
  own : .block block ∈ items
  below : block.base + block.length ≤ heap.frontier
  kept : ∀ entry ∈ heap.keptBy block, entry.2 ∈ items
  lies : ∀ item ∈ items, item.start + item.length < heap.frontier ∨ limit ≤ item.start
  known : ∀ other, .block other ∈ items → other.id < heap.nextId
  words : ∀ other, .block other ∈ items →
    other.base < Word.modulus ∧ other.base + other.length ≤ Word.modulus
  apart : ∀ a ∈ items, ∀ b ∈ items, a = b ∨ a.Apart b
  identity : ∀ a b, .block a ∈ items → .block b ∈ items → a.same b = true → a = b

/-- An item on memory that was free before. -/
structure Fresh (heap after : Heap) (item : Kept) : Prop where
  start : item.start = heap.frontier
  room : item.start + item.length < after.frontier
  known : ∀ other, item = .block other → other.id = heap.nextId ∧ heap.nextId < after.nextId

theorem Fresh.apart {item other : Kept} (fresh : Fresh heap after item)
    (room : after.frontier ≤ limit)
    (lies : other.start + other.length < heap.frontier ∨ limit ≤ other.start) :
    item.Apart other := by
  have start := fresh.start
  have ends := fresh.room
  unfold Kept.Apart
  omega

namespace Tidy

/-- The items stay tidy when the heap grows and one on fresh memory comes along. -/
theorem grow (tidy : Tidy limit block items heap) (brought : Option Kept)
    (frontier : heap.frontier ≤ after.frontier) (nextId : heap.nextId ≤ after.nextId)
    (room : after.frontier ≤ limit) (words : limit < Word.modulus) (ordered : after.Ordered)
    (fresh : ∀ item, brought = some item → Fresh heap after item)
    (old : ∀ item ∈ items, item ∈ more)
    (all : ∀ item ∈ more, item ∈ items ∨ brought = some item)
    (kept : ∀ entry ∈ after.keptBy block, entry.2 ∈ more) : Tidy limit block more after := by
  refine
    { ordered, kept, own := old _ tidy.own, below := Nat.le_trans tidy.below frontier
      lies := ?lies, known := ?known, words := ?words, apart := ?apart, identity := ?identity }
  case lies =>
    intro item mem
    rcases all item mem with mem | new
    · exact (tidy.lies item mem).imp_left fun below => Nat.lt_of_lt_of_le below frontier
    · exact .inl (fresh item new).room
  case known =>
    intro other mem
    rcases all _ mem with mem | new
    · exact Nat.lt_of_lt_of_le (tidy.known other mem) nextId
    · obtain ⟨id, grown⟩ := (fresh _ new).known other rfl
      omega
  case words =>
    intro other mem
    rcases all _ mem with mem | new
    · exact tidy.words other mem
    · have ends : other.base + other.length < after.frontier := (fresh _ new).room
      omega
  case apart =>
    intro a a_mem b b_mem
    rcases all a a_mem with a_old | a_new
    · rcases all b b_mem with b_old | b_new
      · exact tidy.apart a a_old b b_old
      · exact .inr ((fresh b b_new).apart room (tidy.lies a a_old)).symm
    · rcases all b b_mem with b_old | b_new
      · exact .inr ((fresh a a_new).apart room (tidy.lies b b_old))
      · exact .inl (Option.some.inj (a_new.symm.trans b_new))
  case identity =>
    intro a b a_mem b_mem same
    have ids : a.id = b.id := beq_iff_eq.mp same
    rcases all _ a_mem with a_old | a_new
    · rcases all _ b_mem with b_old | b_new
      · exact tidy.identity a b a_old b_old same
      · have below := tidy.known a a_old
        have new := ((fresh _ b_new).known b rfl).1
        omega
    · rcases all _ b_mem with b_old | b_new
      · have below := tidy.known b b_old
        have new := ((fresh _ a_new).known a rfl).1
        omega
      · exact Kept.block.inj (Option.some.inj (a_new.symm.trans b_new))

/-! ## Entries that are found -/

variable {offset : Nat} {address : UInt64}

/-- Items with a common address are the same. -/
theorem eq_of_meet (tidy : Tidy limit block items heap) {a b : Kept} (a_mem : a ∈ items)
    (b_mem : b ∈ items) {place : Nat} (in_a : a.start ≤ place ∧ place < a.start + max 1 a.length)
    (in_b : b.start ≤ place ∧ place < b.start + max 1 b.length) : a = b := by
  refine (tidy.apart a a_mem b b_mem).resolve_right fun apart => ?_
  unfold Kept.Apart at apart
  omega

theorem eq_of_contains (tidy : Tidy limit block items heap) {a b : Block}
    (a_mem : .block a ∈ items) (b_mem : .block b ∈ items) (in_a : a.contains address = true)
    (in_b : b.contains address = true) : a = b := by
  obtain ⟨a_base, a_ends⟩ := tidy.words a a_mem
  obtain ⟨b_base, b_ends⟩ := tidy.words b b_mem
  rw [Block.contains_iff a_base a_ends] at in_a
  rw [Block.contains_iff b_base b_ends] at in_b
  refine Kept.block.inj (tidy.eq_of_meet a_mem b_mem ⟨in_a.1, ?_⟩ ⟨in_b.1, ?_⟩) <;>
  · simp only [Kept.start, Kept.length]
    omega

/-- An address in a block that is kept is resolved to that block. -/
theorem resolve?_of_mem (tidy : Tidy limit block items heap) {other : Block}
    (mem : (offset, .block other) ∈ heap.keptBy block) (inside : other.contains address = true) :
    heap.resolve? block address = some (other, other.distance address) := by
  have other_mem : .block other ∈ items := tidy.kept _ mem
  unfold resolve?
  split
  case isTrue own => rw [tidy.eq_of_contains tidy.own other_mem own inside]
  case isFalse =>
    refine findSome?_of_unique mem (by simp only [inside, if_true]) ?_
    rintro ⟨place, another | ⟨start, length⟩⟩ another_mem found same
    · simp only at same
      split at same
      case isTrue meets =>
        cases same
        rw [tidy.eq_of_contains (tidy.kept _ another_mem) other_mem meets inside]
      case isFalse => cases same
    · cases same

/-- An address inside a block is resolved to its place there, in the block itself and in one that it
keeps. -/
theorem resolve?_of_inside (tidy : Tidy limit block items heap) {other : Block} {place : UInt64}
    (known : .block other ∈ items) (inside : place.toNat < other.length)
    (listed : isSelf block (.block other) = false → (offset, .block other) ∈ heap.keptBy block) :
    heap.resolve? block (other.address + place) = some (other, place.toNat) := by
  have contained : other.contains (other.address + place) = true := by
    rw [Block.contains, Block.distance_add]
    exact decide_eq_true inside
  cases self : isSelf block (.block other) with
  | true =>
    obtain rfl : block = other := tidy.identity block other tidy.own known self
    rw [resolve?, if_pos contained, Block.distance_add]
  | false => rw [tidy.resolve?_of_mem (listed self) contained, Block.distance_add]

/-- What an address is resolved to is a place with this address. -/
theorem address_of_resolve? (tidy : Tidy limit block items heap) {other : Block} {distance : Nat}
    (found : heap.resolve? block address = some (other, distance)) :
    (Place.inBlock other (.ofNat distance)).address = .ok address := by
  obtain ⟨origin, contained, rfl⟩ := resolve?_eq_some found
  have known : .block other ∈ items := by
    rcases origin with rfl | ⟨place, mem⟩
    · exact tidy.own
    · exact tidy.kept _ mem
  exact Block.address_inBlock_distance (tidy.words other known).2 contained

theorem keptText?_of_mem (tidy : Tidy limit block items heap) {length : Nat}
    (mem : (offset, .text address.toNat length) ∈ heap.keptBy block) :
    heap.keptText? block address = some (heap.memory.load address.toNat length) := by
  unfold keptText?
  refine findSome?_of_unique mem (by simp only [if_true]) ?_
  rintro ⟨place, another | ⟨start, another⟩⟩ another_mem found same
  · cases same
  · simp only at same
    split at same
    case isTrue at_address =>
      subst at_address
      cases same
      have equal := tidy.eq_of_meet (tidy.kept _ mem) (tidy.kept _ another_mem)
        ⟨Nat.le_refl address.toNat, by simp only [Kept.start]; omega⟩
        ⟨Nat.le_refl address.toNat, by simp only [Kept.start]; omega⟩
      cases equal
      rfl
    case isFalse => cases same

theorem keptBlock?_of_mem (tidy : Tidy limit block items heap) {other : Block}
    (mem : (offset, .block other) ∈ heap.keptBy block) :
    heap.keptBlock? block other.address = some (heap.memory.load other.base other.length) := by
  have other_mem : .block other ∈ items := tidy.kept _ mem
  unfold keptBlock?
  refine findSome?_of_unique mem (by simp only [if_true]) ?_
  rintro ⟨place, another | ⟨start, length⟩⟩ another_mem found same
  · have here : .block another ∈ items := tidy.kept _ another_mem
    simp only at same
    split at same
    case isTrue at_address =>
      cases same
      have bases := congrArg UInt64.toNat at_address
      rw [Block.toNat_address (tidy.words _ here).1,
        Block.toNat_address (tidy.words _ other_mem).1] at bases
      have equal := tidy.eq_of_meet here other_mem
        ⟨Nat.le_refl another.base, by simp only [Kept.start]; omega⟩
        ⟨Nat.le_of_eq bases.symm, by simp only [Kept.start]; omega⟩
      rw [Kept.block.inj equal]
    case isFalse => cases same
  · cases same

end Tidy

end Heap

end CInterop
