import CInterop.Proofs.Heap.Lookup
import CInterop.Proofs.View.Confined
import CInterop.Proofs.View.Storing

/-!
# Stores in pointer slots

One value is stored in a slot of a block that holds an address. It changes the bytes and the entry
of that slot and takes free memory for a text (`PointerStore.Leaves`). What the address then stands
for is told by `Encodes`, which later stores elsewhere do not disturb (`Encodes.keep`).
-/

namespace CInterop

open HeapM Heap

/-! ## Stores -/

/-- Whether a slot of that target is exchanged as a text. -/
def TargetOf.isText : Target → Bool
  | .cstring | .wstring _ => true
  | _ => false

/-- The block that a pointer value points into. -/
def Value.block? (value : Value) : Option Block := value.toPointer?.bind (·.block?)

/-- A value that is stored in a slot. -/
structure PointerStore where
  view : View
  offset : Nat
  target : Target
  value : Value

namespace PointerStore

/-- The offset of the slot in its block. -/
def slot (store : PointerStore) : Nat := store.view.start + store.offset

def type (store : PointerStore) : CType := .pointer store.target .w64

def run (store : PointerStore) : HeapM Unit :=
  store.view.write store.type store.offset store.value

/-- Whether the block has to keep alive what is stored: it keeps texts, and blocks but itself. -/
def keeps (block : Block) (store : PointerStore) : Bool :=
  match store.value with
  | .text _ => true
  | value => value.block?.any (!block.same ·)

end PointerStore

/-- The values that are stored in a slot of some target: null in all, addresses where no text is
expected, and texts without zero characters where one is. -/
inductive Suits : Target → Value → Prop
  | null {target : Target} : Suits target .null
  | int {target : Target} {i : Int64} (plain : target.isText = false) (natural : 0 ≤ i) :
    Suits target (.int i)
  | uint {target : Target} {u : UInt64} (plain : target.isText = false) : Suits target (.uint u)
  | pointer {target : Target} {p : Pointer} (plain : target.isText = false) :
    Suits target (.pointer p)
  | narrow {s : String} (solid : '\x00' ∉ s.toList) : Suits .cstring (.text s)
  | wide {unit : Nat} {s : String} (wide : Text.Wide.IsUnit unit) (solid : '\x00' ∉ s.toList) :
    Suits (.wstring unit) (.text s)

/-- What is read from a slot in which a value was stored: null and texts are read as such where
texts are exchanged, and anything else as a pointer to the address, which is in the block that it
was stored for if it lay inside. -/
inductive Recalls : Target → Value → Value → Prop
  | null {target : Target} (text : target.isText = true) : Recalls target .null .null
  | text {target : Target} {s : String} (text : target.isText = true) :
    Recalls target (.text s) (.text s)
  | pointer {target : Target} {stored : Value} {p : Pointer} {address : UInt64}
    (plain : target.isText = false) (pointee : p.target = target.pointee)
    (located : p.address = .ok address)
    (found : ∀ heap : Heap, heap.addressOf? stored = some address)
    (backed : ∀ q block offset, stored = .pointer q → q.place = .inBlock block offset →
      offset.toNat < block.length → p.place = .inBlock block offset) :
    Recalls target stored (.pointer p)

/-- What a block may be asked to store, when some items are known and some stores were made: a
suitable value, which points into no block but a known one, in a slot of the block that is the slot
of an earlier store or apart from it. -/
structure PointerStore.Allowed (block : Block) (items : List Kept) (earlier : List PointerStore)
    (store : PointerStore) : Prop where
  within : store.view.block = block
  window : store.view.start + store.view.length ≤ block.length
  inside : store.offset + 8 ≤ store.view.length
  suits : Suits store.target store.value
  known : ∀ other, store.value.block? = some other → .block other ∈ items
  apart : ∀ other ∈ earlier, other.slot = store.slot ∨ other.slot + 8 ≤ store.slot
    ∨ store.slot + 8 ≤ other.slot

/-! ## What an address stands for -/

/-- The address and the item that are stored for a value, whose text lies in memory. The block is
not asked to keep itself. -/
inductive Encodes (block : Block) (memory : Memory) : Target → Value → UInt64 → Option Kept → Prop
  | null {target : Target} (text : target.isText = true) : Encodes block memory target .null 0 none
  | plain {target : Target} {value : Value} {address : UInt64} (plain : target.isText = false)
    (found : ∀ heap : Heap, heap.addressOf? value = some address)
    (bare : ∀ s, value ≠ .text s) :
    Encodes block memory target value address
      ((value.block?.map .block).filter (!isSelf block ·))
  | narrow {s : String} {address : UInt64} (nonzero : address ≠ 0)
    (holds : memory.load address.toNat (Text.Utf8.encode s).length = Text.Utf8.encode s) :
    Encodes block memory .cstring (.text s) address
      (some (.text address.toNat (Text.Utf8.encode s).length))
  | wide {unit : Nat} {s : String} {other : Block} (wide : Text.Wide.IsUnit unit)
    (solid : '\x00' ∉ s.toList) (nonzero : other.address ≠ 0) (foreign : block.same other = false)
    (holds : memory.load other.base other.length = Text.Wide.encode unit s) :
    Encodes block memory (.wstring unit) (.text s) other.address (some (.block other))

namespace Encodes

variable {block : Block} {memory after : Memory} {target : Target} {value : Value}
  {address : UInt64} {item : Option Kept}

/-- What is encoded stays so while the bytes of the item stay. -/
theorem keep (encodes : Encodes block memory target value address item)
    (same : ∀ kept, item = some kept →
      after.load kept.start kept.length = memory.load kept.start kept.length) :
    Encodes block after target value address item := by
  cases encodes with
  | null text => exact .null text
  | plain plain found bare => exact .plain plain found bare
  | narrow nonzero holds => exact .narrow nonzero ((same _ rfl).trans holds)
  | wide wide solid nonzero foreign holds =>
    exact .wide wide solid nonzero foreign ((same _ rfl).trans holds)

theorem foreign (encodes : Encodes block memory target value address item) {kept : Kept}
    (found : item = some kept) : isSelf block kept = false := by
  cases encodes with
  | null => cases found
  | plain => simpa using (Option.filter_eq_some_iff.mp found).2
  | narrow =>
    cases found
    rfl
  | wide _ _ _ foreign =>
    cases found
    exact foreign

theorem eq_of_block (encodes : Encodes block memory target value address item) {other : Block}
    {kept : Kept} (own : value.block? = some other) (found : item = some kept) :
    kept = .block other := by
  cases encodes with
  | null | narrow | wide => cases own
  | plain =>
    rw [own] at found
    exact (Option.some.inj (Option.filter_eq_some_iff.mp found).1).symm

end Encodes

/-! ## Addresses that are found -/

/-- Bytes on fresh memory stay when a word is stored before them. -/
theorem Memory.load_fresh (memory : Memory) {start place count : Nat} (bytes more : Bytes)
    (word : UInt64) (behind : place + count ≤ start) :
    ((memory.store start (bytes ++ more)).storeWord place count word).load start bytes.length
      = bytes := by
  have inside : bytes.length ≤ (bytes ++ more).length := by simp
  rw [storeWord, load_store_of_behind _ (by rwa [Bytes.length_ofWord]), ← take_load _ _ inside,
    load_store, List.take_left]

/-- The first free address is a word, and not zero behind a slot. -/
theorem Heap.toNat_frontier {heap middle : Heap} {length place : Nat}
    (room : heap.frontier + length < middle.frontier) (words : middle.frontier ≤ Word.modulus)
    (behind : place + 8 ≤ heap.frontier) :
    (UInt64.ofNat heap.frontier).toNat = heap.frontier ∧ UInt64.ofNat heap.frontier ≠ 0 := by
  have below : heap.frontier < UInt64.size := by
    have same : UInt64.size = Word.modulus := rfl
    omega
  have same : (UInt64.ofNat heap.frontier).toNat = heap.frontier :=
    UInt64.toNat_ofNat_of_lt' below
  refine ⟨same, fun zero => ?_⟩
  rw [zero, UInt64.toNat_zero] at same
  omega

/-- The address of a value is found. What it refers to is known or on fresh memory, where a text
stays when a slot before it is filled. -/
structure Finds (heap : Heap) (target : Target) (value : Value) (address : UInt64)
    (item : Option Kept) (middle : Heap) : Prop where
  found : addressFor (.pointer target .w64) target value heap = (.ok (address, item), middle)
  encodes : ∀ block place, block.id < heap.nextId → place + 8 ≤ heap.frontier →
    middle.frontier ≤ Word.modulus →
    Encodes block (middle.memory.storeWord place 8 address) target value address
      (item.filter (!isSelf block ·))
  source : ∀ kept, item = some kept →
    (∃ other, value.block? = some other ∧ kept = .block other) ∨ Fresh heap middle kept

namespace Finds

variable {target : Target} {value : Value}

theorem exists_narrow {s : String} (solid : '\x00' ∉ s.toList) (heap : Heap) :
    ∃ address item middle, Finds heap .cstring (.text s) address item middle := by
  have room := frontier_reserve ((Text.Utf8.encode s).length + 1) heap
  refine ⟨.ofNat heap.frontier, some (.text heap.frontier (Text.Utf8.encode s).length), _,
    bind_of_ok (storeText_run (Text.Utf8.zero_notMem_encode solid) heap), ?encodes, ?source⟩
  case encodes =>
    intro block place _ behind words
    obtain ⟨same, nonzero⟩ := toNat_frontier room words behind
    have stored := heap.memory.load_fresh (Text.Utf8.encode s) [0] (.ofNat heap.frontier) behind
    have encodes : Encodes block _ .cstring (.text s) (.ofNat heap.frontier) _ :=
      .narrow nonzero (by rw [same]; exact stored)
    rwa [same] at encodes
  case source =>
    intro kept found
    cases found
    exact .inr ⟨rfl, Nat.lt_of_succ_lt room, fun other same => by cases same⟩

theorem exists_wide {unit : Nat} {s : String} (wide : Text.Wide.IsUnit unit)
    (solid : '\x00' ∉ s.toList) (heap : Heap)
    (fits : (Text.Wide.encode unit s).length ≤ largestBlock) :
    ∃ address item middle, Finds heap (.wstring unit) (.text s) address item middle := by
  have room := frontier_reserve (Text.Wide.encode unit s).length heap
  let own : Block := ⟨heap.nextId, heap.frontier, (Text.Wide.encode unit s).length, false⟩
  refine ⟨own.address, some (.block own), _, bind_of_ok (storeWide_run heap fits), ?encodes,
    ?source⟩
  case encodes =>
    intro block place known behind words
    have nonzero := (toNat_frontier room words behind).2
    have stored := heap.memory.load_fresh (Text.Wide.encode unit s) [] own.address behind
    rw [List.append_nil] at stored
    have foreign : block.same own = false := beq_eq_false_iff_ne.mpr (Nat.ne_of_lt known)
    have others : (some (Kept.block own)).filter (!isSelf block ·) = some (.block own) := by
      simp [isSelf, foreign]
    rw [others]
    exact .wide wide solid nonzero foreign stored
  case source =>
    intro kept found
    cases found
    refine .inr ⟨rfl, room, fun other same => ?_⟩
    cases same
    exact ⟨rfl, Nat.lt_succ_self _⟩

theorem of_address {address : UInt64} {heap : Heap}
    (found : addressFor (.pointer target .w64) target value heap
      = (.ok (address, value.block?.map .block), heap))
    (plain : target.isText = false) (same : ∀ heap : Heap, heap.addressOf? value = some address)
    (bare : ∀ s, value ≠ .text s) :
    ∃ address item middle, Finds heap target value address item middle := by
  refine ⟨address, _, heap, found, fun _ _ _ _ _ => .plain plain same bare, fun kept own => ?_⟩
  obtain ⟨other, inside, rfl⟩ := Option.map_eq_some_iff.mp own
  exact .inl ⟨other, inside, rfl⟩

end Finds

/-- Wide texts take a block of their own, which may only be so large, and the address of a pointer
is a word. -/
structure PointerStore.Fits (store : PointerStore) : Prop where
  room : ∀ unit s, store.target = .wstring unit → store.value = .text s →
    (Text.Wide.encode unit s).length ≤ largestBlock
  located : ∀ p, store.value = .pointer p → ∃ address, p.address = .ok address

theorem exists_finds {store : PointerStore} (suits : Suits store.target store.value)
    (fits : store.Fits) (heap : Heap) :
    ∃ address item middle, Finds heap store.target store.value address item middle := by
  obtain ⟨view, offset, target, value⟩ := store
  cases suits with
  | null =>
    cases text : target.isText with
    | true =>
      refine ⟨0, none, heap, rfl, fun _ _ _ _ _ => .null text, fun _ found => ?_⟩
      cases found
    | false => exact Finds.of_address rfl text (fun _ => rfl) fun _ same => by cases same
  | int plain natural =>
    refine Finds.of_address ?_ plain (fun _ => rfl) fun _ same => by cases same
    rw [addressFor, if_pos natural]
    rfl
  | uint plain => exact Finds.of_address rfl plain (fun _ => rfl) fun _ same => by cases same
  | @pointer _ p plain =>
    obtain ⟨address, located⟩ := fits.located p rfl
    have denotes (heap : Heap) : heap.addressOf? (.pointer p) = some address :=
      congrArg Except.toOption located
    refine Finds.of_address ?_ plain denotes fun _ same => by cases same
    exact HeapM.bind_eq_ok.mpr ⟨address, heap, HeapM.lift_eq_ok.mpr ⟨located, rfl⟩, rfl⟩
  | narrow solid => exact Finds.exists_narrow solid heap
  | wide wide solid => exact Finds.exists_wide wide solid heap (fits.room _ _ rfl rfl)

/-! ## Slots that are filled -/

namespace View

variable {view : View} {offset : Nat} {target : Target} {width : Width} {value : Value}
  {address : UInt64} {item : Option Kept} {heap middle : Heap}

/-- A slot is filled with the address that was found, and what it refers to is noted. -/
theorem writePointer_run (inside : offset + width.bytes ≤ view.length)
    (found : addressFor (.pointer target width) target value heap = (.ok (address, item), middle)) :
    view.writeScalar (.pointer target width) offset value heap
      = (.ok (), Note.apply ⟨view.span offset width.bytes, item⟩
          { middle with
            memory := middle.memory.storeWord (view.place offset) width.bytes address }) :=
  (bind_of_ok (target_of_le inside)).trans (bind_of_ok found)

end View

theorem Suits.ne_object {target : Target} {value : Value} (suits : Suits target value)
    (x : Instance) : value ≠ .object x := by
  rintro rfl
  cases suits

namespace PointerStore

variable {block : Block} {items : List Kept} {earlier : List PointerStore} {store : PointerStore}
  {limit : Nat} {heap middle after : Heap} {address : UInt64} {item : Option Kept}

theorem run_eq (suits : Suits store.target store.value) :
    store.run = store.view.writeScalar store.type store.offset store.value :=
  View.write_of_plain suits.ne_object rfl rfl

theorem fits_of_run (suits : Suits store.target store.value)
    (ran : store.run heap = (.ok (), after)) : store.Fits := by
  rw [run_eq suits] at ran
  obtain ⟨_, _, -, rest⟩ := HeapM.bind_eq_ok.mp ran
  obtain ⟨_, _, found, -⟩ := HeapM.bind_eq_ok.mp rest
  constructor
  · intro unit s wide text
    rw [wide, text] at found
    obtain ⟨_, _, stored, -⟩ := HeapM.bind_eq_ok.mp found
    obtain ⟨_, _, allocated, -⟩ := HeapM.bind_eq_ok.mp stored
    exact le_of_allocate_eq_ok allocated
  · intro p pointer
    rw [pointer] at found
    obtain ⟨address, _, lifted, -⟩ := HeapM.bind_eq_ok.mp found
    exact ⟨address, (HeapM.lift_eq_ok.mp lifted).1⟩

/-- A value that a block may be asked to store is stored, unless it is too large. -/
theorem Allowed.exists_run (allowed : store.Allowed block items earlier) (fits : store.Fits)
    (heap : Heap) : ∃ address item middle, Finds heap store.target store.value address item middle
      ∧ store.run heap = (.ok (), Note.apply ⟨⟨block, store.slot, 8⟩, item⟩
          { middle with
            memory := middle.memory.storeWord (block.base + store.slot) 8 address }) := by
  obtain ⟨address, item, middle, finds⟩ := exists_finds allowed.suits fits heap
  refine ⟨address, item, middle, finds, ?_⟩
  have place : store.view.place store.offset = block.base + store.slot := by
    rw [View.place, allowed.within, Nat.add_assoc]
    rfl
  rw [run_eq allowed.suits, type, View.writePointer_run allowed.inside finds.found, place,
    View.span, allowed.within]
  rfl

/-- A store changes the bytes of its slot and what its block keeps. -/
theorem Allowed.changed (allowed : store.Allowed block items earlier)
    (ran : store.run heap = (.ok (), after)) :
    ChangedOnly (fun i => 8 * (block.base + store.slot) ≤ i
      ∧ i < 8 * (block.base + store.slot + 8)) (· = block.id) heap after := by
  rw [run_eq allowed.suits] at ran
  have even (size : Nat) : store.type ≠ .stray size := fun kind => nomatch kind
  refine (View.touches_writeScalar ?_ (fun size kind => absurd kind (even size))
    (by rw [allowed.within])).changed ran
  intro i above below _
  have size : store.type.size = 8 := rfl
  rw [View.place, allowed.within] at above below
  rw [size] at below
  simp only [slot]
  omega

/-- What a store leaves behind: the address in the slot, and an entry for what it refers to. -/
structure Leaves (block : Block) (store : PointerStore) (heap after : Heap) (address : UInt64)
    (item : Option Kept) : Prop where
  kept : after.kept = (Note.apply ⟨⟨block, store.slot, 8⟩, item⟩ heap).kept
  word : after.memory.loadWord (block.base + store.slot) 8 = address
  encodes : Encodes block after.memory store.target store.value address
    (item.filter (!isSelf block ·))
  source : ∀ kept, item = some kept →
    (∃ other, store.value.block? = some other ∧ kept = .block other) ∨ Fresh heap after kept

theorem Allowed.slot_le (allowed : store.Allowed block items earlier) :
    store.slot + 8 ≤ block.length := by
  have window := allowed.window
  have inside := allowed.inside
  unfold slot
  omega

theorem Allowed.exists_leaves (allowed : store.Allowed block items earlier)
    (tidy : Tidy limit block items heap) (ran : store.run heap = (.ok (), after))
    (words : after.frontier ≤ Word.modulus) :
    ∃ address item, store.Leaves block heap after address item := by
  have room := allowed.slot_le
  have below := tidy.below
  obtain ⟨address, item, middle, finds, exact_run⟩ :=
    allowed.exists_run (fits_of_run allowed.suits ran) heap
  obtain rfl := congrArg Prod.snd (ran.symm.trans exact_run)
  have unchanged : middle.kept = heap.kept := (neutral_addressFor _ _ _).kept finds.found
  refine ⟨address, item, { kept := ?kept, word := ?word, encodes := ?encodes, source := ?source }⟩
  case kept => exact Note.apply_congr _ unchanged
  case word => exact Spot.loadWord_storeWord _ _ (by decide) fun i beyond => Bits.bit_of_ge _ beyond
  case encodes => exact finds.encodes block _ (tidy.known block tidy.own) (by omega) words
  case source =>
    intro kept found
    exact (finds.source kept found).imp_right fun fresh => ⟨fresh.start, fresh.room, fresh.known⟩

end PointerStore

end CInterop
