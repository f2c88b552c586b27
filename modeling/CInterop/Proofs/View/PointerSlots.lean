import CInterop.Proofs.View.PointerStores

/-!
# Pointer slots

Values are stored in slots of a block that do not overlap. Every slot remembers what was stored in
it last (`PointerStore.remembers_of_run`): the block keeps what its address refers to, and what is
read is what was stored. The invariant is `PointerStore.Consistent`; a store settles its own slot
and leaves the others settled (`PointerStore.Settled.keep`), and an address is found among all
entries of the block because nothing that is known aliases anything else.
-/

namespace CInterop

open HeapM Heap

/-! ## Slots that hold what was stored -/

namespace PointerStore

variable {block : Block} {given items more : List Kept} {earlier stores : List PointerStore}
  {store : PointerStore} {limit : Nat} {start heap after : Heap} {address : UInt64}
  {item : Option Kept} {offset : Nat} {kept : Kept}

/-- Whether an offset of the block is in the slot. -/
def Spans (store : PointerStore) (offset : Nat) : Prop :=
  store.slot ≤ offset ∧ offset < store.slot + 8

instance : Decidable (store.Spans offset) := inferInstanceAs (Decidable (_ ∧ _))

theorem Leaves.mem_keptBy (leaves : store.Leaves block heap after address item)
    (ordered : heap.Ordered) (words : store.slot + 8 < Word.modulus) :
    (offset, kept) ∈ after.keptBy block ↔
      offset = store.slot ∧ item.filter (!isSelf block ·) = some kept
        ∨ ¬ store.Spans offset ∧ (offset, kept) ∈ heap.keptBy block := by
  have own : block.same block = true := beq_self_eq_true _
  have takes : Note.Takes ⟨⟨block, store.slot, 8⟩, item⟩ block offset ↔ store.Spans offset := by
    simp only [Note.Takes, Span.covers, Span.finish, own, true_and, Spans]
    omega
  have applied : after.keptBy block
      = (Note.apply ⟨⟨block, store.slot, 8⟩, item⟩ heap).keptBy block :=
    congrFun leaves.kept block.id
  rw [applied, ordered.mem_apply, takes]
  simp only [Note.Puts, Note.kept, own, true_and, eq_comm]

/-- The items stay tidy when a store is made. -/
theorem Leaves.tidy (leaves : store.Leaves block heap after address item)
    (allowed : store.Allowed block items earlier) (tidy : Tidy limit block items heap)
    (ran : store.run heap = (.ok (), after)) (room : after.frontier ≤ limit)
    (words : limit < Word.modulus) :
    Tidy limit block ((after.keptBy block).map (·.2) ++ items) after := by
  have changed := allowed.changed ran
  have inside := allowed.slot_le
  have below := tidy.below
  have grown := changed.frontier
  obtain ⟨brought, fresh, source⟩ : ∃ brought,
      (∀ kept, brought = some kept → Fresh heap after kept)
        ∧ ∀ kept, item = some kept → kept ∈ items ∨ brought = some kept := by
    cases item with
    | none => exact ⟨none, by simp, by simp⟩
    | some new =>
      rcases leaves.source new rfl with ⟨other, own, rfl⟩ | fresh
      · refine ⟨none, by simp, fun kept same => ?_⟩
        cases same
        exact .inl (allowed.known other own)
      · refine ⟨some new, fun kept same => ?_, fun _ => .inr⟩
        cases same
        exact fresh
  have listed : ∀ entry ∈ after.keptBy block, entry.2 ∈ (after.keptBy block).map (·.2) ++ items :=
    fun entry mem => List.mem_append_left _ (List.mem_map_of_mem mem)
  refine tidy.grow brought grown changed.nextId room words ?ordered fresh
    (fun _ => List.mem_append_right _) ?all listed
  case ordered =>
    intro other
    have applied := congrFun leaves.kept other.id
    unfold keptBy
    rw [applied]
    exact tidy.ordered.apply _ other
  case all =>
    intro kept mem
    rcases List.mem_append.mp mem with mem | mem
    · obtain ⟨⟨offset, kept⟩, entry, rfl⟩ := List.mem_map.mp mem
      rcases (leaves.mem_keptBy tidy.ordered (by omega)).mp entry with ⟨-, own⟩ | ⟨-, old⟩
      · exact source kept (Option.filter_eq_some_iff.mp own).1
      · exact .inl (tidy.kept _ old)
    · exact .inl mem

/-- A slot holds the address of what was stored in it, and what it refers to is kept alive for it
and nothing else. -/
structure Settled (block : Block) (items : List Kept) (heap : Heap) (store : PointerStore)
    (address : UInt64) (item : Option Kept) : Prop where
  inside : store.slot + 8 ≤ block.length
  word : heap.memory.loadWord (block.base + store.slot) 8 = address
  entries : ∀ offset kept, store.Spans offset →
    ((offset, kept) ∈ heap.keptBy block ↔ offset = store.slot ∧ item = some kept)
  encodes : Encodes block heap.memory store.target store.value address item
  known : ∀ other, store.value.block? = some other → .block other ∈ items

theorem Settled.mem_keptBy (settled : Settled block items heap store address item)
    (found : item = some kept) : (store.slot, kept) ∈ heap.keptBy block :=
  (settled.entries _ kept ⟨Nat.le_refl _, Nat.lt_add_of_pos_right (by decide)⟩).mpr ⟨rfl, found⟩

theorem Settled.of_leaves (leaves : store.Leaves block heap after address item)
    (allowed : store.Allowed block items earlier) (ordered : heap.Ordered)
    (words : store.slot + 8 < Word.modulus) (old : ∀ item ∈ items, item ∈ more) :
    Settled block more after store address (item.filter (!isSelf block ·)) := by
  refine ⟨allowed.slot_le, leaves.word, fun offset kept spans => ?_, leaves.encodes,
    fun other own => old _ (allowed.known other own)⟩
  rw [leaves.mem_keptBy ordered words]
  simp [spans]

/-- A slot stays as it is while other bytes of the block change and the entries of other slots. -/
theorem Settled.keep (settled : Settled block items heap store address item)
    (tidy : Tidy limit block items heap) (room : after.frontier ≤ limit) {bits blocks : Nat → Prop}
    (changed : ChangedOnly bits blocks heap after)
    (within : ∀ i, bits i → 8 * block.base ≤ i ∧ i < 8 * (block.base + block.length))
    (spared : ∀ i, 8 * (block.base + store.slot) ≤ i → i < 8 * (block.base + store.slot + 8) →
      ¬ bits i)
    (same : ∀ offset kept, store.Spans offset →
      ((offset, kept) ∈ after.keptBy block ↔ (offset, kept) ∈ heap.keptBy block))
    (old : ∀ item ∈ items, item ∈ more) : Settled block more after store address item := by
  have inside := settled.inside
  have below := tidy.below
  refine
    { inside, word := ?word, entries := ?entries, encodes := ?encodes
      known := fun other own => old _ (settled.known other own) }
  case word =>
    rw [Memory.loadWord, changed.load_of_free spared (.inl (by omega))]
    exact settled.word
  case entries =>
    intro offset kept spans
    rw [same offset kept spans, settled.entries offset kept spans]
  case encodes =>
    refine settled.encodes.keep fun kept found => ?_
    have mem := tidy.kept _ (settled.mem_keptBy found)
    -- The item is not the block itself, and thus lies beside it.
    have apart : kept.start + max 1 kept.length ≤ block.base
        ∨ block.base + max 1 block.length ≤ kept.start := by
      refine (tidy.apart kept mem _ tidy.own).resolve_left fun equal => ?_
      have foreign := settled.encodes.foreign found
      rw [equal] at foreign
      exact absurd (beq_self_eq_true block.id) (Bool.eq_false_iff.mp foreign)
    have lies := tidy.lies kept mem
    refine changed.load_of_free (fun i above under touched => ?_) ?_
    · have place := within i touched
      omega
    · omega

/-- A slot stays as it is when a store is made in another. -/
theorem Settled.beside (settled : Settled block items heap store address item)
    (tidy : Tidy limit block items heap) {other : PointerStore} {word : UInt64}
    {entry : Option Kept} (leaves : other.Leaves block heap after word entry)
    (allowed : other.Allowed block items earlier) (ran : other.run heap = (.ok (), after))
    (apart : store.slot + 8 ≤ other.slot ∨ other.slot + 8 ≤ store.slot)
    (room : after.frontier ≤ limit) (small : other.slot + 8 < Word.modulus)
    (old : ∀ item ∈ items, item ∈ more) : Settled block more after store address item := by
  have inside := allowed.slot_le
  refine settled.keep tidy room (allowed.changed ran) ?_ ?_ ?_ old
  · intro i touched
    omega
  · intro i above under touched
    omega
  · intro offset kept spans
    unfold Spans at spans
    have beside : offset ≠ other.slot := by omega
    have away : ¬ other.Spans offset := by
      unfold Spans
      omega
    simp [leaves.mem_keptBy tidy.ordered small, beside, away]

/-! ## Runs -/

theorem fresh_of_allocate {length : Nat} {other : Block}
    (ran : allocate length heap = (.ok other, after)) : Fresh heap after (.block other) := by
  have room := room_of_allocate ran
  have next := congrArg (·.2.nextId) (ran.symm.trans (allocate_run heap (le_of_allocate_eq_ok ran)))
  obtain rfl := allocate_eq_ok ran
  have positive : 0 < gap := by decide
  refine ⟨rfl, by simp only [Kept.start, Kept.length]; omega, fun other same => ?_⟩
  cases same
  exact ⟨rfl, next ▸ Nat.lt_succ_self _⟩

/-- A fresh block is tidy, as long as nothing is kept for its number. -/
theorem tidy_of_allocate {length : Nat} (ran : allocate length heap = (.ok block, after))
    (ordered : heap.Ordered) (bare : heap.kept heap.nextId = [])
    (words : after.frontier ≤ Word.modulus) : Tidy limit block [.block block] after := by
  have fresh := fresh_of_allocate ran
  obtain ⟨id, grown⟩ := fresh.known block rfl
  have room : block.base + block.length < after.frontier := fresh.room
  have kept : after.kept = heap.kept := (neutral_allocate length).kept ran
  have only {other : Block} (mem : .block other ∈ [Kept.block block]) : other = block :=
    Kept.block.inj (List.mem_singleton.mp mem)
  refine
    { own := List.mem_singleton_self _, below := Nat.le_of_lt room, ordered := ?ordered
      kept := ?kept, lies := ?lies, known := ?known, words := ?words, apart := ?apart
      identity := ?identity }
  case ordered =>
    intro other
    rw [keptBy, kept]
    exact ordered other
  case kept =>
    intro entry mem
    rw [keptBy, kept, id, bare] at mem
    cases mem
  case lies =>
    intro item mem
    cases List.mem_singleton.mp mem
    exact .inl room
  case known =>
    intro other mem
    rw [only mem, id]
    exact grown
  case words =>
    intro other mem
    rw [only mem]
    exact ⟨by omega, by omega⟩
  case apart =>
    intro a a_mem b b_mem
    exact .inl ((List.mem_singleton.mp a_mem).trans (List.mem_singleton.mp b_mem).symm)
  case identity =>
    intro a b a_mem b_mem _
    rw [only a_mem, only b_mem]

/-- Stores into a block, the latest first, with the items that are known afterwards. Blocks may be
allocated in between. -/
inductive Run (block : Block) (given : List Kept) (start : Heap) :
    List PointerStore → List Kept → Heap → Prop
  | start : Run block given start [] given start
  | store {stores : List PointerStore} {items : List Kept} {heap after : Heap}
    {store : PointerStore} (run : Run block given start stores items heap)
    (allowed : store.Allowed block items stores) (ran : store.run heap = (.ok (), after)) :
    Run block given start (store :: stores) ((after.keptBy block).map (·.2) ++ items) after
  | allocate {stores : List PointerStore} {items : List Kept} {heap after : Heap} {length : Nat}
    {other : Block} (run : Run block given start stores items heap)
    (ran : allocate length heap = (.ok other, after)) :
    Run block given start stores (.block other :: items) after

/-- A run goes on with any value that the block may be asked to store. -/
theorem Run.next (run : Run block given start stores items heap) (store : PointerStore)
    (allowed : store.Allowed block items stores) (fits : store.Fits) :
    Run block given start (store :: stores) (((store.run heap).2.keptBy block).map (·.2) ++ items)
      (store.run heap).2 := by
  obtain ⟨_, _, _, -, ran⟩ := allowed.exists_run fits heap
  exact run.store allowed (by rw [ran])

/-- The latest store in a slot. -/
def latest? (stores : List PointerStore) (slot : Nat) : Option PointerStore :=
  stores.find? (·.slot == slot)

/-- Every slot holds what was stored in it last, and beside the slots the same is kept as at first.
-/
structure Consistent (limit : Nat) (block : Block) (start : Heap) (stores : List PointerStore)
    (items : List Kept) (heap : Heap) : Prop where
  tidy : Tidy limit block items heap
  settled : ∀ slot store, latest? stores slot = some store →
    ∃ address item, Settled block items heap store address item
  others : ∀ offset kept, (∀ store ∈ stores, ¬ store.Spans offset) →
    ((offset, kept) ∈ heap.keptBy block ↔ (offset, kept) ∈ start.keptBy block)

/-- A store settles its own slot, and leaves the others settled. -/
theorem Consistent.write (consistent : Consistent limit block start stores items heap)
    (allowed : store.Allowed block items stores) (ran : store.run heap = (.ok (), after))
    (room : after.frontier ≤ limit) (words : limit < Word.modulus) :
    Consistent limit block start (store :: stores) ((after.keptBy block).map (·.2) ++ items)
      after := by
  obtain ⟨tidy, settled, others⟩ := consistent
  have changed := allowed.changed ran
  have grown := changed.frontier
  have inside := allowed.slot_le
  have below := tidy.below
  have small : store.slot + 8 < Word.modulus := by omega
  obtain ⟨address, item, leaves⟩ := allowed.exists_leaves tidy ran (by omega)
  have old : ∀ item ∈ items, item ∈ (after.keptBy block).map (·.2) ++ items :=
    fun _ => List.mem_append_right _
  refine ⟨leaves.tidy allowed tidy ran room words, ?settled, ?others⟩
  case settled =>
    intro slot latest found
    rw [latest?, List.find?_cons] at found
    split at found
    case h_1 own =>
      cases found
      exact ⟨address, _, .of_leaves leaves allowed tidy.ordered small old⟩
    case h_2 other =>
      obtain ⟨before, kept_before, holds⟩ := settled slot latest found
      have at_slot := List.find?_some found
      rw [beq_iff_eq] at at_slot
      have apart := (allowed.apart latest (List.mem_of_find?_eq_some found)).resolve_left
        fun same => beq_eq_false_iff_ne.mp other (same.symm.trans at_slot)
      exact ⟨before, kept_before, holds.beside tidy leaves allowed ran apart room small old⟩
  case others =>
    intro offset kept free
    obtain ⟨own, rest⟩ := List.forall_mem_cons.mp free
    rw [leaves.mem_keptBy tidy.ordered small, ← others offset kept rest]
    have beside : offset ≠ store.slot := by
      rintro rfl
      exact own ⟨Nat.le_refl _, by omega⟩
    simp [own, beside]

theorem Consistent.allocate (consistent : Consistent limit block start stores items heap)
    {length : Nat} {other : Block} (ran : Heap.allocate length heap = (.ok other, after))
    (room : after.frontier ≤ limit) (words : limit < Word.modulus) :
    Consistent limit block start stores (.block other :: items) after := by
  obtain ⟨tidy, settled, others⟩ := consistent
  have changed : ChangedOnly ChangedOnly.Nothing ChangedOnly.Nothing heap after :=
    (touches_allocate length).changed ran
  have same : after.kept = heap.kept := (neutral_allocate length).kept ran
  have kept (other : Block) : after.keptBy other = heap.keptBy other := congrFun same other.id
  have old : ∀ item ∈ items, item ∈ .block other :: items := fun _ => List.mem_cons_of_mem _
  refine ⟨?tidy, ?settled, ?others⟩
  case tidy =>
    refine tidy.grow (some (.block other)) changed.frontier changed.nextId room words
      (fun other => kept other ▸ tidy.ordered other) ?_ old ?_ ?_
    · intro item same
      cases same
      exact fresh_of_allocate ran
    · intro item mem
      exact (List.mem_cons.mp mem).symm.imp_right fun same => congrArg some same.symm
    · intro entry mem
      rw [kept] at mem
      exact old _ (tidy.kept entry mem)
  case settled =>
    intro slot store found
    obtain ⟨address, item, holds⟩ := settled slot store found
    refine ⟨address, item, holds.keep tidy room changed (fun _ => False.elim) ?_ ?_ old⟩
    · exact fun _ _ _ touched => touched
    · intro offset item _
      rw [kept]
  case others =>
    intro offset item free
    rw [kept, others offset item free]

theorem consistent_of_run (run : Run block given start stores items heap)
    (tidy : Tidy limit block given start) (room : heap.frontier ≤ limit)
    (words : limit < Word.modulus) : Consistent limit block start stores items heap := by
  induction run with
  | start => exact ⟨tidy, fun _ _ found => (by cases found), fun _ _ _ => Iff.rfl⟩
  | store run allowed ran ih =>
    have grown := (allowed.changed ran).frontier
    exact (ih (Nat.le_trans grown room)).write allowed ran room words
  | @allocate stores items heap after length other run ran ih =>
    have changed : ChangedOnly ChangedOnly.Nothing ChangedOnly.Nothing heap after :=
      (touches_allocate length).changed ran
    exact (ih (Nat.le_trans changed.frontier room)).allocate ran room words

end PointerStore

/-! ## Reading back -/

/-- An address is read as a pointer into the block that it is resolved to, or else as a foreign
one. -/
theorem Heap.pointerValue_cases (heap : Heap) (block : Block) {target : Target}
    (plain : target.isText = false) (address : UInt64) :
    (heap.resolve? block address = none
        ∧ heap.pointerValue block target address = .pointer (.foreign target.pointee address))
      ∨ ∃ other distance, heap.resolve? block address = some (other, distance)
        ∧ heap.pointerValue block target address
            = .pointer (.inBlock target.pointee other (.ofNat distance)) := by
  cases found : heap.resolve? block address with
  | none =>
    refine .inl ⟨rfl, ?_⟩
    cases target with
    | cstring | wstring => cases plain
    | untyped | typed => simp only [pointerValue, found]
  | some place =>
    refine .inr ⟨place.1, place.2, rfl, ?_⟩
    cases target with
    | cstring | wstring => cases plain
    | untyped | typed => simp only [pointerValue, found]

/-- The pointer that is read for an address holds it, and is in the block that it is resolved to. -/
theorem Heap.Tidy.exists_pointerValue {limit : Nat} {block : Block} {items : List Kept}
    {heap : Heap} (tidy : Tidy limit block items heap) {target : Target}
    (plain : target.isText = false)
    (address : UInt64) :
    ∃ p, heap.pointerValue block target address = .pointer p ∧ p.target = target.pointee
      ∧ p.address = .ok address ∧ ∀ other distance,
        heap.resolve? block address = some (other, distance) →
          p.place = .inBlock other (.ofNat distance) := by
  rcases heap.pointerValue_cases block plain address with
    ⟨none, read⟩ | ⟨other, distance, found, read⟩
  · refine ⟨_, read, rfl, Place.address_ofAddress address, fun other distance same => ?_⟩
    cases none.symm.trans same
  · refine ⟨_, read, rfl, tidy.address_of_resolve? found, fun other distance same => ?_⟩
    cases found.symm.trans same
    rfl

namespace PointerStore

variable {block : Block} {given items : List Kept} {stores : List PointerStore}
  {store : PointerStore} {limit : Nat} {start heap : Heap} {address : UInt64} {item : Option Kept}
  {offset : Nat}

theorem Settled.recalls (settled : Settled block items heap store address item)
    (tidy : Tidy limit block items heap) :
    Recalls store.target store.value (heap.pointerValue block store.target address) := by
  obtain ⟨view, offset, target, value⟩ := store
  have listed (kept : Kept) (found : item = some kept) := settled.mem_keptBy found
  have known := settled.known
  have encodes := settled.encodes
  simp only at *
  cases encodes with
  | null text =>
    have zero : heap.pointerValue block target 0 = .null := by
      cases target <;> first | rfl | cases text
    rw [zero]
    exact .null text
  | plain plain found bare =>
    obtain ⟨p, read, pointee, located, resolved⟩ := tidy.exists_pointerValue plain address
    rw [read]
    refine .pointer plain pointee located found ?_
    rintro q other place rfl backed inside
    have own : q.block? = some other := by rw [Pointer.block?, backed]
    have at_place : address = other.address + place := by
      have own_address : q.place.address.toOption = some address := found heap
      rw [backed, toOption_eq_some] at own_address
      exact (Place.address_inBlock_eq_ok.mp own_address).2
    subst at_place
    have entry (foreign : isSelf block (.block other) = false) := listed (.block other)
      (Option.filter_eq_some_iff.mpr ⟨congrArg (Option.map Kept.block) own, by rw [foreign]; rfl⟩)
    refine (resolved other _ (tidy.resolve?_of_inside (known other own) inside entry)).trans ?_
    rw [UInt64.ofNat_toNat]
  | @narrow s address nonzero holds =>
    have found := tidy.keptText?_of_mem (listed _ rfl)
    have read : heap.pointerValue block .cstring address = .text s := by
      simp only [pointerValue, if_neg nonzero, found, holds, Text.Utf8.decode_encode]
    rw [read]
    exact .text rfl
  | @wide unit s other wide solid nonzero foreign holds =>
    have found := tidy.keptBlock?_of_mem (listed _ rfl)
    have read : heap.pointerValue block (.wstring unit) other.address = .text s := by
      simp only [pointerValue, if_neg nonzero, found, holds, Text.Wide.decode_encode wide,
        Text.Wide.beforeNul_of_solid solid]
    rw [read]
    exact .text rfl

theorem Settled.isSome_item (settled : Settled block items heap store address item) :
    item.isSome = store.keeps block := by
  obtain ⟨view, offset, target, value⟩ := store
  have encodes := settled.encodes
  simp only at encodes
  cases encodes with
  | null | narrow | wide => rfl
  | plain plain found bare =>
    have keeps : keeps block ⟨view, offset, target, value⟩ = value.block?.any (!block.same ·) := by
      unfold keeps
      split
      case h_1 text => exact absurd text (bare _)
      case h_2 => rfl
    rw [keeps]
    cases value.block? with
    | none => rfl
    | some other => cases foreign : block.same other <;> simp [isSelf, foreign]

/-- The entries for a slot are what its address refers to. -/
theorem Settled.filter_keptBy (settled : Settled block items heap store address item)
    (ordered : heap.Ordered) :
    (heap.keptBy block).filter (fun entry => store.Spans entry.1)
      = (item.map (store.slot, ·)).toList := by
  have listed (offset : Nat) (kept : Kept) :
      (offset, kept) ∈ (heap.keptBy block).filter (fun entry => store.Spans entry.1)
        ↔ offset = store.slot ∧ item = some kept := by
    rw [List.mem_filter, decide_eq_true_eq]
    constructor
    · exact fun ⟨mem, spans⟩ => (settled.entries offset kept spans).mp mem
    · rintro ⟨rfl, found⟩
      exact ⟨settled.mem_keptBy found, Nat.le_refl _, Nat.lt_add_of_pos_right (by decide)⟩
  cases item with
  | none =>
    refine List.eq_nil_iff_forall_not_mem.mpr fun ⟨offset, kept⟩ mem => ?_
    cases ((listed offset kept).mp mem).2
  | some own =>
    have distinct : (heap.keptBy block).Nodup := by
      refine (ordered block).imp ?_
      rintro a b before rfl
      exact Nat.lt_irrefl _ before
    refine List.perm_singleton.mp ((List.perm_ext_iff_of_nodup (distinct.filter _)
      (List.nodup_singleton _)).mpr fun ⟨offset, kept⟩ => ?_)
    rw [listed, Option.some.injEq, List.mem_singleton, Prod.mk.injEq, eq_comm (a := own)]

/-- The block keeps exactly one item alive for the slot of a store, or none, and what is read from
the slot is what was stored. -/
structure Remembers (block : Block) (heap : Heap) (store : PointerStore) : Prop where
  kept : store.keeps block = true → ∃ item,
    (heap.keptBy block).filter (fun entry => store.Spans entry.1) = [(store.slot, item)]
      ∧ ∀ other, store.value.block? = some other → item = .block other
  bare : store.keeps block = false →
    (heap.keptBy block).filter (fun entry => store.Spans entry.1) = []
  reads : ∀ (view : View) offset, view.block = block → view.start + offset = store.slot →
    offset + 8 ≤ view.length → ∃ result, view.read heap store.type offset = .ok result
      ∧ Recalls store.target store.value result

theorem Settled.remembers (settled : Settled block items heap store address item)
    (tidy : Tidy limit block items heap) : store.Remembers block heap := by
  have some_item := settled.isSome_item
  have entries := settled.filter_keptBy tidy.ordered
  refine ⟨fun keeps => ?_, fun keeps => ?_, ?_⟩
  · obtain ⟨kept, rfl⟩ := Option.isSome_iff_exists.mp (some_item.trans keeps)
    exact ⟨kept, entries, fun other own => settled.encodes.eq_of_block own rfl⟩
  · rw [keeps, Option.isSome_eq_false_iff, Option.isNone_iff_eq_none] at some_item
    rw [entries, some_item]
    rfl
  · intro view offset within at_slot inside
    have word : view.readWord heap offset 8 = .ok address := by
      rw [View.readWord_of_le inside, within, Nat.add_assoc, at_slot, settled.word]
    refine ⟨heap.pointerValue block store.target address, ?_, settled.recalls tidy⟩
    rw [type, View.read, Width.bytes, word, within]
    rfl

/-- Every slot remembers what was stored in it last, and beside the slots nothing is kept that was
not kept before. Any further value that the block may be asked to store is stored, unless it is too
large. -/
theorem remembers_of_run (run : Run block given start stores items heap)
    (tidy : Tidy limit block given start) (room : heap.frontier ≤ limit)
    (words : limit < Word.modulus) :
    (∀ slot store, latest? stores slot = some store → store.Remembers block heap)
      ∧ (∀ offset kept, (∀ store ∈ stores, ¬ store.Spans offset) →
          ((offset, kept) ∈ heap.keptBy block ↔ (offset, kept) ∈ start.keptBy block))
      ∧ ∀ store : PointerStore, store.Allowed block items stores → store.Fits →
          ∃ after, store.run heap = (.ok (), after) := by
  have consistent := consistent_of_run run tidy room words
  refine ⟨fun slot store latest => ?_, consistent.others, fun store allowed fits => ?_⟩
  · obtain ⟨address, item, settled⟩ := consistent.settled slot store latest
    exact settled.remembers consistent.tidy
  · obtain ⟨address, item, middle, -, ran⟩ := allowed.exists_run fits heap
    exact ⟨_, ran⟩

/-! ## Several stores -/

/-- A block for four pointers. -/
def slotsBlock : Block := ⟨0, 0x10000000000, 32, false⟩

/-- A block that is pointed into. -/
def targetBlock : Block := ⟨1, 0x10100000020, 16, false⟩

/-- A heap after the block for the pointers was allocated. -/
def slotsHeap : Heap := (Heap.allocate 32 .empty).2

/-- A value that is stored at an offset of the block. -/
def atOffset (offset : Nat) (target : Target) (value : Value) : PointerStore :=
  ⟨slotsBlock.view, offset, target, value⟩

/-- A pointer into another block. -/
def innerStore : PointerStore := atOffset 0 .untyped (.pointer (.inBlock .void targetBlock 4))

/-- A pointer into the block that it is stored in. -/
def selfStore : PointerStore := atOffset 8 .untyped (.pointer (.inBlock .void slotsBlock 24))

def narrowStore : PointerStore := atOffset 16 .cstring (.text "hi")

def wideStore : PointerStore := atOffset 24 (.wstring 4) (.text "λ")

/-- A null in place of a text. -/
def clearStore : PointerStore := atOffset 16 .cstring .null

/-- The stores, the latest first. -/
def mixedStores : List PointerStore := [clearStore, wideStore, narrowStore, selfStore, innerStore]

theorem allowed_atOffset {offset : Nat} {target : Target} {value : Value}
    (inside : offset + 8 ≤ 32) (suits : Suits target value)
    (known : ∀ other, value.block? = some other → .block other ∈ items)
    (apart : ∀ other ∈ stores, other.slot = offset ∨ other.slot + 8 ≤ offset
      ∨ offset + 8 ≤ other.slot) :
    (atOffset offset target value).Allowed slotsBlock items stores := by
  have place : (atOffset offset target value).slot = offset := Nat.zero_add offset
  exact ⟨rfl, Nat.le_refl _, inside, suits, known, by rwa [place]⟩

theorem exists_mixedRun : ∃ items heap,
    Run slotsBlock [.block slotsBlock] slotsHeap mixedStores items heap
      ∧ heap.frontier ≤ 0x800000000000 := by
  have ran : Heap.allocate 16 slotsHeap = (.ok targetBlock, (Heap.allocate 16 slotsHeap).2) := rfl
  have started : Run slotsBlock [.block slotsBlock] slotsHeap [] _ slotsHeap := .start
  have inner := (started.allocate ran).next innerStore
    (allowed_atOffset (by decide) (.pointer rfl) ?inner (by decide))
    ⟨(fun _ _ wide => nomatch wide), ?innerFits⟩
  have self := inner.next selfStore
    (allowed_atOffset (by decide) (.pointer rfl) ?self (by decide))
    ⟨(fun _ _ wide => nomatch wide), ?selfFits⟩
  have narrow := self.next narrowStore
    (allowed_atOffset (by decide) (.narrow (by decide)) (fun _ own => nomatch own) (by decide))
    ⟨(fun _ _ wide => nomatch wide), fun _ own => nomatch own⟩
  have wide := narrow.next wideStore
    (allowed_atOffset (by decide) (.wide (.inr rfl) (by decide)) (fun _ own => nomatch own)
      (by decide)) ⟨?wide, fun _ own => nomatch own⟩
  have clear := wide.next clearStore
    (allowed_atOffset (by decide) .null (fun _ own => nomatch own) (by decide))
    ⟨(fun _ _ wide => nomatch wide), fun _ own => nomatch own⟩
  exact ⟨_, _, clear, by decide⟩
  case inner =>
    intro other own
    cases own
    exact List.mem_cons_self
  case self =>
    intro other own
    cases own
    exact List.mem_append_right _ (List.mem_cons_of_mem _ List.mem_cons_self)
  case innerFits =>
    intro p own
    cases own
    exact ⟨_, rfl⟩
  case selfFits =>
    intro p own
    cases own
    exact ⟨_, rfl⟩
  case wide =>
    intro unit s wide text
    cases wide
    cases text
    decide

/-- After the stores every slot remembers its own: the cleared one keeps nothing. -/
theorem mixed_remembered : ∃ items heap,
    Run slotsBlock [.block slotsBlock] slotsHeap mixedStores items heap
      ∧ Tidy 0x800000000000 slotsBlock [.block slotsBlock] slotsHeap
      ∧ heap.frontier ≤ 0x800000000000 ∧ 0x800000000000 < Word.modulus
      ∧ innerStore.Remembers slotsBlock heap ∧ selfStore.Remembers slotsBlock heap
      ∧ wideStore.Remembers slotsBlock heap ∧ clearStore.Remembers slotsBlock heap := by
  obtain ⟨items, heap, run, room⟩ := exists_mixedRun
  have tidy : Tidy 0x800000000000 slotsBlock [.block slotsBlock] slotsHeap :=
    tidy_of_allocate (rfl : Heap.allocate 32 .empty = (.ok slotsBlock, slotsHeap))
      (fun _ => List.Pairwise.nil) rfl (by decide)
  have words : 0x800000000000 < Word.modulus := by decide
  obtain ⟨remembers, -, -⟩ := remembers_of_run run tidy room words
  exact ⟨items, heap, run, tidy, room, words, remembers 0 _ rfl, remembers 8 _ rfl,
    remembers 24 _ rfl, remembers 16 _ rfl⟩

end PointerStore

end CInterop
