import Mathlib.Logic.Relation
import CInterop.Call.Invoke
import CInterop.CString
import CInterop.Library
import CInterop.Proofs.Heap.Run
import CInterop.Proofs.View.Reading

/-!
# Access to foreign memory

Foreign memory is read and written only through a pointer that was `granted`. This mark is a
capability: it is handed out in a few places and is handed on by pointer arithmetic, casts and
copies, but it is never found in memory. What is read there, also through a granted pointer or in a
struct that a function returned, is `Bare`.

`Session` is the host with the pointers that it holds, each with a note on where it came from.
`granted_entitled` says that the mark of a pointer is always accounted for by its note.
-/

namespace CInterop

/-! ## Pointers in values -/

namespace Value

mutual

/-- The pointers in a value, at every depth. -/
def pointers : Value → List Pointer
  | pointer p => [p]
  | record entries => entryPointers entries
  | list items => itemPointers items
  | _ => []
termination_by structural value => value

/-- The pointers in the entries of a record. -/
def entryPointers : List (String × Value) → List Pointer
  | [] => []
  | (_, value) :: rest => value.pointers ++ entryPointers rest
termination_by structural entries => entries

/-- The pointers in the items of a list. -/
def itemPointers : List Value → List Pointer
  | [] => []
  | item :: rest => item.pointers ++ itemPointers rest
termination_by structural items => items

end

/-- No pointer in the value has access to foreign memory. -/
def Bare (value : Value) : Prop := ∀ p ∈ value.pointers, p.granted = false

theorem mem_itemPointers {items : List Value} {p : Pointer} :
    p ∈ itemPointers items ↔ ∃ item ∈ items, p ∈ item.pointers := by
  induction items with
  | nil => simp [itemPointers]
  | cons item rest ih => simp [itemPointers, ih]

theorem mem_entryPointers {entries : List (String × Value)} {p : Pointer} :
    p ∈ entryPointers entries ↔ ∃ entry ∈ entries, p ∈ entry.2.pointers := by
  induction entries with
  | nil => simp [entryPointers]
  | cons entry rest ih => simp [entryPointers, ih]

theorem mem_insertEntry {key : String} {value : Value} {entries : List (String × Value)}
    {entry : String × Value} (found : entry ∈ insertEntry key value entries) :
    entry = (key, value) ∨ entry ∈ entries := by
  induction entries with
  | nil => exact .inl (List.mem_singleton.mp found)
  | cons first rest ih =>
    obtain ⟨other, old⟩ := first
    unfold insertEntry at found
    split at found
    · exact List.mem_cons.mp found
    · split at found
      · exact (List.mem_cons.mp found).imp_right (List.mem_cons_of_mem _)
      · rcases List.mem_cons.mp found with rfl | later
        · exact .inr List.mem_cons_self
        · exact (ih later).imp_right (List.mem_cons_of_mem _)

/-- What holds of the pointers in the items holds of those in the list. -/
theorem pointers_list {holds : Pointer → Prop} {items : List Value}
    (each : ∀ item ∈ items, ∀ p ∈ item.pointers, holds p) :
    ∀ p ∈ (list items).pointers, holds p := by
  intro p found
  rw [pointers] at found
  obtain ⟨item, mem, found⟩ := mem_itemPointers.mp found
  exact each item mem p found

/-- What holds of the pointers in the entries holds of those in the record. -/
theorem pointers_ofEntries {holds : Pointer → Prop} {entries : List (String × Value)}
    (each : ∀ entry ∈ entries, ∀ p ∈ entry.2.pointers, holds p) :
    ∀ p ∈ (ofEntries entries).pointers, holds p := by
  have kept : ∀ (entries sorted : List (String × Value)),
      (∀ entry ∈ entries, ∀ p ∈ entry.2.pointers, holds p) →
      (∀ entry ∈ sorted, ∀ p ∈ entry.2.pointers, holds p) →
      ∀ entry ∈ entries.foldl (fun sorted entry => insertEntry entry.1 entry.2 sorted) sorted,
        ∀ p ∈ entry.2.pointers, holds p := by
    intro entries
    induction entries with
    | nil => exact fun sorted _ each => each
    | cons first rest ih =>
      intro sorted each sorted_each
      refine ih _ (fun entry mem => each entry (List.mem_cons_of_mem _ mem)) fun entry mem => ?_
      rcases mem_insertEntry mem with rfl | old
      · exact each first List.mem_cons_self
      · exact sorted_each entry old
  intro p found
  rw [ofEntries, pointers] at found
  obtain ⟨entry, mem, found⟩ := mem_entryPointers.mp found
  exact kept entries [] each (by simp) entry mem p found

theorem bare_of_pointers {value : Value} (none_in : value.pointers = []) : value.Bare := by
  simp [Bare, none_in]

theorem bare_pointer {p : Pointer} (ungranted : p.granted = false) : (pointer p).Bare := by
  intro q found
  rw [pointers] at found
  obtain rfl := List.mem_singleton.mp found
  exact ungranted

end Value

/-! ## What is found in memory -/

open Value (Bare)

theorem Heap.pointerValue_bare (heap : Heap) (block : Block) (target : Target) (address : UInt64) :
    (heap.pointerValue block target address).Bare := by
  have foreign : Bare (.pointer (.foreign target.pointee address)) := Value.bare_pointer rfl
  unfold Heap.pointerValue
  dsimp only
  cases target <;> dsimp only <;> repeat' split
  all_goals first
    | exact foreign
    | exact Value.bare_pointer rfl
    | exact Value.bare_of_pointers rfl

theorem Value.pointers_ofBits (bits : UInt64) (width : Nat) (signed : Bool) :
    (Value.ofBits bits width signed).pointers = [] := by
  unfold Value.ofBits
  split <;> rfl

namespace View

variable {heap : Heap} {view : View}

theorem pointers_readBits {type : CType} {offset : Nat} {slot : BitSlot} {value : Value}
    (read : view.readBits heap type offset slot = .ok value) : value.pointers = [] := by
  obtain ⟨address, _, read⟩ := bind_eq_ok.mp read
  obtain ⟨first, _, read⟩ := bind_eq_ok.mp read
  cases read
  cases type <;> first | exact Value.pointers_ofBits _ _ _ | rfl

mutual

/-- What holds of all that addresses in a block stand for holds of the pointers in every value that
is read there. -/
theorem pointers_read {holds : Pointer → Prop}
    (denoted : ∀ target address,
      ∀ p ∈ (heap.pointerValue view.block target address).pointers, holds p) :
    ∀ (type : CType) (offset : Nat) (value : Value),
      view.read heap type offset = .ok value → ∀ p ∈ value.pointers, holds p
  | .void, _, _, read => by cases read
  | .bool, _, _, read => by
    obtain ⟨_, _, same⟩ := bind_eq_ok.mp read
    cases same
    exact List.forall_mem_nil _
  | .int .., _, _, read | .stray _, _, _, read => by
    obtain ⟨_, _, same⟩ := bind_eq_ok.mp read
    cases same
    rw [Value.pointers_ofBits]
    exact List.forall_mem_nil _
  | .float precision _, _, _, read => by
    cases precision <;>
    · obtain ⟨_, _, same⟩ := bind_eq_ok.mp read
      cases same
      exact List.forall_mem_nil _
  | .pointer .., _, _, read => by
    obtain ⟨_, _, same⟩ := bind_eq_ok.mp read
    cases same
    exact denoted _ _
  | .array element count, offset, _, read => by
    obtain ⟨_, _, read⟩ := bind_eq_ok.mp read
    obtain ⟨items, found, same⟩ := bind_eq_ok.mp read
    cases same
    refine Value.pointers_list fun item mem => ?_
    obtain ⟨i, _, own⟩ := exists_of_mem_mapM found mem
    exact pointers_read denoted element _ item own
  | .composite layout, offset, _, read => by
    obtain ⟨_, _, read⟩ := bind_eq_ok.mp read
    obtain ⟨entries, found, same⟩ := bind_eq_ok.mp read
    cases same
    exact Value.pointers_ofEntries
      (pointers_readMembers denoted layout.members offset entries found)
termination_by structural type => type

theorem pointers_readMembers {holds : Pointer → Prop}
    (denoted : ∀ target address,
      ∀ p ∈ (heap.pointerValue view.block target address).pointers, holds p) :
    ∀ (members : List Member) (base : Nat) (entries : List (String × Value)),
      readMembers heap view members base = .ok entries →
      ∀ entry ∈ entries, ∀ p ∈ entry.2.pointers, holds p
  | [], _, _, read => by
    cases read
    simp
  | ⟨name, type, offset, bits⟩ :: rest, base, _, read => by
    rw [readMembers_cons] at read
    obtain ⟨value, own, read⟩ := bind_eq_ok.mp read
    obtain ⟨entries, others, same⟩ := bind_eq_ok.mp read
    cases same
    have first : ∀ p ∈ value.pointers, holds p := by
      cases bits with
      | some slot =>
        rw [pointers_readBits own]
        exact List.forall_mem_nil _
      | none => exact pointers_read denoted type _ value own
    intro entry mem
    rcases List.mem_cons.mp mem with rfl | later
    · exact first
    · exact pointers_readMembers denoted rest base entries others entry later
termination_by structural members => members

end

/-- No value that is read from memory has access to foreign memory. -/
theorem read_bare (type : CType) (offset : Nat) (value : Value)
    (read : view.read heap type offset = .ok value) : value.Bare :=
  pointers_read (fun target address => heap.pointerValue_bare view.block target address) type offset
    value read

theorem readMember_bare {member : Member} {base : Nat} {value : Value}
    (read : view.readMember heap member base = .ok value) : value.Bare := by
  unfold readMember at read
  dsimp only at read
  split at read
  · exact Value.bare_of_pointers (pointers_readBits read)
  · exact read_bare _ _ _ read

end View

namespace Instance

variable {heap : Heap} {x : Instance} {value : Value}

theorem value_bare (read : x.value heap = .ok value) : value.Bare := by
  obtain ⟨view, _, read⟩ := bind_eq_ok.mp read
  exact View.read_bare _ _ _ read

theorem get_bare {name : String} (read : x.get heap name = .ok value) : value.Bare := by
  obtain ⟨member, _, read⟩ := bind_eq_ok.mp read
  obtain ⟨view, _, read⟩ := bind_eq_ok.mp read
  exact View.readMember_bare read

theorem getIndex_bare {index : Nat} (read : x.getIndex heap index = .ok value) : value.Bare := by
  obtain ⟨item, _, read⟩ := bind_eq_ok.mp read
  exact value_bare read

end Instance

/-- What is read through a pointer is bare, whether or not the pointer was granted access. -/
theorem Pointer.index_bare {p : Pointer} {index : Int64} {heap after : Heap} {value : Value}
    (ran : p.index index heap = (.ok value, after)) : value.Bare := by
  obtain ⟨⟨view, offset⟩, middle, _, ran⟩ := HeapM.bind_eq_ok.mp ran
  obtain ⟨now, last, _, ran⟩ := HeapM.bind_eq_ok.mp ran
  exact View.read_bare _ _ _ (Prod.mk.inj ran).1

/-! ## What calls and callbacks hand out -/

/-- The pointers in the value have access only if that is allowed. -/
def Value.GrantedOnlyIf (allowed : Bool) (value : Value) : Prop :=
  ∀ p ∈ value.pointers, p.granted = true → allowed = true

theorem Value.Bare.grantedOnlyIf {value : Value} (bare : value.Bare) (allowed : Bool) :
    value.GrantedOnlyIf allowed := by
  intro p found granted
  rw [bare p found] at granted
  cases granted

theorem Value.Bare.grantedIf {value : Value} (bare : value.Bare) (allowed : Bool) :
    (value.grantedIf allowed).GrantedOnlyIf allowed := by
  cases allowed with
  | true => exact fun _ _ _ => rfl
  | false =>
    have same : value.grantedIf false = value := by
      unfold Value.grantedIf
      split <;> simp
    rw [same]
    exact bare.grantedOnlyIf false

theorem Value.ofScalarBytes_bare (type : CType) (bytes : Bytes) :
    (Value.ofScalarBytes type bytes).Bare := by
  unfold Value.ofScalarBytes
  dsimp only
  split
  case h_2 | h_3 => exact Value.bare_of_pointers (Value.pointers_ofBits _ _ _)
  case h_6 => exact Value.bare_pointer rfl
  all_goals exact Value.bare_of_pointers rfl

theorem Value.decode_bare {type : CType} {bytes : Bytes} {heap after : Heap} {value : Value}
    (made : Value.decode type bytes heap = (.ok value, after)) : value.Bare := by
  have copied : ∀ {before : Heap}, (do
      let block ← Heap.allocate type.size
      Heap.onMemory (·.store block.base (bytes.take type.size))
      return .object (← liftM (Instance.inBlock type block 0)) : HeapM Value) before
        = (.ok value, after) → value.Bare := by
    intro before ran
    obtain ⟨_, _, _, ran⟩ := HeapM.bind_eq_ok.mp ran
    obtain ⟨_, _, _, ran⟩ := HeapM.bind_eq_ok.mp ran
    obtain ⟨_, _, _, ran⟩ := HeapM.bind_eq_ok.mp ran
    cases ran
    exact Value.bare_of_pointers rfl
  have scalar : (pure (Value.ofScalarBytes type bytes) : HeapM Value) heap = (.ok value, after) →
      value.Bare := by
    intro ran
    cases ran
    exact Value.ofScalarBytes_bare _ _
  cases type with
  | array | composite => exact copied made
  | void | bool | int | stray | float => exact scalar made
  | pointer target =>
    cases target with
    | untyped | typed => exact scalar made
    | cstring | wstring =>
      simp only [Value.decode] at made
      split at made
      · cases made
        exact Value.bare_of_pointers rfl
      · obtain ⟨_, _, _, made⟩ := HeapM.bind_eq_ok.mp made
        cases made
        exact Value.bare_of_pointers rfl

theorem Value.decodeResult_bare {type : CType} {bytes : Bytes} {heap after : Heap} {value : Value}
    (made : Value.decodeResult type bytes heap = (.ok value, after)) : value.Bare := by
  cases type with
  | void | bool =>
    cases made
    exact Value.bare_of_pointers rfl
  | array => cases made
  | int | stray | float | pointer | composite =>
    have decoded := made
    simp only [Value.decodeResult] at decoded
    exact Value.decode_bare decoded

/-- A call hands out access only for a binding that allows it. -/
theorem Binding.enterFrame_grantedOnlyIf {raw : RawCall}
    {binding : Binding} {frame : Frame} {world after : World} {value : Value}
    (ran : binding.enterFrame raw frame world = (.ok value, after)) :
    value.GrantedOnlyIf binding.foreignReads := by
  obtain ⟨now, started, _, ran⟩ := sequence_eq_ok.mp ran
  obtain ⟨bytes, entered, _, ran⟩ := sequence_eq_ok.mp ran
  obtain ⟨raw, decoded, made, ran⟩ := sequence_eq_ok.mp ran
  cases ran
  have raw_bare : raw.Bare :=
    Value.decodeResult_bare (Prod.ext (Prod.mk.inj made).1 rfl)
  exact raw_bare.grantedIf binding.foreignReads

theorem Trampoline.decodeArgs_grantedOnlyIf {foreignReads : Bool} {args : List CType}
    {frame : List Bytes} {values : List Value} {heap after : Heap}
    (made : Trampoline.decodeArgs foreignReads args frame heap = (.ok values, after)) :
    ∀ value ∈ values, value.GrantedOnlyIf foreignReads := by
  induction args generalizing frame values heap with
  | nil =>
    cases made
    simp
  | cons type rest ih =>
    cases frame with
    | nil =>
      cases made
      simp
    | cons bytes others =>
      unfold Trampoline.decodeArgs at made
      obtain ⟨value, middle, decoded, made⟩ := HeapM.bind_eq_ok.mp made
      obtain ⟨tail, last, decoded_rest, made⟩ := HeapM.bind_eq_ok.mp made
      cases made
      intro other mem
      rcases List.mem_cons.mp mem with rfl | later
      · exact (Value.decode_bare decoded).grantedIf foreignReads
      · exact ih decoded_rest other later

/-- A callback hands out access only for a trampoline that allows it. -/
theorem Trampoline.dispatch_grantedOnlyIf {t : Trampoline} {frame : List Bytes} {heap : Heap}
    {call : Call} (called : call ∈ (t.dispatch frame heap).2.1) :
    ∀ value ∈ call.args, value.GrantedOnlyIf t.foreignReads := by
  unfold Trampoline.dispatch at called
  split at called
  · cases called
  · rename_i args after decoded
    have decoded_args := Trampoline.decodeArgs_grantedOnlyIf decoded
    dsimp only at called
    split at called <;> obtain rfl := List.mem_singleton.mp called <;> exact decoded_args

namespace Pointer

/-! ## Without access -/

/-- Why an access through a foreign pointer without access is refused: a target of no size comes
first. -/
def refusal (p : Pointer) (operation : String) (address : UInt64) : Failure :=
  if p.target.size = 0 then .unsupportedType p.target.name (.unsizedTarget operation)
  else .foreignAccessDenied operation address.toNat

/-- Every access at an address fails, whatever the heap holds, and leaves the heap as it is. -/
structure Denied (p : Pointer) (address : UInt64) : Prop where
  index : ∀ index heap,
    p.index index heap =
      (.error (p.refusal "index" (address + index.toUInt64 * .ofNat p.target.size)), heap)
  deref : ∀ heap, p.deref heap = (.error (p.refusal "index" address), heap)
  setIndex : ∀ index value heap,
    p.setIndex index value heap =
      (.error (p.refusal "index_set" (address + index.toUInt64 * .ofNat p.target.size)), heap)
  set : ∀ value heap, p.set value heap = (.error (p.refusal "index_set" address), heap)
  contents : ∀ heap, p.contents heap = (.error (p.refusal "contents" address), heap)
  readText : ∀ limit heap,
    p.readText heap limit = .error (.foreignAccessDenied "read_cstring" address.toNat)

theorem isForeign_iff {p : Pointer} :
    p.isForeign = true ↔ ∃ address, p.place = .foreign address := by
  unfold isForeign
  cases p.place <;> simp

theorem element_denied {p : Pointer} {address : UInt64} (foreign : p.place = .foreign address)
    (ungranted : p.granted = false) (operation : String) (index : Int64) (heap : Heap) :
    p.element operation index heap =
      (.error (p.refusal operation (address + index.toUInt64 * .ofNat p.target.size)), heap) := by
  unfold element elementSize refusal
  by_cases empty : p.target.size = 0
  · rw [if_pos empty, if_pos empty]
    rfl
  · rw [if_neg empty, if_neg empty]
    simp only [foreign]
    unfold foreignBlock
    rw [ungranted]
    rfl

theorem first_element (address : UInt64) (size : Nat) :
    address + (0 : Int64).toUInt64 * .ofNat size = address := by
  rw [show (0 : Int64).toUInt64 = 0 from rfl, UInt64.zero_mul, UInt64.add_zero]

theorem denied_of_foreign {p : Pointer} (foreign : p.isForeign = true)
    (ungranted : p.granted = false) : ∃ address, p.address = .ok address ∧ p.Denied address := by
  obtain ⟨address, place⟩ := isForeign_iff.mp foreign
  have index_denied : ∀ index heap, p.index index heap = (.error (p.refusal "index"
      (address + index.toUInt64 * .ofNat p.target.size)), heap) := by
    intro index heap
    unfold Pointer.index
    rw [HeapM.bind_run, element_denied place ungranted]
  have set_denied : ∀ index value heap, p.setIndex index value heap =
      (.error (p.refusal "index_set"
        (address + index.toUInt64 * .ofNat p.target.size)), heap) := by
    intro index value heap
    unfold setIndex
    rw [HeapM.bind_run, element_denied place ungranted]
  refine ⟨address, congrArg Place.address place, index_denied, ?_, set_denied, ?_, ?_, ?_⟩
  · intro heap
    exact (index_denied 0 heap).trans (by rw [first_element])
  · intro value heap
    exact (set_denied 0 value heap).trans (by rw [first_element])
  · intro heap
    unfold contents elementSize refusal
    by_cases empty : p.target.size = 0
    · rw [if_pos empty, if_pos empty]
      rfl
    · rw [if_neg empty, if_neg empty]
      simp only [place]
      unfold foreignBlock
      rw [ungranted]
      rfl
  · intro limit heap
    unfold readText
    simp only [place, ungranted]
    rfl

end Pointer

namespace Capability

/-! ## Runs -/

/-- A pointer that the host holds. `entitled` says whether it goes back to a grant, to a binding or
a trampoline that allows foreign reads, or to such a pointer. -/
structure Holding where
  pointer : Pointer
  entitled : Bool

/-- The host between two operations. -/
structure Session where
  world : World
  held : List Holding

namespace Session

/-- The host before it did anything. -/
def start (world : World) : Session := ⟨world, []⟩

/-- The host with some more pointers. -/
def hold (s : Session) (entitled : Bool) (pointers : List Pointer) : Session :=
  { s with held := pointers.map (⟨·, entitled⟩) ++ s.held }

/-- The host with an operation on the heap done. -/
def onHeap (s : Session) (heap : Heap) : Session := { s with world := { s.world with heap } }

end Session

/-- One operation of the host. Native code, hooks and host functions act in between: native code may
change the world as it likes, hooks and host functions are the host at work. -/
inductive Step (s : Session) : Session → Prop
  /-- Stores, allocations, native code. -/
  | changed (world : World) : Step s { s with world }
  -- Pointers that are made.
  | null (target : CType) : Step s (s.hold false [.null target])
  | inBlock (target : CType) (block : Block) (offset : UInt64) :
      Step s (s.hold false [.inBlock target block offset])
  | foreign (target : CType) (address : UInt64) : Step s (s.hold false [.foreign target address])
  | addressOf {value : Value} {p : Pointer} (made : Pointer.addressOf value = .ok p) :
      Step s (s.hold false [p])
  | entry (entry : EntryPoint) : Step s (s.hold false [entry.pointer])
  | trampoline (t : Trampoline) : Step s (s.hold false [t.pointer])
  | symbol (symbol : Symbol) (target : CType) : Step s (s.hold false [symbol.pointer target])
  -- Pointers that are made of others.
  | grant {x : Holding} (held : x ∈ s.held) : Step s (s.hold true [x.pointer.grant])
  | offset {x : Holding} (held : x ∈ s.held) (count : Int64) :
      Step s (s.hold x.entitled [x.pointer.offset count])
  | cast {x : Holding} (held : x ∈ s.held) (target : CType) :
      Step s (s.hold x.entitled [x.pointer.cast target])
  | clone {x : Holding} (held : x ∈ s.held) : Step s (s.hold x.entitled [x.pointer])
  -- Pointers that are read from memory.
  | read {view : View} {type : CType} {offset : Nat} {value : Value}
      (ran : view.read s.world.heap type offset = .ok value) : Step s (s.hold false value.pointers)
  | value {x : Instance} {value : Value} (ran : x.value s.world.heap = .ok value) :
      Step s (s.hold false value.pointers)
  | get {x : Instance} {name : String} {value : Value}
      (ran : x.get s.world.heap name = .ok value) : Step s (s.hold false value.pointers)
  | getIndex {x : Instance} {index : Nat} {value : Value}
      (ran : x.getIndex s.world.heap index = .ok value) : Step s (s.hold false value.pointers)
  | index {x : Holding} {index : Int64} {value : Value} {heap : Heap} (held : x ∈ s.held)
      (ran : x.pointer.index index s.world.heap = (.ok value, heap)) :
      Step s ((s.onHeap heap).hold false value.pointers)
  -- Pointers that native code hands out.
  | result {raw : RawCall} {binding : Binding} {frame : Frame}
      {value : Value} {world : World}
      (ran : binding.enterFrame raw frame s.world = (.ok value, world)) :
      Step s ({ s with world }.hold binding.foreignReads value.pointers)
  | arguments {t : Trampoline} {frame : List Bytes} {call : Call}
      (called : call ∈ (t.dispatch frame s.world.heap).2.1) :
      Step s (s.hold t.foreignReads (call.args.flatMap Value.pointers))

/-- What the host gets to in any number of operations. -/
def Reachable (s : Session) : Prop :=
  ∃ world, Relation.ReflTransGen Step (.start world) s

/-! ## The invariant -/

/-- Every access to foreign memory is accounted for. -/
def Accounted (s : Session) : Prop := ∀ x ∈ s.held, x.pointer.granted = true → x.entitled = true

theorem Accounted.hold {s : Session} (accounted : Accounted s) {entitled : Bool}
    {pointers : List Pointer}
    (allowed : ∀ p ∈ pointers, p.granted = true → entitled = true) :
    Accounted (s.hold entitled pointers) := by
  intro x mem
  rcases List.mem_append.mp mem with new | old
  · obtain ⟨p, found, rfl⟩ := List.mem_map.mp new
    exact allowed p found
  · exact accounted x old

theorem Accounted.hold_one {s : Session} (accounted : Accounted s) {entitled : Bool} {p : Pointer}
    (allowed : p.granted = true → entitled = true) : Accounted (s.hold entitled [p]) := by
  refine accounted.hold fun q found => ?_
  obtain rfl := List.mem_singleton.mp found
  exact allowed

theorem Accounted.hold_bare {s : Session} (accounted : Accounted s) {value : Value}
    (bare : value.Bare) : Accounted (s.hold false value.pointers) :=
  accounted.hold (bare.grantedOnlyIf false)

theorem addressOf_ungranted {value : Value} {p : Pointer}
    (made : Pointer.addressOf value = .ok p) : p.granted = false := by
  cases value <;> cases made
  rfl

theorem Accounted.step {s t : Session} (accounted : Accounted s) (step : Step s t) :
    Accounted t := by
  have refuted : ∀ {granted : Bool}, granted = false → granted = true → false = true :=
    fun ungranted granted => ungranted.symm.trans granted
  cases step with
  | changed => exact accounted
  | null | inBlock | foreign | entry | trampoline | symbol => exact accounted.hold_one (refuted rfl)
  | addressOf made => exact accounted.hold_one (refuted (addressOf_ungranted made))
  | grant => exact accounted.hold_one fun _ => rfl
  | offset held | cast held | clone held => exact accounted.hold_one (accounted _ held)
  | read ran => exact accounted.hold_bare (View.read_bare _ _ _ ran)
  | value ran => exact accounted.hold_bare (Instance.value_bare ran)
  | get ran => exact accounted.hold_bare (Instance.get_bare ran)
  | getIndex ran => exact accounted.hold_bare (Instance.getIndex_bare ran)
  | index held ran =>
    have moved : Accounted (s.onHeap _) := accounted
    exact moved.hold_bare (Pointer.index_bare ran)
  | result ran =>
    have moved : Accounted { s with world := _ } := accounted
    exact moved.hold (Binding.enterFrame_grantedOnlyIf ran)
  | arguments called =>
    refine accounted.hold fun p found => ?_
    obtain ⟨value, mem, found⟩ := List.mem_flatMap.mp found
    exact Trampoline.dispatch_grantedOnlyIf called value mem p found

theorem Reachable.accounted {s : Session} (reached : Reachable s) : Accounted s := by
  obtain ⟨world, steps⟩ := reached
  induction steps with
  | refl => simp [Accounted, Session.start]
  | tail _ step accounted => exact accounted.step step

/-- Access to foreign memory goes back to a grant, and to nothing that was found in memory: whatever
is read, through any pointer or from any instance, is bare. Without access, every operation on
foreign memory fails and neither reads nor writes. -/
theorem granted_accounted {s : Session} (reached : Reachable s) :
    Accounted s
      ∧ (∀ x ∈ s.held, ∀ index heap value after,
        x.pointer.index index heap = (.ok value, after) → value.Bare)
      ∧ (∀ (x : Instance) (heap : Heap) (value : Value),
        (x.value heap = .ok value ∨ (∃ name, x.get heap name = .ok value)
          ∨ ∃ index, x.getIndex heap index = .ok value) → value.Bare)
      ∧ ∀ p : Pointer, p.isForeign = true → p.granted = false →
        ∃ address, p.address = .ok address ∧ p.Denied address := by
  refine ⟨reached.accounted, fun _ _ _ _ _ _ ran => Pointer.index_bare ran, ?_,
    fun _ foreign ungranted => Pointer.denied_of_foreign foreign ungranted⟩
  rintro x heap value (ran | ⟨name, ran⟩ | ⟨index, ran⟩)
  · exact Instance.value_bare ran
  · exact Instance.get_bare ran
  · exact Instance.getIndex_bare ran

/-- An address with nothing known about it. -/
def wild : Pointer := .foreign (.natural "int32" .w32 true) 0x1000

/-- The host after it was given the address, granted access and moved to the next element. -/
def grantedSession : Session :=
  ⟨.empty, [⟨wild.grant.offset 1, true⟩, ⟨wild.grant, true⟩, ⟨wild, false⟩]⟩

theorem grantedSession_reachable : Reachable grantedSession := by
  have given : Step (.start .empty) ⟨.empty, [⟨wild, false⟩]⟩ := .foreign _ 0x1000
  have granted : Step ⟨.empty, [⟨wild, false⟩]⟩ ⟨.empty, [⟨wild.grant, true⟩, ⟨wild, false⟩]⟩ :=
    .grant (x := ⟨wild, false⟩) List.mem_cons_self
  have moved : Step ⟨.empty, [⟨wild.grant, true⟩, ⟨wild, false⟩]⟩ grantedSession :=
    .offset (x := ⟨wild.grant, true⟩) List.mem_cons_self 1
  exact ⟨.empty, .tail (.tail (.single given) granted) moved⟩

/-- The pointer without access is refused beside the ones with access. -/
theorem grantedSession_accounted : Reachable grantedSession ∧ Accounted grantedSession
    ∧ (wild.grant.offset 1).granted = true ∧ wild.Denied 0x1000 := by
  obtain ⟨accounted, _, _, denied⟩ := granted_accounted grantedSession_reachable
  obtain ⟨address, located, denied⟩ := denied wild rfl rfl
  exact ⟨grantedSession_reachable, accounted, rfl, Except.ok.inj located ▸ denied⟩

end Capability

end CInterop
