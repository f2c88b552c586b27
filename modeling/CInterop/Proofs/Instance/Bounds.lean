import CInterop.Callback
import CInterop.Pointer
import CInterop.Proofs.Heap.Run
import CInterop.Proofs.View.Reading

/-!
# Instances lie in their blocks

Parts of an instance are made without a check of bounds, so that they lie in their block is an
invariant: every instance that can be reached is `Inside`, and reading it stays inside, since the
members of the types that registries make end inside their composites.
-/

namespace CInterop.Instance

/-- An instance lies in its block. -/
def Inside (x : Instance) : Prop := x.offset + x.type.size ≤ x.block.length

/-- Nothing that is read from an instance leaves its block. -/
structure Sound (x : Instance) : Prop where
  inside : x.Inside
  view : ∃ view, x.view = .ok view
  value : ∀ heap, StaysInside (x.value heap)
  bytes : ∀ heap, ∃ bytes, x.bytes heap = .ok bytes
  get : ∀ heap name member, x.member name = .ok member → StaysInside (x.get heap name)
  getIndex : ∀ heap index count, x.count? = some count → index < count →
    StaysInside (x.getIndex heap index)

/-- The instances that can be made from some types: fresh ones, ones on memory of a block, parts of
instances, the targets of pointers, and what calls return and callbacks receive. -/
inductive Reachable (types : CType → Prop) : Instance → Prop
  | create {type : CType} {heap after : Heap} {x : Instance} (allowed : types type)
      (made : create type heap = (.ok x, after)) : Reachable types x
  | ofValue {type : CType} {value : Value} {heap after : Heap} {x : Instance}
      (allowed : types type) (made : ofValue type value heap = (.ok x, after)) : Reachable types x
  | inBlock {type : CType} {block : Block} {offset : Nat} {x : Instance} (allowed : types type)
      (made : inBlock type block offset = .ok x) : Reachable types x
  | field {x part : Instance} {name : String} (reached : Reachable types x)
      (made : x.field name = .ok part) : Reachable types part
  | item {x part : Instance} {index : Nat} (reached : Reachable types x)
      (made : x.item index = .ok part) : Reachable types part
  | reinterpret {x other : Instance} {type : CType} (reached : Reachable types x)
      (allowed : types type) (made : x.reinterpret type = .ok other) : Reachable types other
  | contents {p : Pointer} {heap after : Heap} {x : Instance} (allowed : types p.target)
      (made : p.contents heap = (.ok x, after)) : Reachable types x
  | result {type : CType} {bytes : Bytes} {heap after : Heap} {x : Instance}
      (allowed : types type)
      (made : Value.decodeResult type bytes heap = (.ok (.object x), after)) : Reachable types x
  | argument {foreignReads : Bool} {args : List CType} {frame : List Bytes} {values : List Value}
      {heap after : Heap} {x : Instance} (allowed : ∀ type ∈ args, types type)
      (made : Trampoline.decodeArgs foreignReads args frame heap = (.ok values, after))
      (passed : .object x ∈ values) : Reachable types x

/-! ## Parts -/

variable {x part : Instance}

theorem member_eq_ok {name : String} {member : Member} (found : x.member name = .ok member) :
    ∃ layout : Layout, x.type = .composite layout ∧ layout.member? name = some member := by
  unfold Instance.member at found
  split at found
  · cases found
  rename_i layout composite
  split at found
  · cases found
  rename_i same
  cases found
  exact ⟨layout, CType.layout?_eq_some composite, same⟩

theorem member_of_member? {layout : Layout} {name : String} {member : Member}
    (composite : x.type = .composite layout) (found : layout.member? name = some member) :
    x.member name = .ok member := by
  simp only [Instance.member, composite, CType.layout?, found]
  rfl

theorem field_eq_ok {name : String} (made : x.field name = .ok part) :
    ∃ (layout : Layout) (member : Member), x.type = .composite layout
      ∧ layout.member? name = some member
      ∧ part = ⟨member.type, x.block, x.offset + member.offset⟩ := by
  unfold field at made
  obtain ⟨member, found, made⟩ := bind_eq_ok.mp made
  obtain ⟨layout, composite, same⟩ := member_eq_ok found
  split at made
  · cases made
  · cases made
    exact ⟨layout, member, composite, same, rfl⟩

theorem field_of_member? {layout : Layout} {name : String} {member : Member}
    (composite : x.type = .composite layout) (found : layout.member? name = some member)
    (plain : member.bits = none) :
    x.field name = .ok ⟨member.type, x.block, x.offset + member.offset⟩ := by
  unfold field
  rw [member_of_member? composite found]
  simp only [bind, Except.bind, plain]
  rfl

theorem item_eq_ok {index : Nat} (made : x.item index = .ok part) :
    ∃ element count, x.type = .array element count ∧ index < count
      ∧ part = ⟨element, x.block, x.offset + index * element.size⟩ := by
  unfold item at made
  split at made
  · cases made
  rename_i element count array
  split at made
  · rename_i below
    cases made
    exact ⟨element, count, CType.element?_eq_some array, below, rfl⟩
  · cases made

theorem item_of_lt {element : CType} {count index : Nat} (array : x.type = .array element count)
    (below : index < count) :
    x.item index = .ok ⟨element, x.block, x.offset + index * element.size⟩ := by
  simp only [item, array, CType.element?, if_pos below]
  rfl

theorem view_of_inside (inside : x.Inside) : x.view = .ok ⟨x.block, x.offset, x.type.size⟩ := by
  unfold Instance.view Block.viewRange
  rw [View.locate_of_le (by exact inside)]
  rfl

theorem view_eq_ok {view : View} (viewed : x.view = .ok view) :
    view = ⟨x.block, x.offset, x.type.size⟩ ∧ x.Inside := by
  obtain ⟨address, located, made⟩ := bind_eq_ok.mp viewed
  cases made
  exact ⟨rfl, (View.locate_eq_ok_iff.mp located).1⟩

theorem bytes_of_inside (inside : x.Inside) (heap : Heap) :
    x.bytes heap = .ok (heap.memory.load (x.block.base + x.offset) x.type.size) := by
  unfold bytes
  rw [view_of_inside inside]
  exact View.readBytes_of_le (by simp)

/-- What can be read lies in its block. -/
theorem inside_of_bytes {heap : Heap} {bytes : Bytes} (read : x.bytes heap = .ok bytes) :
    x.Inside := by
  obtain ⟨_, viewed, _⟩ := bind_eq_ok.mp read
  exact (view_eq_ok viewed).2

theorem inside_of_value {heap : Heap} {value : Value} (read : x.value heap = .ok value) :
    x.Inside := by
  obtain ⟨_, viewed, _⟩ := bind_eq_ok.mp read
  exact (view_eq_ok viewed).2

theorem inBlock_eq_ok {type : CType} {block : Block} {offset : Nat}
    (made : inBlock type block offset = .ok x) : x = ⟨type, block, offset⟩ ∧ x.Inside := by
  unfold inBlock Block.viewRange at made
  obtain ⟨view, checked, same⟩ := bind_eq_ok.mp made
  obtain ⟨address, located, _⟩ := bind_eq_ok.mp checked
  cases same
  exact ⟨rfl, (View.locate_eq_ok_iff.mp located).1⟩

theorem inBlock_of_le {type : CType} {block : Block} {offset : Nat}
    (fits : offset + type.size ≤ block.length) :
    inBlock type block offset = .ok ⟨type, block, offset⟩ := by
  unfold inBlock Block.viewRange
  rw [View.locate_of_le (by exact fits)]
  rfl

/-! ## Inside instances of contained types are sound -/

theorem field_inside {layout : Layout} {member : Member} (inside : x.Inside)
    (composite : x.type = .composite layout) (ends : member.endByte ≤ layout.size) :
    Inside ⟨member.type, x.block, x.offset + member.offset⟩ := by
  simp only [Inside, composite, CType.size, Placed.endByte] at inside ends ⊢
  omega

theorem item_inside {element : CType} {count index : Nat} (inside : x.Inside)
    (array : x.type = .array element count) (below : index < count) :
    Inside ⟨element, x.block, x.offset + index * element.size⟩ := by
  have ends := View.element_le element.size below
  simp only [Inside, array, CType.size] at inside ⊢
  omega

theorem value_staysInside (inside : x.Inside) (contained : x.type.Contained) (heap : Heap) :
    StaysInside (x.value heap) := by
  unfold value
  rw [view_of_inside inside]
  exact View.read_staysInside contained (by simp)

theorem Inside.sound (inside : x.Inside) (contained : x.type.Contained) : x.Sound := by
  refine
    { inside, view := ⟨_, view_of_inside inside⟩
      value := value_staysInside inside contained
      bytes := fun heap => ⟨_, bytes_of_inside inside heap⟩
      get := ?get, getIndex := ?getIndex }
  case get =>
    intro heap name member found
    obtain ⟨layout, composite, same⟩ := member_eq_ok found
    have mem := (Layout.mem_of_member? same).1
    unfold get
    rw [found, view_of_inside inside]
    rw [composite] at contained ⊢
    obtain ⟨ends, part_contained⟩ := contained.member member mem
    exact View.readMember_staysInside (Nat.le_of_eq (Nat.zero_add _)) ends
      fun _ fits => View.read_staysInside part_contained fits
  case getIndex =>
    intro heap index count counted below
    unfold getIndex
    cases type : x.type with
    | array element number =>
      simp only [count?, type, CType.element?, Option.map_some, Option.some.injEq] at counted
      subst counted
      rw [item_of_lt type below]
      rw [type] at contained
      exact value_staysInside (item_inside inside type below) contained.element heap
    | _ => simp [count?, type, CType.element?] at counted

/-! ## Reachable instances are inside -/

theorem create_inside {type : CType} {heap after : Heap}
    (made : create type heap = (.ok x, after)) : x.type = type ∧ x.Inside := by
  unfold create at made
  split at made
  · cases made
  obtain ⟨block, middle, allocated, made⟩ := HeapM.bind_eq_ok.mp made
  cases made
  refine ⟨rfl, ?_⟩
  rw [Heap.allocate_eq_ok allocated]
  exact Nat.le_of_eq (Nat.zero_add _)

theorem ofValue_inside {type : CType} {value : Value} {heap after : Heap}
    (made : ofValue type value heap = (.ok x, after)) : x.type = type ∧ x.Inside := by
  unfold ofValue at made
  obtain ⟨fresh, middle, created, made⟩ := HeapM.bind_eq_ok.mp made
  obtain ⟨_, last, _, made⟩ := HeapM.bind_eq_ok.mp made
  cases made
  exact create_inside created

theorem contents_inside {p : Pointer} {heap after : Heap}
    (made : p.contents heap = (.ok x, after)) : x.type = p.target ∧ x.Inside := by
  have from_block : ∀ {block offset} {before : Heap},
      (liftM (inBlock p.target block offset) : HeapM Instance) before = (.ok x, after) →
        x.type = p.target ∧ x.Inside := by
    intro block offset before ran
    have placed : inBlock p.target block offset = .ok x := (Prod.mk.inj ran).1
    obtain ⟨same, inside⟩ := inBlock_eq_ok placed
    exact ⟨congrArg type same, inside⟩
  unfold Pointer.contents at made
  obtain ⟨size, middle, _, made⟩ := HeapM.bind_eq_ok.mp made
  cases place : p.place <;> simp only [place] at made
  case null => cases made
  case inBlock => exact from_block made
  case foreign =>
    obtain ⟨block, last, _, made⟩ := HeapM.bind_eq_ok.mp made
    exact from_block made

/-- An instance that is decoded is a fresh copy of the type that is decoded. -/
theorem decode_inside {type : CType} {bytes : Bytes} {heap after : Heap}
    (made : Value.decode type bytes heap = (.ok (.object x), after)) :
    x.type = type ∧ x.Inside := by
  have copied : ∀ {before : Heap}, (do
      let block ← Heap.allocate type.size
      Heap.onMemory (·.store block.base (bytes.take type.size))
      return .object (← liftM (inBlock type block 0)) : HeapM Value) before
        = (.ok (.object x), after) → x.type = type ∧ x.Inside := by
    intro before ran
    obtain ⟨block, allocated_heap, _, ran⟩ := HeapM.bind_eq_ok.mp ran
    obtain ⟨_, stored_heap, _, ran⟩ := HeapM.bind_eq_ok.mp ran
    obtain ⟨made, last, placed, ran⟩ := HeapM.bind_eq_ok.mp ran
    cases ran
    obtain ⟨same, inside⟩ := inBlock_eq_ok (Prod.mk.inj placed).1
    exact ⟨congrArg Instance.type same, inside⟩
  cases type with
  | array => exact copied made
  | composite => exact copied made
  | pointer target =>
    cases target <;> simp only [Value.decode] at made
    case cstring | wstring =>
      split at made
      · cases made
      · obtain ⟨_, _, _, made⟩ := HeapM.bind_eq_ok.mp made
        cases made
    all_goals cases made
  | int _ _ signed =>
    simp only [Value.decode, Value.ofScalarBytes, Value.ofBits] at made
    split at made <;> cases made
  | float precision => cases precision <;> cases made
  | void | bool | stray => cases made

theorem decodeResult_inside {type : CType} {bytes : Bytes} {heap after : Heap}
    (made : Value.decodeResult type bytes heap = (.ok (.object x), after)) :
    x.type = type ∧ x.Inside := by
  cases type with
  | void | bool | stray | array => cases made
  | int | float | pointer | composite => exact decode_inside made

theorem object_of_grantedIf {granted : Bool} {value : Value}
    (same : .object x = value.grantedIf granted) : value = .object x := by
  unfold Value.grantedIf at same
  split at same
  · split at same <;> cases same
  · exact same.symm

theorem decodeArgs_inside {foreignReads : Bool} {args : List CType} {frame : List Bytes}
    {values : List Value} {heap after : Heap}
    (made : Trampoline.decodeArgs foreignReads args frame heap = (.ok values, after))
    (passed : .object x ∈ values) : x.type ∈ args ∧ x.Inside := by
  induction args generalizing frame values heap with
  | nil =>
    cases made
    cases passed
  | cons type rest ih =>
    cases frame with
    | nil =>
      cases made
      cases passed
    | cons bytes others =>
      unfold Trampoline.decodeArgs at made
      obtain ⟨value, middle, decoded, made⟩ := HeapM.bind_eq_ok.mp made
      obtain ⟨tail, last, decoded_rest, made⟩ := HeapM.bind_eq_ok.mp made
      cases made
      rcases List.mem_cons.mp passed with here | later
      · obtain rfl := object_of_grantedIf here
        obtain ⟨same, inside⟩ := decode_inside decoded
        exact ⟨same ▸ List.mem_cons_self, inside⟩
      · obtain ⟨mem, inside⟩ := ih decoded_rest later
        exact ⟨List.mem_cons_of_mem _ mem, inside⟩

variable {types : CType → Prop}

theorem Reachable.inside (contained : ∀ type, types type → type.Contained)
    (reached : Reachable types x) : x.Inside ∧ x.type.Contained := by
  induction reached with
  | create allowed made =>
    obtain ⟨same, inside⟩ := create_inside made
    exact ⟨inside, same ▸ contained _ allowed⟩
  | ofValue allowed made =>
    obtain ⟨same, inside⟩ := ofValue_inside made
    exact ⟨inside, same ▸ contained _ allowed⟩
  | inBlock allowed made | reinterpret _ allowed made =>
    obtain ⟨same, inside⟩ := inBlock_eq_ok made
    refine ⟨inside, ?_⟩
    rw [same]
    exact contained _ allowed
  | field _ made ih =>
    obtain ⟨layout, member, composite, found, rfl⟩ := field_eq_ok made
    have mem := (Layout.mem_of_member? found).1
    obtain ⟨inside, whole⟩ := ih
    rw [composite] at whole
    cases whole with
    | undivided undivided => cases undivided.2
    | composite ends parts => exact ⟨field_inside inside composite (ends _ mem), parts _ mem⟩
  | item _ made ih =>
    obtain ⟨element, count, array, below, rfl⟩ := item_eq_ok made
    obtain ⟨inside, whole⟩ := ih
    rw [array] at whole
    cases whole with
    | undivided undivided => cases undivided.1
    | array parts => exact ⟨item_inside inside array below, parts⟩
  | contents allowed made =>
    obtain ⟨same, inside⟩ := contents_inside made
    exact ⟨inside, same ▸ contained _ allowed⟩
  | result allowed made =>
    obtain ⟨same, inside⟩ := decodeResult_inside made
    exact ⟨inside, same ▸ contained _ allowed⟩
  | argument allowed made passed =>
    obtain ⟨mem, inside⟩ := decodeArgs_inside made passed
    exact ⟨inside, contained _ (allowed _ mem)⟩

/-- Reading reachable instances of the types that registries make stays in their blocks. -/
theorem reachable_sound (built : ∀ type, types type → type.Built) :
    ∀ x, Reachable types x → x.Sound := by
  intro x reached
  obtain ⟨inside, contained⟩ := reached.inside fun type allowed => (built type allowed).contained
  exact inside.sound contained

/-- The first block for a struct with bit-fields. -/
def mixedInstance : Instance :=
  ⟨.composite Layout.mixedLayout, ⟨0, 0x10000000000, Layout.mixedLayout.size, false⟩, 0⟩

/-- A fresh instance of a struct with bit-fields can be read. -/
theorem reachable_sound_mixed :
    create (.composite Layout.mixedLayout) .empty
        = (.ok mixedInstance, (create (.composite Layout.mixedLayout) .empty).2)
      ∧ mixedInstance.Sound := by
  have built : ∀ type, type = CType.composite Layout.mixedLayout → type.Built := by
    rintro _ rfl
    exact .composite Layout.mixed_built Layout.compute_mixed
  have made : create (.composite Layout.mixedLayout) .empty = (.ok mixedInstance, _) := rfl
  exact ⟨made, reachable_sound built mixedInstance (.create rfl made)⟩

end CInterop.Instance
