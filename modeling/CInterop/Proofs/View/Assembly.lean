import CInterop.Proofs.Heap.Run
import CInterop.Proofs.Layout.Members
import CInterop.View.Write

/-!
# What writes are made of

A write runs through the value: a list or a record is written part by part, and what has no parts of
its own is one store. `Assembly` says that stores are related in some way, and that sequences are
when their parts are; then the writes of a value through two views are (`Assembly.write`), wherever
`fits` holds of the type and its place. A property of one write is a relation that looks at one of
the two views only.
-/

namespace CInterop.View

/-- What `fits` and `fitsBits` say of a member of a composite that lies at an offset. -/
def MemberFits (fits : CType → Nat → Prop) (fitsBits : CType → Nat → BitSlot → Prop) (base : Nat)
    (member : Member) : Prop :=
  match member.bits with
  | none => fits member.type (base + member.offset)
  | some slot => fitsBits member.type (base + member.offset) slot

section

variable {fits : CType → Nat → Prop} {fitsBits : CType → Nat → BitSlot → Prop} {base : Nat}
  {member : Member}

theorem MemberFits.plain (fit : MemberFits fits fitsBits base member)
    (plain : member.bits = none) : fits member.type (base + member.offset) := by
  rwa [MemberFits, plain] at fit

theorem MemberFits.slot {slot : BitSlot} (fit : MemberFits fits fitsBits base member)
    (bits : member.bits = some slot) :
    fitsBits member.type (base + member.offset) slot := by
  rwa [MemberFits, bits] at fit

end

/-- Where nothing is asked of types and places, members fit. -/
theorem memberFits_true (base : Nat) (member : Member) :
    MemberFits (fun _ _ => True) (fun _ _ _ => True) base member := by
  unfold MemberFits
  split <;> trivial

/-- A relation of operations that the writes through two views are assembled with. The stores have
it where `fits` holds of the type and the offset, or `fitsBits` of the bit-field. -/
structure Assembly (view other : View) (holds : HeapM Unit → HeapM Unit → Prop)
    (fits : CType → Nat → Prop) (fitsBits : CType → Nat → BitSlot → Prop) : Prop where
  done : holds (pure ()) (pure ())
  refused (failure : Failure) : holds (throw failure) (throw failure)
  located (offset length : Nat) {rest rest' : HeapM Unit} (own : holds rest rest') :
    holds (do let _ ← view.target offset length; rest)
      (do let _ ← other.target offset length; rest')
  both {first rest first' rest' : HeapM Unit} (own : holds first first')
    (others : holds rest rest') : holds (do first; rest) (do first'; rest')
  scalar {type : CType} {offset : Nat} (value : Value) (fit : fits type offset) :
    holds (view.writeScalar type offset value) (other.writeScalar type offset value)
  number {type : CType} {offset : Nat} {source : Instance} (fit : fits type offset)
    (from_scalar : source.type.isScalar = true) (scalar : type.isScalar = true)
    (plain : type.isPointer = false) :
    holds (do view.writeScalar type offset (← liftM (source.value (← get))))
      (do other.writeScalar type offset (← liftM (source.value (← get))))
  copied {type : CType} {offset : Nat} {source : Instance} (fit : fits type offset)
    (same : (source.type == type) = true) :
    holds (view.copyInstance offset source) (other.copyInstance offset source)
  held {type : CType} {offset : Nat} {source : Instance} (fit : fits type offset)
    (from_pointer : source.type.isPointer = true) (pointer : type.isPointer = true) :
    holds (view.copyPointer type offset source) (other.copyPointer type offset source)
  text {element : CType} {count offset : Nat} (text : String)
    (fit : fits (.array element count) offset) (single : element.size = 1) :
    holds (view.writeText (.array element count) count offset text)
      (other.writeText (.array element count) count offset text)
  bits {type : CType} {offset : Nat} {slot : BitSlot} (value : Value)
    (fit : fitsBits type offset slot) :
    holds (view.writeBits type offset slot value) (other.writeBits type offset slot value)
  item {element : CType} {count offset i : Nat} (fit : fits (.array element count) offset)
    (below : i < count) : fits element (offset + i * element.size)
  member {layout : Layout} {offset : Nat} {member : Member} (fit : fits (.composite layout) offset)
    (mem : member ∈ layout.members) : MemberFits fits fitsBits offset member

/-- Writes have what the stores have, if what only looks has it and sequences have it. -/
theorem assembly_of_stores {view : View} {holds : HeapM Unit → Prop} {fits : CType → Nat → Prop}
    {fitsBits : CType → Nat → BitSlot → Prop}
    (quiet : ∀ {operation}, HeapM.Quiet operation → holds operation)
    (looking : ∀ {α : Type} {first : HeapM α} {next}, HeapM.Quiet first →
      (∀ a, holds (next a)) → holds (first >>= next))
    (both : ∀ {first rest}, holds first → holds rest → holds (do first; rest))
    (scalar : ∀ {type offset} value, fits type offset → holds (view.writeScalar type offset value))
    (copied : ∀ {type offset} {source : Instance}, fits type offset →
      (source.type == type) = true → holds (view.copyInstance offset source))
    (held : ∀ {type offset} source, fits type offset →
      holds (view.copyPointer type offset source))
    (text : ∀ {element count offset} text, fits (.array element count) offset →
      element.size = 1 → holds (view.writeText (.array element count) count offset text))
    (bits : ∀ {type offset slot} value, fitsBits type offset slot →
      holds (view.writeBits type offset slot value))
    (item : ∀ {element count offset i}, fits (.array element count) offset → i < count →
      fits element (offset + i * element.size))
    (member : ∀ {layout offset member}, fits (.composite layout) offset →
      member ∈ layout.members → MemberFits fits fitsBits offset member) :
    Assembly view view (fun operation _ => holds operation) fits fitsBits where
  done := quiet (HeapM.quiet_pure ())
  refused failure := quiet (HeapM.quiet_throw failure)
  located _ _ _ _ rest := looking (HeapM.quiet_lift _) fun _ => rest
  both := both
  scalar := scalar
  number fit _ _ _ := looking HeapM.quiet_get fun _ =>
    looking (HeapM.quiet_lift _) fun number => scalar number fit
  copied := copied
  held fit _ _ := held _ fit
  text := text
  bits := bits
  item := item
  member := member

namespace Assembly

variable {view other : View} {holds : HeapM Unit → HeapM Unit → Prop} {fits : CType → Nat → Prop}
  {fitsBits : CType → Nat → BitSlot → Prop} {type : CType} {offset : Nat}

theorem writeWhole (assembly : Assembly view other holds fits fitsBits) (value : Value)
    (fit : fits type offset) :
    holds (view.writeWhole type offset value) (other.writeWhole type offset value) := by
  unfold View.writeWhole
  -- What happens to values that are no instance, and to instances of a wrong type.
  extract_lets plain plain'
  have holds_plain : holds (plain ()) (plain' ()) := by
    unfold plain plain'
    split
    case h_1 element count =>
      refine assembly.located _ _ ?_
      split
      · split
        case isTrue narrow =>
          obtain ⟨single, _⟩ := Bool.and_eq_true_iff.mp narrow
          exact assembly.text _ fit (of_decide_eq_true single)
        case isFalse => exact assembly.refused _
      · exact assembly.refused _
    case h_2 => exact assembly.located _ _ (assembly.refused _)
    case h_3 => exact assembly.scalar value fit
  split
  case h_1 source =>
    split
    case isTrue same => exact assembly.copied fit same
    case isFalse =>
      split
      case isTrue pointers =>
        obtain ⟨from_pointer, pointer⟩ := Bool.and_eq_true_iff.mp pointers
        exact assembly.held fit from_pointer pointer
      case isFalse =>
        split
        case isTrue scalars =>
          obtain ⟨both, plain⟩ := Bool.and_eq_true_iff.mp scalars
          obtain ⟨from_scalar, scalar⟩ := Bool.and_eq_true_iff.mp both
          exact assembly.number fit from_scalar scalar (by simpa using plain)
        case isFalse => exact holds_plain
  case h_2 => exact holds_plain

mutual

theorem write (assembly : Assembly view other holds fits fitsBits) (type : CType) (offset : Nat) :
    ∀ value : Value, fits type offset →
      holds (view.write type offset value) (other.write type offset value)
  | .list items, fit => by
    unfold View.write
    split
    case h_1 element count =>
      refine assembly.located _ _ ?_
      split
      case isTrue short =>
        exact assembly.writeItems element offset items fun i below =>
          assembly.item fit (Nat.lt_of_lt_of_le below short)
      case isFalse => exact assembly.refused _
    case h_2 layout =>
      refine assembly.located _ _ ?_
      split
      · exact assembly.writeMembers offset layout.members items fun member mem =>
          assembly.member fit mem
      · exact assembly.refused _
    case h_3 => exact assembly.scalar _ fit
  | .record entries, fit => by
    unfold View.write
    split
    case h_1 layout =>
      exact assembly.located _ _ (assembly.writeEntries layout offset entries fit)
    case h_2 => exact assembly.writeWhole _ fit
  | .void, fit => assembly.writeWhole .void fit
  | .null, fit => assembly.writeWhole .null fit
  | .bool b, fit => assembly.writeWhole (.bool b) fit
  | .int i, fit => assembly.writeWhole (.int i) fit
  | .uint i, fit => assembly.writeWhole (.uint i) fit
  | .single word, fit => assembly.writeWhole (.single word) fit
  | .double word, fit => assembly.writeWhole (.double word) fit
  | .text s, fit => assembly.writeWhole (.text s) fit
  | .pointer p, fit => assembly.writeWhole (.pointer p) fit
  | .object x, fit => assembly.writeWhole (.object x) fit
termination_by structural value => value

theorem writeItems (assembly : Assembly view other holds fits fitsBits) (element : CType)
    (offset : Nat) : ∀ items : List Value,
      (∀ i < items.length, fits element (offset + i * element.size)) →
      holds (view.writeItems element offset items) (other.writeItems element offset items)
  | [], _ => assembly.done
  | item :: rest, fit => by
    refine assembly.both (assembly.write element offset item ?_)
      (assembly.writeItems element (offset + element.size) rest fun i below => ?_)
    · simpa using fit 0 (Nat.zero_lt_succ _)
    · have later := fit (i + 1) (Nat.succ_lt_succ below)
      rwa [Nat.succ_mul, Nat.add_comm (i * _), ← Nat.add_assoc] at later
termination_by structural items => items

theorem writeMembers (assembly : Assembly view other holds fits fitsBits) (base : Nat) :
    ∀ (members : List Member) (items : List Value),
      (∀ member ∈ members, MemberFits fits fitsBits base member) →
      holds (view.writeMembers base members items) (other.writeMembers base members items)
  | _, [], _ => by
    unfold View.writeMembers
    exact assembly.done
  | [], _ :: _, _ => assembly.done
  | member :: members, item :: rest, fit => by
    unfold View.writeMembers
    extract_lets place
    have others := assembly.writeMembers base members rest fun other later =>
      fit other (List.mem_cons_of_mem _ later)
    have own := fit member List.mem_cons_self
    cases bits : member.bits with
    | none => exact assembly.both (assembly.write member.type place item (own.plain bits)) others
    | some slot => exact assembly.both (assembly.bits item (own.slot bits)) others
termination_by structural _ items => items

theorem writeEntries (assembly : Assembly view other holds fits fitsBits) (layout : Layout)
    (base : Nat) : ∀ entries : List (String × Value), fits (.composite layout) base →
      holds (view.writeEntries layout base entries) (other.writeEntries layout base entries)
  | [], _ => assembly.done
  | (name, item) :: rest, fit => by
    unfold View.writeEntries
    have others := assembly.writeEntries layout base rest fit
    cases found : layout.member? name with
    | none => exact assembly.refused _
    | some member =>
      dsimp only
      have own := assembly.member fit (Layout.mem_of_member? found).1
      cases bits : member.bits with
      | none => exact assembly.both (assembly.write member.type _ item (own.plain bits)) others
      | some slot => exact assembly.both (assembly.bits item (own.slot bits)) others
termination_by structural entries => entries

end

theorem writeMember (assembly : Assembly view other holds fits fitsBits) {member : Member}
    {base : Nat} (value : Value) (fit : MemberFits fits fitsBits base member) :
    holds (view.writeMember member base value) (other.writeMember member base value) := by
  unfold View.writeMember
  extract_lets place
  cases bits : member.bits with
  | none => exact assembly.write member.type place value (fit.plain bits)
  | some slot => exact assembly.bits value (fit.slot bits)

end Assembly

end CInterop.View
