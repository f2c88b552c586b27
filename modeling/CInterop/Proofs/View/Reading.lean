import CInterop.Proofs.Layout.Members
import CInterop.View

/-!
# Reading inside a view

Reading a value that lies inside a view stays inside, if members end inside their composites: the
elements of an array and the members of a composite are then read inside the bytes of the whole.
-/

namespace CInterop.View

theorem locate_of_le {view : View} {operation : String} {offset length : Nat}
    (inside : offset + length ≤ view.length) :
    view.locate operation offset length = .ok (view.block.base + view.start + offset) :=
  locate_eq_ok_iff.mpr ⟨inside, rfl⟩

theorem locate_of_lt {view : View} {operation : String} {offset length : Nat}
    (outside : view.length < offset + length) :
    view.locate operation offset length
      = .error (.outOfBounds operation (Word.signed offset) length view.length) :=
  if_neg (Nat.not_le.mpr outside)

variable {heap : Heap} {view : View}

theorem readBytes_of_le {offset count : Nat} (inside : offset + count ≤ view.length) :
    view.readBytes heap offset count
      = .ok (heap.memory.load (view.block.base + view.start + offset) count) := by
  unfold readBytes
  rw [locate_of_le inside]
  rfl

theorem readWord_of_le {offset count : Nat} (inside : offset + count ≤ view.length) :
    view.readWord heap offset count
      = .ok (heap.memory.loadWord (view.block.base + view.start + offset) count) := by
  unfold readWord
  rw [locate_of_le inside]
  rfl

theorem readUnit_of_le {offset size : Nat} (inside : offset + size ≤ view.length) :
    view.readUnit heap offset size
      = .ok (heap.memory.loadWord (view.block.base + view.start + offset)
          (Bits.unitBytes size)) := by
  unfold readUnit
  rw [locate_of_le inside]
  rfl

theorem staysInside_of_locate {α : Type} {operation : String} {offset length : Nat}
    {next : Nat → Except Failure α} (inside : offset + length ≤ view.length)
    (rest : ∀ address, StaysInside (next address)) :
    StaysInside (view.locate operation offset length >>= next) := by
  rw [locate_of_le inside]
  exact rest _

theorem readWord_staysInside {offset count : Nat} (inside : offset + count ≤ view.length) :
    StaysInside (view.readWord heap offset count) :=
  staysInside_of_locate inside fun _ => .ok _

theorem readBits_staysInside {type : CType} {offset : Nat} {slot : BitSlot}
    (inside : offset + type.size ≤ view.length) :
    StaysInside (view.readBits heap type offset slot) := by
  refine staysInside_of_locate inside fun address => ?_
  refine .bind ?_ fun _ _ => .ok _
  unfold Word.shift
  split
  · exact .ok _
  · exact .overflow _

theorem readMembers_cons (member : Member) (rest : List Member) (base : Nat) :
    readMembers heap view (member :: rest) base = (do
      let value ← view.readMember heap member base
      let entries ← readMembers heap view rest base
      pure ((member.name, value) :: entries)) := by
  obtain ⟨name, type, offset, bits⟩ := member
  cases bits <;> rfl

theorem readMembers_eq_ok {members : List Member} {base : Nat} {entries : List (String × Value)} :
    readMembers heap view members base = .ok entries ↔
      List.Forall₂ (fun member entry => entry.1 = member.name
          ∧ view.readMember heap member base = .ok entry.2) members entries := by
  induction members generalizing entries with
  | nil =>
    rw [List.forall₂_nil_left_iff]
    exact ⟨fun same => by cases same; rfl, fun same => same ▸ rfl⟩
  | cons member rest ih =>
    rw [readMembers_cons, bind_eq_ok, List.forall₂_cons_left_iff]
    constructor
    · rintro ⟨value, first, others⟩
      obtain ⟨tail, rest_read, same⟩ := bind_eq_ok.mp others
      cases same
      exact ⟨_, tail, ⟨rfl, first⟩, ih.mp rest_read, rfl⟩
    · rintro ⟨⟨name, value⟩, tail, ⟨same, first⟩, others, rfl⟩
      obtain rfl : name = member.name := same
      exact ⟨value, first, bind_eq_ok.mpr ⟨tail, ih.mpr others, rfl⟩⟩

theorem readMembers_staysInside {members : List Member} {base : Nat}
    (inside : ∀ member ∈ members, StaysInside (view.readMember heap member base)) :
    StaysInside (readMembers heap view members base) := by
  induction members with
  | nil => exact .ok _
  | cons member rest ih =>
    rw [readMembers_cons]
    refine .bind (inside member List.mem_cons_self) fun _ _ => ?_
    exact .bind (ih fun other later => inside other (List.mem_cons_of_mem _ later))
      fun _ _ => .ok _

/-- A member that ends inside its composite is read inside the view that the composite lies in. -/
theorem readMember_staysInside {member : Member} {base size : Nat}
    (whole : base + size ≤ view.length) (inside : member.endByte ≤ size)
    (read : ∀ offset, offset + member.type.size ≤ view.length →
      StaysInside (view.read heap member.type offset)) :
    StaysInside (view.readMember heap member base) := by
  have fits : base + member.offset + member.type.size ≤ view.length := by
    unfold Placed.endByte at inside
    omega
  unfold readMember
  cases bits : member.bits with
  | none => exact read _ fits
  | some slot => exact readBits_staysInside fits

theorem element_le (size : Nat) {i count : Nat} (inside : i < count) :
    i * size + size ≤ size * count :=
  calc
    i * size + size = size * (i + 1) := by rw [Nat.mul_add, Nat.mul_one, Nat.mul_comm]
    _ ≤ size * count := Nat.mul_le_mul_left size inside

theorem read_staysInside {type : CType} (contained : type.Contained) {offset : Nat}
    (inside : offset + type.size ≤ view.length) :
    StaysInside (view.read heap type offset) := by
  induction contained generalizing offset with
  | @undivided type undivided =>
    cases type with
    | void =>
      intro _ _ _ _ failed
      cases failed
    | bool => exact .bind (readWord_staysInside inside) fun _ _ => .ok _
    | int => exact .bind (readWord_staysInside inside) fun _ _ => .ok _
    | stray => exact .bind (staysInside_of_locate inside fun _ => .ok _) fun _ _ => .ok _
    | float precision =>
      cases precision <;> exact .bind (readWord_staysInside inside) fun _ _ => .ok _
    | pointer => exact .bind (readWord_staysInside inside) fun _ _ => .ok _
    | array => cases undivided.1
    | composite => cases undivided.2
  | @array element count _ ih =>
    refine staysInside_of_locate inside fun _ => ?_
    refine .bind (.mapM fun i mem => ?_) fun _ _ => .ok _
    have below : i < count := List.mem_range.mp mem
    have ends := element_le element.size below
    simp only [CType.size] at inside
    exact ih (by omega)
  | composite ends _ ih =>
    refine staysInside_of_locate inside fun _ => ?_
    refine .bind (readMembers_staysInside fun member mem => ?_) fun _ _ => .ok _
    exact readMember_staysInside inside (ends member mem) fun _ fits => ih member mem fits

/-- A value that does not lie inside a view is refused before anything is read. -/
theorem read_of_lt {type : CType} (present : type.isVoid = false) {offset : Nat}
    (outside : view.length < offset + type.size) :
    view.read heap type offset
      = .error (.outOfBounds "read" (Word.signed offset) type.size view.length) := by
  have refused : ∀ {α : Type} (next : Nat → Except Failure α),
      (view.locate "read" offset type.size >>= next)
        = .error (.outOfBounds "read" (Word.signed offset) type.size view.length) := by
    intro α next
    rw [locate_of_lt outside]
    rfl
  have word_refused : ∀ next : UInt64 → Except Failure Value,
      (view.readWord heap offset type.size >>= next)
        = .error (.outOfBounds "read" (Word.signed offset) type.size view.length) := by
    intro next
    rw [readWord, refused]
    rfl
  cases type with
  | void => cases present
  | bool | int | pointer => exact word_refused _
  | stray =>
    unfold read readUnit
    rw [bind_assoc]
    exact refused _
  | float precision => cases precision <;> exact word_refused _
  | array | composite => exact refused _

end CInterop.View
