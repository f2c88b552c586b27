import CInterop.Pointer
import CInterop.Proofs.View.KeepAlive
import CInterop.Proofs.View.Reading

/-!
# Writes that fail

A list or a record is stored part by part. `View.pieces` lists the parts of a write in their order:
the checks that come before anything is stored, and the stores of values that have no parts of their
own. Each piece happens or changes nothing (`Piece.atomic`), and a write is no more than its pieces
(`write_eq_pieces`). There is no way back, so that what was stored before the piece that fails stays
stored (`failed_write_stops`).
-/

namespace CInterop

open HeapM

namespace View

variable {view : View}

/-! ## Stores of values without parts -/

theorem atomic_writeScalar (type : CType) (offset : Nat) (value : Value) :
    Atomic (view.writeScalar type offset value) := by
  unfold writeScalar
  split
  case h_1 | h_2 | h_3 =>
    refine quiet_get.bind_atomic fun heap => ?_
    exact (quiet_lift _).bind_atomic fun bits => view.atomic_located offset _ _
  case h_4 | h_5 => exact (quiet_lift _).bind_atomic fun word => view.atomic_located offset _ _
  case h_6 target width => exact view.atomic_writePointer offset target width value
  case h_7 => exact (quiet_throw _).atomic

theorem total_located {offset length : Nat} (inside : offset + length ≤ view.length)
    (change : Nat → Memory → Memory) :
    Total (do Heap.onMemory (change (← view.target offset length))) := by
  unfold target
  rw [locate_of_le inside]
  exact total_onMemory _

/-- A text that an array in the view has space for is stored with its end. -/
theorem total_writeText {type : CType} {count offset : Nat} {text : String}
    (inside : offset + count ≤ view.length) (short : (Text.Utf8.encode text).length ≤ count) :
    Total (view.writeText type count offset text) := by
  unfold writeText
  dsimp only
  rw [if_pos short]
  refine (total_located (by omega) fun address memory => memory.store address _).bind fun _ => ?_
  split
  case isTrue => exact total_located (by omega) fun address memory => memory.fill address 1 0
  case isFalse => exact total_pure _

theorem atomic_writeText {type : CType} {count offset : Nat} {text : String}
    (inside : offset + count ≤ view.length) : Atomic (view.writeText type count offset text) := by
  by_cases short : (Text.Utf8.encode text).length ≤ count
  · exact (total_writeText inside short).atomic
  · unfold writeText
    dsimp only
    rw [if_neg short]
    exact (quiet_throw _).atomic

/-- What follows a check may rely on it. -/
theorem atomic_checked {offset length : Nat} {rest : HeapM Unit}
    (own : offset + length ≤ view.length → Atomic rest) :
    Atomic (do let _ ← view.target offset length; rest) := by
  by_cases inside : offset + length ≤ view.length
  · exact (view.quiet_target offset length).bind_atomic fun _ => own inside
  · intro heap failure after failed
    rw [target, locate, if_neg inside] at failed
    cases failed
    rfl

theorem atomic_writeWhole (type : CType) (offset : Nat) (value : Value) :
    Atomic (view.writeWhole type offset value) := by
  unfold writeWhole
  -- What happens to values that are no instance, and to instances of a wrong type.
  extract_lets plain
  have atomic_plain : Atomic (plain ()) := by
    unfold plain
    split
    case h_1 element count =>
      refine atomic_checked fun inside => ?_
      split
      · split
        case isTrue narrow =>
          obtain ⟨single, _⟩ := Bool.and_eq_true_iff.mp narrow
          refine atomic_writeText ?_
          rwa [CType.size, of_decide_eq_true single, Nat.one_mul] at inside
        case isFalse => exact (quiet_throw _).atomic
      · exact (quiet_throw _).atomic
    case h_2 => exact atomic_checked fun _ => (quiet_throw _).atomic
    case h_3 => exact atomic_writeScalar type offset value
  split
  case h_1 source =>
    split
    case isTrue => exact view.atomic_copyInstance offset source
    case isFalse =>
      split
      case isTrue => exact view.atomic_copyPointer offset type source
      case isFalse =>
        split
        case isTrue =>
          refine quiet_get.bind_atomic fun heap => ?_
          exact (quiet_lift _).bind_atomic fun number => atomic_writeScalar type offset number
        case isFalse => exact atomic_plain
  case h_2 => exact atomic_plain

/-! ## Pieces -/

/-- A part of a write that happens or changes nothing. -/
inductive Piece where
  /-- Checks that some bytes lie in the view. -/
  | check (offset length : Nat)
  | refuse (failure : Failure)
  /-- Stores a value that has no parts of its own. -/
  | whole (type : CType) (offset : Nat) (value : Value)
  | bits (type : CType) (offset : Nat) (slot : BitSlot) (value : Value)

namespace Piece

/-- Whether a piece is only a check. -/
def isCheck : Piece → Bool
  | check .. => true
  | _ => false

/-- Does what a piece stands for. -/
def run (view : View) : Piece → HeapM Unit
  | check offset length => do
    let _ ← view.target offset length
    pure ()
  | refuse failure => throw failure
  | whole type offset value => view.writeWhole type offset value
  | bits type offset slot value => view.writeBits type offset slot value

/-- Does what pieces stand for, in their order. -/
def runAll (view : View) : List Piece → HeapM Unit
  | [] => pure ()
  | piece :: rest => do
    piece.run view
    runAll view rest

theorem atomic (piece : Piece) : Atomic (piece.run view) := by
  cases piece with
  | check offset length =>
    exact (view.quiet_target offset length).bind_atomic fun _ => (quiet_pure _).atomic
  | refuse failure => exact (quiet_throw _).atomic
  | whole type offset value => exact atomic_writeWhole type offset value
  | bits type offset slot value => exact view.atomic_writeBits offset type slot value

theorem quiet_of_isCheck {piece : Piece} (check : piece.isCheck = true) :
    Quiet (piece.run view) := by
  cases piece with
  | check offset length => exact (view.quiet_target offset length).bind fun _ => quiet_pure _
  | _ => cases check

theorem runAll_append (pieces rest : List Piece) :
    runAll view (pieces ++ rest) = (do runAll view pieces; runAll view rest) := by
  induction pieces with
  | nil => rfl
  | cons piece others ih => simp only [List.cons_append, runAll, ih, bind_assoc]

theorem runAll_singleton (piece : Piece) : runAll view [piece] = piece.run view := by
  simp only [runAll, bind_pure_unit]

theorem runAll_whole (type : CType) (offset : Nat) (value : Value) :
    runAll view [.whole type offset value] = view.writeWhole type offset value :=
  runAll_singleton _

theorem runAll_check (offset length : Nat) (rest : List Piece) :
    runAll view (.check offset length :: rest)
      = (do let _ ← view.target offset length; runAll view rest) := by
  simp only [runAll, run, bind_assoc, pure_bind]

end Piece

mutual

/-- The pieces of storing a value of a type. -/
def pieces (type : CType) (offset : Nat) : Value → List Piece
  | .list items =>
    match type with
    | .array element count =>
      .check offset type.size ::
        if items.length ≤ count then itemPieces element offset items
        else [.refuse (.typeMismatch "write" type.name s!"list of {items.length} items")]
    | .composite layout =>
      .check offset type.size ::
        if items.length ≤ layout.members.length then memberPieces offset layout.members items
        else [.refuse (.typeMismatch "write" type.name "list")]
    | _ => [.whole type offset (.list items)]
  | .record entries =>
    match type with
    | .composite layout => .check offset type.size :: entryPieces layout offset entries
    | _ => [.whole type offset (.record entries)]
  | value => [.whole type offset value]
termination_by structural value => value

/-- The pieces of storing items as the elements of an array. -/
def itemPieces (element : CType) (offset : Nat) : List Value → List Piece
  | [] => []
  | item :: rest => pieces element offset item ++ itemPieces element (offset + element.size) rest
termination_by structural items => items

/-- The pieces of storing items as the members of a composite. -/
def memberPieces (base : Nat) : List Member → List Value → List Piece
  | _, [] => []
  | [], _ => []
  | member :: members, item :: rest =>
    let place := base + member.offset
    (match member.bits with
      | some slot => [.bits member.type place slot item]
      | none => pieces member.type place item) ++ memberPieces base members rest
termination_by structural _ items => items

/-- The pieces of storing entries as the members of a composite that they name. -/
def entryPieces (layout : Layout) (base : Nat) : List (String × Value) → List Piece
  | [] => []
  | (name, item) :: rest =>
    match layout.member? name with
    | none => [.refuse (.invalidField layout.name name .noSuchMember)]
    | some member =>
      let place := base + member.offset
      (match member.bits with
        | some slot => [.bits member.type place slot item]
        | none => pieces member.type place item) ++ entryPieces layout base rest
termination_by structural entries => entries

end

/-! ## Writes in pieces -/

mutual

/-- Storing a value is storing its pieces. -/
theorem write_eq_pieces (view : View) (type : CType) (offset : Nat) : ∀ value : Value,
    view.write type offset value = Piece.runAll view (pieces type offset value)
  | .list items => by
    unfold write pieces
    cases type with
    | array element count =>
      dsimp only
      rw [Piece.runAll_check]
      split
      case isTrue => rw [writeItems_eq_pieces view element offset items]
      case isFalse => rw [Piece.runAll_singleton]; rfl
    | composite layout =>
      dsimp only
      rw [Piece.runAll_check]
      split
      case isTrue => rw [writeMembers_eq_pieces view offset layout.members items]
      case isFalse => rw [Piece.runAll_singleton]; rfl
    | _ =>
      dsimp only
      rw [Piece.runAll_whole]
      rfl
  | .record entries => by
    unfold write pieces
    cases type with
    | composite layout =>
      dsimp only
      rw [Piece.runAll_check, writeEntries_eq_pieces view layout offset entries]
    | _ =>
      dsimp only
      rw [Piece.runAll_whole]
  | .void => (Piece.runAll_whole type offset .void).symm
  | .null => (Piece.runAll_whole type offset .null).symm
  | .bool b => (Piece.runAll_whole type offset (.bool b)).symm
  | .int i => (Piece.runAll_whole type offset (.int i)).symm
  | .uint u => (Piece.runAll_whole type offset (.uint u)).symm
  | .single word => (Piece.runAll_whole type offset (.single word)).symm
  | .double word => (Piece.runAll_whole type offset (.double word)).symm
  | .text s => (Piece.runAll_whole type offset (.text s)).symm
  | .pointer p => (Piece.runAll_whole type offset (.pointer p)).symm
  | .object x => (Piece.runAll_whole type offset (.object x)).symm
termination_by structural value => value

theorem writeItems_eq_pieces (view : View) (element : CType) (offset : Nat) :
    ∀ items : List Value,
      view.writeItems element offset items = Piece.runAll view (itemPieces element offset items)
  | [] => rfl
  | item :: rest => by
    unfold writeItems itemPieces
    rw [Piece.runAll_append, write_eq_pieces view element offset item,
      writeItems_eq_pieces view element (offset + element.size) rest]
termination_by structural items => items

theorem writeMembers_eq_pieces (view : View) (base : Nat) :
    ∀ (members : List Member) (items : List Value),
      view.writeMembers base members items = Piece.runAll view (memberPieces base members items)
  | _, [] => by
    unfold writeMembers memberPieces
    rfl
  | [], _ :: _ => rfl
  | member :: members, item :: rest => by
    unfold writeMembers memberPieces
    extract_lets place
    rw [Piece.runAll_append, ← writeMembers_eq_pieces view base members rest]
    cases member.bits with
    | none => rw [write_eq_pieces view member.type place item]
    | some slot => rw [Piece.runAll_singleton]; rfl
termination_by structural _ items => items

theorem writeEntries_eq_pieces (view : View) (layout : Layout) (base : Nat) :
    ∀ entries : List (String × Value),
      view.writeEntries layout base entries = Piece.runAll view (entryPieces layout base entries)
  | [] => rfl
  | (name, item) :: rest => by
    unfold writeEntries entryPieces
    cases layout.member? name with
    | none => exact (Piece.runAll_singleton (.refuse _)).symm
    | some member =>
      dsimp only
      rw [Piece.runAll_append, ← writeEntries_eq_pieces view layout base rest]
      cases member.bits with
      | none => rw [write_eq_pieces view member.type _ item]
      | some slot => rw [Piece.runAll_singleton]; rfl
termination_by structural entries => entries

end

/-- The pieces of storing a value as a member of a composite. -/
def piecesOfMember (member : Member) (base : Nat) (value : Value) : List Piece :=
  memberPieces base [member] [value]

theorem writeMember_eq_pieces (view : View) (member : Member) (base : Nat) (value : Value) :
    view.writeMember member base value = Piece.runAll view (piecesOfMember member base value) := by
  rw [piecesOfMember, ← writeMembers_eq_pieces]
  unfold writeMember writeMembers
  cases member.bits <;> exact (bind_pure_unit).symm

/-! ## Where writes stop -/

/-- Where pieces stop: those before some piece have been done, and this one fails and changes
nothing. If only checks were done before, nothing has changed at all. -/
def Stops (view : View) (pieces : List Piece) (heap : Heap) (failure : Failure) (after : Heap) :
    Prop :=
  ∃ done piece rest, pieces = done ++ piece :: rest
    ∧ Piece.runAll view done heap = (.ok (), after)
    ∧ piece.run view after = (.error failure, after)
    ∧ ((∀ piece ∈ done, piece.isCheck = true) → after = heap)

theorem stops_of_runAll {pieces : List Piece} {heap after : Heap} {failure : Failure}
    (failed : Piece.runAll view pieces heap = (.error failure, after)) :
    Stops view pieces heap failure after := by
  induction pieces generalizing heap with
  | nil => cases failed
  | cons piece rest ih =>
    unfold Piece.runAll at failed
    rw [bind_run] at failed
    cases ran : piece.run view heap with
    | mk outcome middle =>
      rw [ran] at failed
      cases outcome with
      | error own =>
        cases failed
        obtain rfl := piece.atomic ran
        exact ⟨[], piece, rest, rfl, rfl, ran, fun _ => rfl⟩
      | ok _ =>
        obtain ⟨done, stopped, others, rfl, before, refused, same⟩ := ih failed
        refine ⟨piece :: done, stopped, others, rfl, (bind_of_ok ran).trans before, refused, ?_⟩
        intro checks
        obtain ⟨check, later⟩ := List.forall_mem_cons.mp checks
        have quiet : Quiet (piece.run view) := Piece.quiet_of_isCheck check
        have unchanged := quiet heap
        rw [ran] at unchanged
        rw [same later]
        exact unchanged

end View

/-! ## Typed writes -/

/-- How an operation that stores a host value finds the view to store it in, and the pieces. -/
inductive Planned : HeapM Unit → HeapM (View × List View.Piece) → Prop
  | write (view : View) (type : CType) (offset : Nat) (value : Value) :
      Planned (view.write type offset value) (pure (view, View.pieces type offset value))
  | setValue (x : Instance) (value : Value) :
      Planned (x.setValue value) (do return (← liftM x.view, View.pieces x.type 0 value))
  | set (x : Instance) (name : String) (value : Value) :
      Planned (x.set name value) (do
        let member ← liftM (x.member name)
        return (← liftM x.view, View.piecesOfMember member 0 value))
  | setIndex (x : Instance) (index : Nat) (value : Value) :
      Planned (x.setIndex index value) (do
        let element ← liftM (x.item index)
        return (← liftM element.view, View.pieces element.type 0 value))
  | pointer (p : Pointer) (index : Int64) (value : Value) :
      Planned (p.setIndex index value) (do
        let (view, offset) ← p.element "index_set" index
        return (view, View.pieces p.target offset value))

/-- An operation is the pieces of its plan, and what cannot fail any more after them. -/
theorem Planned.eq_pieces {operation : HeapM Unit} {plan : HeapM (View × List View.Piece)}
    (planned : Planned operation plan) :
    ∃ finish : View → HeapM Unit, (∀ view, Total (finish view))
      ∧ operation = (do
          let (view, pieces) ← plan
          View.Piece.runAll view pieces
          finish view) := by
  cases planned with
  | write view type offset value =>
    refine ⟨fun _ => pure (), fun _ => total_pure _, ?_⟩
    simp only [pure_bind, bind_pure_unit, View.write_eq_pieces]
  | setValue x value =>
    refine ⟨fun _ => pure (), fun _ => total_pure _, ?_⟩
    simp only [Instance.setValue, bind_assoc, pure_bind, bind_pure_unit, View.write_eq_pieces]
  | set x name value =>
    refine ⟨fun _ => pure (), fun _ => total_pure _, ?_⟩
    simp only [Instance.set, bind_assoc, pure_bind, bind_pure_unit, View.writeMember_eq_pieces]
  | setIndex x index value =>
    refine ⟨fun _ => pure (), fun _ => total_pure _, ?_⟩
    simp only [Instance.setIndex, Instance.setValue, bind_assoc, pure_bind, bind_pure_unit,
      View.write_eq_pieces]
  | pointer p index value =>
    refine ⟨fun view => if view.block.native then modify (Heap.leak view.block) else pure (),
      ?_, ?_⟩
    · intro view
      dsimp only
      split
      · exact total_modify _
      · exact total_pure _
    · simp only [Pointer.setIndex, bind_assoc, pure_bind, View.write_eq_pieces]

theorem still_foreignBlock (p : Pointer) (operation : String) (address : UInt64) (size : Nat) :
    Still (p.foreignBlock operation address size) := by
  unfold Pointer.foreignBlock Heap.wrapNative
  intro heap
  cases p.granted with
  | false => exact ⟨rfl, rfl⟩
  | true =>
    by_cases null : address = 0
    · rw [if_pos null]
      exact ⟨rfl, rfl⟩
    · rw [if_neg null]
      exact ⟨rfl, rfl⟩

theorem still_element (p : Pointer) (operation : String) (index : Int64) :
    Still (p.element operation index) := by
  unfold Pointer.element
  refine (quiet_lift _).still.bind fun size => ?_
  split
  case h_1 => exact (quiet_throw _).still
  case h_2 block offset =>
    dsimp only
    split
    · exact (quiet_pure _).still
    · exact (quiet_throw _).still
    · exact (quiet_throw _).still
  case h_3 address =>
    exact (still_foreignBlock p operation _ size).bind fun block => (quiet_pure _).still

theorem Planned.still {operation : HeapM Unit} {plan : HeapM (View × List View.Piece)}
    (planned : Planned operation plan) : Still plan := by
  cases planned with
  | write => exact (quiet_pure _).still
  | setValue => exact ((quiet_lift _).bind fun _ => quiet_pure _).still
  | set =>
    exact ((quiet_lift _).bind fun _ => (quiet_lift _).bind fun _ => quiet_pure _).still
  | setIndex =>
    exact ((quiet_lift _).bind fun _ => (quiet_lift _).bind fun _ => quiet_pure _).still
  | pointer p index => exact (still_element p _ index).bind fun _ => (quiet_pure _).still

/-- An operation that stores a host value and fails has changed nothing before it comes to the
pieces of the value, and leaves what its pieces leave where they stop: what comes before the piece
that fails is stored, and nothing else has changed. -/
theorem failed_write_stops {operation : HeapM Unit} {plan : HeapM (View × List View.Piece)}
    (planned : Planned operation plan) {heap after : Heap} {failure : Failure}
    (failed : operation heap = (.error failure, after)) :
    ∃ start : Heap, start.memory = heap.memory ∧ start.kept = heap.kept
      ∧ (plan heap = (.error failure, start) ∧ after = start
        ∨ ∃ view pieces, plan heap = (.ok (view, pieces), start)
          ∧ view.Stops pieces start failure after) := by
  obtain ⟨finish, total, rfl⟩ := planned.eq_pieces
  obtain ⟨memory, kept⟩ := planned.still heap
  rw [bind_run] at failed
  cases ran : plan heap with
  | mk outcome start =>
    rw [ran] at failed memory kept
    refine ⟨start, memory, kept, ?_⟩
    cases outcome with
    | error own =>
      cases failed
      exact .inl ⟨rfl, rfl⟩
    | ok found =>
      obtain ⟨view, pieces⟩ := found
      have stopped := error_of_bind_total (fun _ => total view) failed
      exact .inr ⟨view, pieces, rfl, View.stops_of_runAll stopped⟩

/-! ## A list that is stored in part -/

namespace Ledger

/-- A text, and a truth value that is no text. -/
def textAndTruth : Value := .list [.text "hello", .bool true]

theorem pair_refuses_truth :
    pair.setValue textAndTruth pairLedger.heap
      = (.error (.typeMismatch "write" "char*" "bool"), storedLedger.heap) := rfl

/-- The pieces stop at the truth value. -/
theorem pair_stops_at_truth :
    ∃ (view : View) (pieces : List View.Piece),
      view.Stops pieces pairLedger.heap (.typeMismatch "write" "char*" "bool")
        storedLedger.heap := by
  obtain ⟨start, _, _, ⟨refused, _⟩ | ⟨view, pieces, planned, stops⟩⟩ :=
    failed_write_stops (.setValue pair textAndTruth) pair_refuses_truth
  · cases refused
  · cases planned
    exact ⟨_, _, stops⟩

/-- The list is refused, and yet its text is stored and kept. -/
theorem pair_stored_in_part :
    let outcome := pair.setValue textAndTruth pairLedger.heap
    outcome.1 = .error (.typeMismatch "write" "char*" "bool")
      ∧ pair.getIndex pairLedger.heap 0 = .ok .null ∧ pairLedger.heap.keptBy pairBlock = []
      ∧ pair.getIndex outcome.2 0 = .ok (.text "hello")
      ∧ outcome.2.keptBy pairBlock = [(0, hello)] :=
  ⟨rfl, rfl, rfl, rfl, rfl⟩

end Ledger

end CInterop
