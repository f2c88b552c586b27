import Mathlib.Data.List.Forall2
import CInterop.Proofs.Call.Slots

/-!
# All arguments of a call

The arguments of a call can be written exactly when the binding accepts them: there are enough and
not too many of them, each declared one can be passed as its type, and each one behind these as the
type that follows from its value (`Binding.marshal_cases`). They are then written one after the
other, each to a slot of its own (`Frame.Filled`).
-/

namespace CInterop

open HeapM
open Heap.ChangedOnly (Nothing)

namespace Frame

/-- The arguments were written to slots of their own, one after the other. In the end each slot
holds what was written to it. -/
inductive Filled (function : String) :
    Nat → List CType → List Value → Frame → Heap → Heap → Prop
  | none (position : Nat) (heap : Heap) : Filled function position [] [] [] heap heap
  | next {position : Nat} {type : CType} {value : Value} {types : List CType}
      {values : List Value} {slot : Block} {frame : Frame} {heap middle after : Heap}
      (pushed : Frame.push [] function position type value heap = (.ok [slot], middle))
      (lasts : after.memory.load slot.base slot.length = middle.memory.load slot.base slot.length)
      (rest : Filled function (position + 1) types values frame middle after) :
      Filled function position (type :: types) (value :: values) (slot :: frame) heap after

namespace Filled

variable {function : String} {position : Nat} {types types' : List CType}
  {values values' : List Value} {frame frame' : Frame} {heap middle after : Heap}

theorem changedOnly (filled : Filled function position types values frame heap after) :
    Heap.ChangedOnly Nothing Nothing heap after := by
  induction filled with
  | none => exact .refl _
  | next pushed _ _ others => exact ((touches_push _ _ _ _ _).changed pushed).trans others

theorem length_eq (filled : Filled function position types values frame heap after) :
    frame.length = values.length := by
  induction filled with
  | none => rfl
  | next _ _ _ same => exact congrArg (· + 1) same

/-- What is written later leaves the slots alone. -/
theorem cons {type : CType} {value : Value} {slot : Block}
    (pushed : Frame.push [] function position type value heap = (.ok [slot], middle))
    (rest : Filled function (position + 1) types values frame middle after) :
    Filled function position (type :: types) (value :: values) (slot :: frame) heap after := by
  obtain ⟨_, same, below, -⟩ := push_append pushed
  cases same
  exact .next pushed (rest.changedOnly.load below) rest

theorem append (first : Filled function position types values frame heap middle)
    (second : Filled function (position + values.length) types' values' frame' middle after) :
    Filled function position (types ++ types') (values ++ values') (frame ++ frame') heap
      after := by
  induction first with
  | none => exact second
  | next pushed _ _ ih =>
    refine cons pushed (ih ?_)
    rwa [List.length_cons, Nat.add_comm _ 1, ← Nat.add_assoc] at second

end Filled

end Frame

open CInterop.Frame (Filled Marshals)

/-- A value behind the declared arguments is passed as the promotion of its own type. -/
def Value.PassedAs (value : Value) (type : CType) : Prop :=
  ∃ inferred, value.inferred? .host = some inferred ∧ inferred.promoted .host = .ok type

namespace Binding

/-- The arguments that a binding accepts. -/
structure Accepts (binding : Binding) (args : List Value) : Prop where
  enough : binding.signature.args.length ≤ args.length
  bounded : binding.signature.variadic = false → args.length ≤ binding.signature.args.length
  declared : List.Forall₂ Marshals binding.signature.args
    (args.take binding.signature.args.length)
  trailing : ∀ value ∈ args.drop binding.signature.args.length,
    ∃ type, value.PassedAs type ∧ Marshals type value

variable {bits blocks : Nat → Prop}

theorem checkArity_eq_ok {binding : Binding} {args : List Value} :
    binding.checkArity args = .ok () ↔ binding.signature.args.length ≤ args.length
      ∧ (binding.signature.variadic = false → args.length ≤ binding.signature.args.length) := by
  unfold checkArity
  dsimp only
  split
  case h_1 missing few =>
    obtain ⟨short, -⟩ := List.getElem?_eq_some_iff.mp few
    exact iff_of_false (fun failed => nomatch failed) fun fits => Nat.not_lt.mpr fits.1 short
  case h_2 extra enough many =>
    have long := List.getElem?_eq_none_iff.mp enough
    obtain ⟨behind, -⟩ := List.getElem?_eq_some_iff.mp many
    cases binding.signature.variadic with
    | true => exact iff_of_true rfl ⟨long, fun fixed => nomatch fixed⟩
    | false =>
      exact iff_of_false (fun failed => nomatch failed) fun fits =>
        Nat.not_lt.mpr (fits.2 rfl) behind
  case h_3 enough exact_ =>
    exact iff_of_true rfl ⟨List.getElem?_eq_none_iff.mp enough,
      fun _ => List.getElem?_eq_none_iff.mp exact_⟩

theorem touches_pushDeclared (function : String) (position : Nat) (frame : Frame)
    (types : List CType) (values : List Value) :
    Touches bits blocks (pushDeclared function position frame types values) := by
  induction types generalizing position frame values with
  | nil => exact touches_of_quiet (quiet_pure _)
  | cons type types ih =>
    cases values with
    | nil => exact touches_of_quiet (quiet_pure _)
    | cons value values =>
      exact (Frame.touches_push _ _ _ _ _).bind fun frame => ih (position + 1) frame values

theorem touches_pushVariadic (function : String) (position : Nat) (frame : Frame)
    (values : List Value) :
    Touches bits blocks (pushVariadic function position frame values) := by
  induction values generalizing position frame with
  | nil => exact touches_of_quiet (quiet_pure _)
  | cons value values ih =>
    unfold pushVariadic
    split
    · exact touches_of_quiet (quiet_throw _)
    · refine (touches_of_quiet (quiet_lift _)).bind fun type => ?_
      exact (Frame.touches_push _ _ _ _ _).bind fun frame => ih (position + 1) frame

/-- Writing the arguments, successfully or not, changes nothing but free memory. -/
theorem touches_marshal (binding : Binding) (args : List Value) :
    Touches bits blocks (binding.marshal args) :=
  (touches_of_quiet (quiet_lift _)).bind fun _ =>
    (touches_pushDeclared _ _ _ _ _).bind fun _ => touches_pushVariadic _ _ _ _

variable {function : String}

/-- One argument is written to the next slot, or refused. -/
theorem push_cases (frame : Frame) (position : Nat) (type : CType) (value : Value) (heap : Heap) :
    (Marshals type value ∧ ∃ slot middle,
        frame.push function position type value heap = (.ok (frame ++ [slot]), middle)
          ∧ Frame.push [] function position type value heap = (.ok [slot], middle))
      ∨ (¬Marshals type value ∧ ∃ failure middle,
          frame.push function position type value heap = (.error failure, middle)) := by
  have accepted := Frame.push_iff frame function position type value heap
  cases ran : frame.push function position type value heap with
  | mk outcome middle =>
    rw [ran] at accepted
    cases outcome with
    | ok pushed =>
      obtain ⟨slot, rfl, -, alone⟩ := Frame.push_append ran
      exact .inl ⟨accepted.mp ⟨_, rfl⟩, slot, middle, rfl, alone⟩
    | error failure =>
      exact .inr ⟨fun marshals => (nomatch accepted.mpr marshals), failure, middle, rfl⟩

theorem pushDeclared_cases {types : List CType} {values : List Value}
    (enough : types.length ≤ values.length) (position : Nat) (frame : Frame) (heap : Heap) :
    (List.Forall₂ Marshals types (values.take types.length) ∧ ∃ own after,
        pushDeclared function position frame types values heap = (.ok (frame ++ own), after)
          ∧ Filled function position types (values.take types.length) own heap after)
      ∨ (¬List.Forall₂ Marshals types (values.take types.length) ∧ ∃ failure after,
          pushDeclared function position frame types values heap = (.error failure, after)) := by
  induction types generalizing values position frame heap with
  | nil => exact .inl ⟨.nil, [], heap, by simp [pushDeclared], .none _ _⟩
  | cons type types ih =>
    obtain ⟨value, values, rfl⟩ := List.exists_cons_of_length_pos (Nat.zero_lt_of_lt enough)
    rw [List.length_cons, List.take_succ_cons, List.forall₂_cons, pushDeclared]
    rcases push_cases frame position type value heap with
      ⟨marshals, slot, middle, ran, pushed⟩ | ⟨refused, failure, middle, ran⟩
    · rw [bind_of_ok ran]
      rcases ih (Nat.le_of_succ_le_succ enough) (position + 1) (frame ++ [slot]) middle with
        ⟨others, own, after, rest, filled⟩ | ⟨others, failure, after, rest⟩
      · rw [List.append_assoc] at rest
        exact .inl ⟨⟨marshals, others⟩, slot :: own, after, rest, .cons pushed filled⟩
      · exact .inr ⟨fun all => others all.2, failure, after, rest⟩
    · exact .inr ⟨fun all => refused all.1, failure, middle, by rw [bind_run, ran]⟩

/-- A value has at most one type that it is passed as behind the declared arguments. -/
theorem passedAs_unique {value : Value} {type other : CType} (first : value.PassedAs type)
    (second : value.PassedAs other) : type = other := by
  obtain ⟨own, inferred, promoted⟩ := first
  obtain ⟨own', inferred', promoted'⟩ := second
  obtain rfl := Option.some.inj (inferred.symm.trans inferred')
  exact Except.ok.inj (promoted.symm.trans promoted')

theorem pushVariadic_refused {value : Value} (unknown : ∀ type, ¬value.PassedAs type)
    (values : List Value) (position : Nat) (frame : Frame) (heap : Heap) :
    ∃ failure, pushVariadic function position frame (value :: values) heap
      = (.error failure, heap) := by
  unfold pushVariadic
  cases inferred : value.inferred? .host with
  | none => exact ⟨_, rfl⟩
  | some own =>
    dsimp only
    cases promoted : own.promoted .host with
    | error failure => exact ⟨failure, rfl⟩
    | ok type => exact absurd ⟨own, inferred, promoted⟩ (unknown type)

theorem pushVariadic_cons {value : Value} {type : CType} (passed : value.PassedAs type)
    (values : List Value) (position : Nat) (frame : Frame) :
    pushVariadic function position frame (value :: values) = (do
      let frame ← frame.push function position type value
      pushVariadic function (position + 1) frame values) := by
  obtain ⟨own, inferred, promoted⟩ := passed
  rw [pushVariadic, inferred]
  dsimp only
  rw [promoted]
  rfl

theorem pushVariadic_cases (values : List Value) (position : Nat) (frame : Frame) (heap : Heap) :
    ((∀ value ∈ values, ∃ type, value.PassedAs type ∧ Marshals type value)
        ∧ ∃ types own after,
          pushVariadic function position frame values heap = (.ok (frame ++ own), after)
            ∧ List.Forall₂ Value.PassedAs values types
            ∧ Filled function position types values own heap after)
      ∨ (¬(∀ value ∈ values, ∃ type, value.PassedAs type ∧ Marshals type value)
        ∧ ∃ failure after,
          pushVariadic function position frame values heap = (.error failure, after)) := by
  induction values generalizing position frame heap with
  | nil => exact .inl ⟨List.forall_mem_nil _, [], [], heap, by simp [pushVariadic], .nil, .none _ _⟩
  | cons value values ih =>
    rw [List.forall_mem_cons]
    by_cases known : ∃ type, value.PassedAs type
    case neg =>
      obtain ⟨failure, ran⟩ := pushVariadic_refused (not_exists.mp known) values position frame heap
      exact .inr ⟨fun all => known (all.1.imp fun _ => And.left), failure, heap, ran⟩
    -- With its type known, a trailing argument is written as a declared one is.
    obtain ⟨type, passed⟩ := known
    rw [pushVariadic_cons passed]
    rcases push_cases frame position type value heap with
      ⟨marshals, slot, middle, ran, pushed⟩ | ⟨refused, failure, middle, ran⟩
    · rw [bind_of_ok ran]
      rcases ih (position + 1) (frame ++ [slot]) middle with
        ⟨others, types, own, after, rest, known, filled⟩ | ⟨others, failure, after, rest⟩
      · rw [List.append_assoc] at rest
        exact .inl ⟨⟨⟨type, passed, marshals⟩, others⟩, type :: types, slot :: own, after, rest,
          .cons passed known, .cons pushed filled⟩
      · exact .inr ⟨fun all => others all.2, failure, after, rest⟩
    · refine .inr ⟨?_, failure, middle, by rw [bind_run, ran]⟩
      rintro ⟨⟨other, own, marshals⟩, -⟩
      exact refused (passedAs_unique passed own ▸ marshals)

/-- The arguments are written to a frame exactly when the binding accepts them. -/
theorem marshal_cases (binding : Binding) (args : List Value) (heap : Heap) :
    (binding.Accepts args ∧ ∃ types frame after, binding.marshal args heap = (.ok frame, after)
        ∧ List.Forall₂ Value.PassedAs (args.drop binding.signature.args.length) types
        ∧ Filled binding.name 1 (binding.signature.args ++ types) args frame heap after)
      ∨ (¬binding.Accepts args ∧ ∃ failure after,
          binding.marshal args heap = (.error failure, after)) := by
  unfold marshal
  rw [bind_run, lift_run]
  cases arity : binding.checkArity args with
  | error failure =>
    refine .inr ⟨fun accepts => ?_, failure, heap, rfl⟩
    cases arity.symm.trans (checkArity_eq_ok.mpr ⟨accepts.enough, accepts.bounded⟩)
  | ok =>
    obtain ⟨enough, bounded⟩ := checkArity_eq_ok.mp arity
    dsimp only
    rcases pushDeclared_cases enough 1 [] heap with
      ⟨declared, own, middle, ran, filled⟩ | ⟨refused, failure, middle, ran⟩
    · rw [bind_of_ok ran]
      rcases pushVariadic_cases (args.drop binding.signature.args.length) _ ([] ++ own) middle with
        ⟨trailing, types, others, after, rest, passed, more⟩ | ⟨refused, failure, after, rest⟩
      · refine .inl ⟨⟨enough, bounded, declared, trailing⟩, types, own ++ others, after, rest,
          passed, ?_⟩
        -- The trailing arguments are counted from behind the declared ones.
        rw [← List.length_take_of_le enough, Nat.add_comm] at more
        have all := filled.append more
        rwa [List.length_take_of_le enough, List.take_append_drop] at all
      · exact .inr ⟨fun accepts => refused accepts.trailing, failure, after, rest⟩
    · exact .inr ⟨fun accepts => refused accepts.declared, failure, middle, by rw [bind_run, ran]⟩

end Binding

end CInterop
