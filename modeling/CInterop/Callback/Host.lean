import CInterop.Callback

/-!
# Host functions

Ready-made host functions: results that are fixed or computed from the arguments, and accesses to
the memory that the arguments refer to. A refused access fails with the wording of the failure.
-/

namespace CInterop

namespace HostFunction

/-- A host function that depends on its arguments alone. -/
def ofPure (f : List Value → Reply) : HostFunction := fun args => pure (f args)

/-- Gives a fixed value. -/
def constant (value : Value) : HostFunction := ofPure fun _ => .value value

/-- Gives the first argument. -/
def echo : HostFunction := ofPure fun args => .value (args.head?.getD .void)

/-- Gives the first argument times `k`. -/
def scale (k : Int64) : HostFunction := ofPure fun args =>
  .value (.int ((args.head?.map Value.toIntOrZero).getD 0 * k))

/-- Gives the sum of the arguments as integers. -/
def sum : HostFunction := ofPure fun args =>
  .value (.int (args.foldl (fun total arg => total + arg.toIntOrZero) 0))

/-- Gives the sum of the arguments as doubles. -/
def doubleSum : HostFunction := ofPure fun args =>
  let add (total : UInt64) (arg : Value) : UInt64 :=
    .ofNat (Number.binary64.add total.toNat (arg.toDouble?.getD 0).toNat)
  .value (.double (args.foldl add 0))

/-- Fails with a reason. -/
def fail (reason : String) : HostFunction := ofPure fun _ => .failed reason

/-- Panics. -/
def panic (message : Option String) : HostFunction := ofPure fun _ => .panicked message

/-- Works on the pointer in an argument. -/
def withPointer (position : Nat) (args : List Value) (use : Pointer → StateM Heap Reply) :
    StateM Heap Reply :=
  match args[position]?.bind Value.toPointer? with
  | none => pure (.failed "expected a pointer")
  | some p => use p

/-- Gives the wording of a failure as the reason, or goes on with a value. -/
def andThen {α : Type} (action : HeapM α) (use : α → StateM Heap Reply) : StateM Heap Reply :=
  fun heap =>
    match action heap with
    | (.ok a, heap) => use a heap
    | (.error failure, heap) => (.failed failure.message, heap)

/-- Gives what the pointer in the first argument points at. -/
def deref : HostFunction := fun args =>
  withPointer 0 args fun p => andThen p.deref fun value => pure (.value value)

/-- Stores the second argument plus `k` where the first one points. -/
def store (k : Int64) : HostFunction := fun args =>
  withPointer 0 args fun p =>
    let stored := (args[1]?.map Value.toIntOrZero).getD 0 + k
    andThen (p.set (.int stored)) fun _ => pure (.value .void)

/-- Gives `k` times the sign of the comparison of what the arguments point at. -/
def compare (k : Int64) : HostFunction := fun args =>
  withPointer 0 args fun p =>
    andThen p.deref fun a =>
      withPointer 1 args fun q =>
        andThen q.deref fun b =>
          let (a, b) := (a.toIntOrZero, b.toIntOrZero)
          let sign : Int64 := if a < b then -1 else if b < a then 1 else 0
          pure (.value (.int (k * sign)))

/-- Gives the product of the members `x` and `y` of the struct in the first argument. -/
def product : HostFunction := fun args =>
  match args.head?.bind Value.toInstance? with
  | none => pure (.failed "expected a struct")
  | some p => fun heap =>
    match p.get heap "x", p.get heap "y" with
    | .ok x, .ok y => (.value (.int (x.toIntOrZero * y.toIntOrZero)), heap)
    | .error failure, _ => (.failed failure.message, heap)
    | _, .error failure => (.failed failure.message, heap)

end HostFunction

end CInterop
