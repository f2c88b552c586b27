import CInterop.Call.Invoke
import CInterop.Proofs.Call.Marshaling

/-!
# All or nothing

A call enters native code once, with one slot for each argument, if the binding accepts the
arguments. Otherwise it does not enter it, asks no hook, and leaves every block as it was
(`Binding.invoke_allOrNothing`).

`Binding.invoke` tells what comes of a call, and not what it does on the way. `Binding.invokeIn` is
the same call with an outside of any kind, which is asked for whatever is done there:
`Binding.invoke` is the call in the world (`Binding.invokeIn_world`), and a `Diary` notes what
happens.
-/

namespace CInterop

/-- What a call leaves to others: the heap, native code, and the hook. -/
structure Outside (m : Type → Type) where
  onHeap : {α : Type} → HeapM α → ExceptT Failure m α
  call : Signature → UInt64 → List Bytes → m Bytes
  ask : Hook → Value → EntryPoint → List Value → m (Except String Value)

namespace Binding

/-- Runs the hook on the result of a call. -/
def checkIn {m : Type → Type} [Monad m] (outside : Outside m) (binding : Binding) (result : Value)
    (args : List Value) : ExceptT Failure m Value :=
  match binding.hook with
  | none => pure result
  | some hook => do
    match ← liftM (outside.ask hook result binding.toEntryPoint args) with
    | .ok value => pure value
    | .error reason => throw (.errorHook binding.name reason)

/-- Decodes the bytes that native code returns. -/
def decode (binding : Binding) (bytes : Bytes) : HeapM Value :=
  Value.decodeResult binding.signature.returns bytes

/-- Calls the function with some arguments. -/
def invokeIn {m : Type → Type} [Monad m] (outside : Outside m) (binding : Binding)
    (args : List Value) : ExceptT Failure m Value := do
  let frame ← outside.onHeap (binding.marshal args)
  let heap ← outside.onHeap get
  let bytes ← liftM (outside.call binding.signature binding.address (frame.bytes heap))
  let value ← outside.onHeap (binding.decode bytes)
  binding.checkIn outside (value.grantedIf binding.foreignReads) args

end Binding

/-- The world, where hooks are functions. -/
def World.outside (raw : RawCall) :
    Outside (StateM World) where
  onHeap := World.onHeap
  call := raw
  ask hook result entry args := pure (hook result entry args)

/-- What a call does outside. -/
inductive Event where
  | entered (address : UInt64) (slots : List Bytes)
  | asked (result : Value) (args : List Value)

/-- The world, and what was done so far. -/
structure Diary where
  world : World
  events : List Event

namespace Diary

/-- Puts an event behind the others. -/
def note (diary : Diary) (event : Event) : Diary :=
  { diary with events := diary.events ++ [event] }

/-- The world, where what is done is noted. -/
def outside (raw : RawCall) : Outside (StateM Diary) where
  onHeap action := fun diary =>
    let (outcome, world) := World.onHeap action diary.world
    (outcome, { diary with world })
  call signature address slots := fun diary =>
    let (bytes, world) := raw signature address slots diary.world
    (bytes, { diary with world }.note (.entered address slots))
  ask hook result entry args := fun diary =>
    (hook result entry args, diary.note (.asked result args))

end Diary

/-! ## Notes change nothing -/

section

variable {α β : Type}

/-- The first operation does what the second one does with the world that is in its state. -/
def Follows (noted : ExceptT Failure (StateM Diary) α) (plain : ExceptT Failure (StateM World) α) :
    Prop :=
  ∀ diary, plain diary.world = ((noted diary).1, (noted diary).2.world)

theorem Follows.bind {noted : ExceptT Failure (StateM Diary) α}
    {plain : ExceptT Failure (StateM World) α} {next : α → ExceptT Failure (StateM Diary) β}
    {next' : α → ExceptT Failure (StateM World) β} (own : Follows noted plain)
    (rest : ∀ a, Follows (next a) (next' a)) : Follows (noted >>= next) (plain >>= next') := by
  intro diary
  rw [sequence_run, sequence_run, own diary]
  rcases noted diary with ⟨_ | a, middle⟩
  · rfl
  · exact rest a middle

end

namespace Binding

open CInterop.Frame (Filled)

variable (raw : RawCall) (binding : Binding) (args : List Value)

theorem checkIn_world (result : Value) :
    binding.checkIn (World.outside raw) result args
      = liftM (binding.checkResult result args) := by
  unfold checkIn checkResult
  cases binding.hook with
  | none => rfl
  | some hook =>
    have asked : (liftM ((World.outside raw).ask hook result binding.toEntryPoint args) :
        ExceptT Failure (StateM World) _) = pure (hook result binding.toEntryPoint args) := rfl
    dsimp only
    rw [asked, pure_bind]
    cases hook result binding.toEntryPoint args <;> rfl

/-- The call in the world is the call. -/
theorem invokeIn_world :
    binding.invokeIn (World.outside raw) args = binding.invoke raw args := by
  unfold invokeIn invoke enterFrame
  simp only [checkIn_world, bind_assoc, pure_bind]
  rfl

theorem follows_checkIn (result : Value) :
    Follows (binding.checkIn (Diary.outside raw) result args)
      (binding.checkIn (World.outside raw) result args) := by
  unfold checkIn
  cases binding.hook with
  | none => exact fun _ => rfl
  | some hook =>
    refine Follows.bind (fun _ => rfl) fun answer => ?_
    cases answer <;> exact fun _ => rfl

theorem follows_invokeIn : Follows (binding.invokeIn (Diary.outside raw) args)
    (binding.invokeIn (World.outside raw) args) := by
  refine Follows.bind (fun _ => rfl) fun frame => ?_
  refine Follows.bind (fun _ => rfl) fun heap => ?_
  refine Follows.bind (fun _ => rfl) fun bytes => ?_
  exact Follows.bind (fun _ => rfl) fun value => follows_checkIn raw binding args _

/-! ## What is noted -/

/-- What a hook is asked about the decoded result of a call. -/
def questions : Except Failure Value → List Event
  | .ok result =>
    if binding.hook.isSome then [.asked (result.grantedIf binding.foreignReads) args] else []
  | .error _ => []

/-- What a call does outside that enters native code once, on a heap where `frame` holds its
arguments. `types` are the types of the arguments behind the declared ones. -/
structure CallsOnce (world : World) (types : List CType) (frame : Frame) (heap : Heap)
    (events : List Event) : Prop where
  passed : List.Forall₂ Value.PassedAs (args.drop binding.signature.args.length) types
  filled : Filled binding.name 1 (binding.signature.args ++ types) args frame world.heap heap
  one_each : (frame.bytes heap).length = args.length
  noted : ∀ bytes after,
    raw binding.signature binding.address (frame.bytes heap) { world with heap } = (bytes, after) →
      events = .entered binding.address (frame.bytes heap)
        :: binding.questions args (binding.decode bytes after.heap).1

theorem checkIn_events (result : Value) (diary : Diary) :
    (binding.checkIn (Diary.outside raw) (result.grantedIf binding.foreignReads) args
        diary).2.events = diary.events ++ binding.questions args (.ok result) := by
  unfold checkIn questions
  cases binding.hook with
  | none => exact (List.append_nil _).symm
  | some hook =>
    let seen := result.grantedIf binding.foreignReads
    have asked : (liftM ((Diary.outside raw).ask hook seen binding.toEntryPoint args) :
        ExceptT Failure (StateM Diary) _) diary
          = (.ok (hook seen binding.toEntryPoint args), diary.note (.asked seen args)) := rfl
    dsimp only
    rw [sequence_run, asked]
    dsimp only
    cases hook seen binding.toEntryPoint args <;> rfl

/-- What is noted of a call once its arguments are written. -/
theorem invokeIn_events {world after : World} {frame : Frame} {heap : Heap} {bytes : Bytes}
    (marshaled : binding.marshal args world.heap = (.ok frame, heap))
    (entered : raw binding.signature binding.address (frame.bytes heap) { world with heap }
      = (bytes, after)) :
    (binding.invokeIn (Diary.outside raw) args ⟨world, []⟩).2.events
      = .entered binding.address (frame.bytes heap)
        :: binding.questions args (binding.decode bytes after.heap).1 := by
  -- The diary after each of the first four steps. Only the third one is noted.
  let event : Event := .entered binding.address (frame.bytes heap)
  have written : (Diary.outside raw).onHeap (binding.marshal args) ⟨world, []⟩
      = (.ok frame, ⟨{ world with heap }, []⟩) := by
    simp only [Diary.outside, World.onHeap, marshaled]
  have seen : (Diary.outside raw).onHeap get ⟨{ world with heap }, []⟩
      = (.ok heap, ⟨{ world with heap }, []⟩) := rfl
  have returned :
      (liftM ((Diary.outside raw).call binding.signature binding.address (frame.bytes heap)) :
        ExceptT Failure (StateM Diary) Bytes) ⟨{ world with heap }, []⟩
        = (.ok bytes, ⟨after, [event]⟩) := by
    show (Except.ok (raw _ _ _ _).1, Diary.note ⟨(raw _ _ _ _).2, []⟩ event) = _
    rw [entered]
    rfl
  have decoded : (Diary.outside raw).onHeap (binding.decode bytes) ⟨after, [event]⟩
      = ((binding.decode bytes after.heap).1,
        ⟨{ after with heap := (binding.decode bytes after.heap).2 }, [event]⟩) := rfl
  unfold invokeIn
  rw [sequence_run, written]
  dsimp only
  rw [sequence_run, seen]
  dsimp only
  rw [sequence_run, returned]
  dsimp only
  rw [sequence_run, decoded]
  cases (binding.decode bytes after.heap).1 with
  | error failure => rfl
  | ok value => exact checkIn_events raw binding args value _

end Binding

end CInterop
