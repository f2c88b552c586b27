import CInterop.Callback

/-!
# The world that native code runs in

Native code sees the memory of the heap and the entry points of the trampolines.
-/

namespace CInterop

/-- The state that native code works on. Entry points are handed out once and never again. -/
structure World where
  heap : Heap
  trampolines : List Trampoline
  nextCode : Nat

namespace World

/-- The first address at which a trampoline may be. -/
def firstCode : Nat := 0x800000000

/-- A world in which nothing exists. -/
def empty : World := { heap := .empty, trampolines := [], nextCode := firstCode }

/-- Runs an operation on the heap. What it changed before a failure stays changed. -/
def onHeap {α : Type} (action : HeapM α) : ExceptT Failure (StateM World) α := fun world =>
  let (result, heap) := action world.heap
  (result, { world with heap })

/-- Runs an operation on the heap that cannot fail. -/
def runHeap {α : Type} (action : StateM Heap α) : StateM World α := fun world =>
  let (result, heap) := action world.heap
  (result, { world with heap })

/-- The trampoline with this entry point. -/
def trampoline? (world : World) (code : UInt64) : Option Trampoline :=
  world.trampolines.find? (·.code == code)

/-- Puts a trampoline in the place of the one with the same entry point. -/
def update (world : World) (t : Trampoline) : World :=
  { world with
    trampolines := world.trampolines.map fun other => if other.code == t.code then t else other }

/-- Creates a trampoline for a host function. -/
def createTrampoline (foreignReads : Bool) (name : String) (host : HostFunction)
    (args : List CType) (returns : CType) (convention : Convention) :
    ExceptT Failure (StateM World) Trampoline := do
  liftM (Trampoline.check name args returns convention)
  modifyGet fun world =>
    let t : Trampoline :=
      { name, code := .ofNat world.nextCode, args, returns, foreignReads, host }
    (t, { world with trampolines := t :: world.trampolines, nextCode := world.nextCode + 16 })

/-- Frees an entry point. -/
def release (world : World) (code : UInt64) : World :=
  { world with trampolines := world.trampolines.filter (·.code != code) }

/-- Enters a trampoline from native code. -/
def enterTrampoline (t : Trampoline) (frame : List Bytes) : StateM World Bytes := fun world =>
  let (bytes, t, heap) := t.enter frame world.heap
  (bytes, { world.update t with heap })

end World

end CInterop
