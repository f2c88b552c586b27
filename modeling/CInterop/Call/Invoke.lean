import CInterop.Call.Binding
import CInterop.World

/-!
# Calls

Calls are performed by others: `Binding.invoke` hands them the signature, the address and the bytes
of a frame. It does so once, and only if all arguments could be written.
-/

namespace CInterop

/-- What performs calls. For a signature, an address and the slots of the arguments, it enters the
address and gives the bytes of the result. -/
abbrev RawCall := Signature → UInt64 → List Bytes → StateM World Bytes

namespace Binding

/-- Calls the function with a frame, and decodes what it returns. -/
def enterFrame (raw : RawCall) (binding : Binding) (frame : Frame) :
    ExceptT Failure (StateM World) Value := do
  let slots := frame.bytes (← get).heap
  let bytes ← liftM (raw binding.signature binding.address slots)
  let value ← World.onHeap (Value.decodeResult binding.signature.returns bytes)
  pure (value.grantedIf binding.foreignReads)

/-- Calls the function with some arguments. -/
def invoke (raw : RawCall) (binding : Binding) (args : List Value) :
    ExceptT Failure (StateM World) Value := do
  let frame ← World.onHeap (binding.marshal args)
  let result ← binding.enterFrame raw frame
  liftM (binding.checkResult result args)

end Binding

end CInterop
