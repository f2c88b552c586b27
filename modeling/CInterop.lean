import CInterop.Bits
import CInterop.CString
import CInterop.CType
import CInterop.Call.Binding
import CInterop.Call.Convention
import CInterop.Call.Declared
import CInterop.Call.Frame
import CInterop.Call.Invoke
import CInterop.Call.Passing
import CInterop.Call.Signature
import CInterop.Callback
import CInterop.Callback.Host
import CInterop.Config.Decode
import CInterop.Config.Settings
import CInterop.Config.Source
import CInterop.Config.Toml
import CInterop.Engine
import CInterop.Failure
import CInterop.FileTree
import CInterop.Heap
import CInterop.Instance
import CInterop.Json
import CInterop.Layout
import CInterop.Library
import CInterop.Memory
import CInterop.Native
import CInterop.Native.Arithmetic
import CInterop.Native.Calling
import CInterop.Native.Table
import CInterop.Native.Text
import CInterop.Number.Binary
import CInterop.Number.Shortest
import CInterop.Path
import CInterop.Platform
import CInterop.Pointer
import CInterop.Proofs.Bits
import CInterop.Proofs.Built
import CInterop.Proofs.Call.Blame
import CInterop.Proofs.Call.Decoding
import CInterop.Proofs.Call.Invocation
import CInterop.Proofs.Call.Marshaling
import CInterop.Proofs.Call.Passing
import CInterop.Proofs.Call.Slots
import CInterop.Proofs.Call.Stripping
import CInterop.Proofs.Call.Variadic
import CInterop.Proofs.Callback.Failures
import CInterop.Proofs.Callback.Results
import CInterop.Proofs.Config.Layering
import CInterop.Proofs.Config.Precedence
import CInterop.Proofs.Engine.Platform
import CInterop.Proofs.Heap.Footprint
import CInterop.Proofs.Heap.Lookup
import CInterop.Proofs.Heap.Retention
import CInterop.Proofs.Heap.Run
import CInterop.Proofs.Heap.Together
import CInterop.Proofs.Instance.Bounds
import CInterop.Proofs.Instance.Copying
import CInterop.Proofs.Instance.Interference
import CInterop.Proofs.Instance.Routes
import CInterop.Proofs.Layout.Alignment
import CInterop.Proofs.Layout.Apart
import CInterop.Proofs.Layout.Appending
import CInterop.Proofs.Layout.Exact
import CInterop.Proofs.Layout.Members
import CInterop.Proofs.Layout.Packing
import CInterop.Proofs.Layout.Placing
import CInterop.Proofs.Layout.Promotion
import CInterop.Proofs.Layout.Storable
import CInterop.Proofs.Layout.WellPlaced
import CInterop.Proofs.Memory
import CInterop.Proofs.Outcome
import CInterop.Proofs.Pointer.Capability
import CInterop.Proofs.Pointer.Null
import CInterop.Proofs.Pointer.Stepping
import CInterop.Proofs.Record
import CInterop.Proofs.Sameness
import CInterop.Proofs.Spelling.Forms
import CInterop.Proofs.Spelling.Normal
import CInterop.Proofs.Text.Buffers
import CInterop.Proofs.Text.Handover
import CInterop.Proofs.Text.RoundTrip
import CInterop.Proofs.Text.Stored
import CInterop.Proofs.Truth
import CInterop.Proofs.View.AddressWidth
import CInterop.Proofs.View.Assembly
import CInterop.Proofs.View.BitFields
import CInterop.Proofs.View.Blending
import CInterop.Proofs.View.Confined
import CInterop.Proofs.View.Conversion
import CInterop.Proofs.View.Effects
import CInterop.Proofs.View.Frame
import CInterop.Proofs.View.Integers
import CInterop.Proofs.View.KeepAlive
import CInterop.Proofs.View.Ledger
import CInterop.Proofs.View.Locality
import CInterop.Proofs.View.Meeting
import CInterop.Proofs.View.Pieces
import CInterop.Proofs.View.PointerSlots
import CInterop.Proofs.View.PointerStores
import CInterop.Proofs.View.Reading
import CInterop.Proofs.View.RoundTrip
import CInterop.Proofs.View.Storing
import CInterop.Proofs.View.Together
import CInterop.Proofs.View.Totality
import CInterop.Registry
import CInterop.Spelling
import CInterop.Text.Blank
import CInterop.Text.Combining
import CInterop.Text.Quoted
import CInterop.Text.Reader
import CInterop.Text.Unprintable
import CInterop.Text.Utf8
import CInterop.Text.Wide
import CInterop.Value
import CInterop.Value.Text
import CInterop.View
import CInterop.View.Write
import CInterop.Word
import CInterop.World
import CInterop.Proofs.Registry.Nesting
import CInterop.Proofs.Registry.Defined
import CInterop.Proofs.Text.Terminated
import CInterop.Proofs.Text.Bounded
import CInterop.Proofs.Config.Merging
import CInterop.Proofs.Config.Paths
import CInterop.Proofs.Config.Ancestors
import CInterop.Proofs.Heap.Alive
import CInterop.Proofs.View.Retaining
import CInterop.Proofs.Pointer.NativeStores
import CInterop.Proofs.Text.Output
import CInterop.Proofs.Text.Overwriting
import CInterop.Proofs.Pointer.Arithmetic
import CInterop.Proofs.Call.Hooks
