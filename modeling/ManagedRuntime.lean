import ManagedRuntime.Boot.Session
import ManagedRuntime.Execution.Bodies
import ManagedRuntime.Failure.Label
import ManagedRuntime.Heap.View
import ManagedRuntime.Natives.Dispatch
import ManagedRuntime.Proofs.Array.Copying
import ManagedRuntime.Proofs.Array.Typing
import ManagedRuntime.Proofs.Class.ByName
import ManagedRuntime.Proofs.Class.Dispatch
import ManagedRuntime.Proofs.Class.Hierarchy
import ManagedRuntime.Proofs.Class.NamesBack
import ManagedRuntime.Proofs.Class.NestedNames
import ManagedRuntime.Proofs.Class.Order
import ManagedRuntime.Proofs.Class.Tiling
import ManagedRuntime.Proofs.Descriptor.Offsets
import ManagedRuntime.Proofs.Execution.Annotated
import ManagedRuntime.Proofs.Execution.ArgumentPassing
import ManagedRuntime.Proofs.Execution.Calls
import ManagedRuntime.Proofs.Execution.Interleaving
import ManagedRuntime.Proofs.Execution.NativeConvention
import ManagedRuntime.Proofs.Execution.NotedCalls
import ManagedRuntime.Proofs.Execution.PendingFailures
import ManagedRuntime.Proofs.Execution.StackNeutrality
import ManagedRuntime.Proofs.Execution.Unaided
import ManagedRuntime.Proofs.Heap.Accounts
import ManagedRuntime.Proofs.Loading.ArrayLookup
import ManagedRuntime.Proofs.Loading.BootSearches
import ManagedRuntime.Proofs.Loading.Clients
import ManagedRuntime.Proofs.Loading.Definition
import ManagedRuntime.Proofs.Loading.Failures
import ManagedRuntime.Proofs.Loading.OnceOnly
import ManagedRuntime.Proofs.Loading.RootCauses
import ManagedRuntime.Proofs.Loading.Stability
import ManagedRuntime.Proofs.Monitor.Ownership
import ManagedRuntime.Proofs.Monitor.Sections
import ManagedRuntime.Proofs.Monitor.Tokens
import ManagedRuntime.Proofs.Natives.Registrations
import ManagedRuntime.Proofs.Reflect.Dispatch
import ManagedRuntime.Proofs.Reflect.Entries
import ManagedRuntime.Proofs.Reflect.Enumeration
import ManagedRuntime.Proofs.Reflect.Initializers
import ManagedRuntime.Proofs.Reflect.Stores
import ManagedRuntime.Proofs.Stack.Activations
import ManagedRuntime.Proofs.Stack.CallerIdentity
import ManagedRuntime.Proofs.Stack.HiddenFrames
import ManagedRuntime.Proofs.Thread.Actions
import ManagedRuntime.Proofs.Thread.Interrupts
import ManagedRuntime.Proofs.Thread.ObjectFields
import ManagedRuntime.Proofs.Value.Encoding
import ManagedRuntime.Proofs.World.InternedStrings
import ManagedRuntime.Proofs.World.Reached
import ManagedRuntime.Proofs.World.Startup
import ManagedRuntime.Proofs.World.UniqueMirrors
