import ManagedRuntime.Class.Basic

/-!
Call frames of a thread, newest first. A boundary marks where the runtime itself called into code.
The end of the chain is the root, which is no frame.
-/
namespace ManagedRuntime

inductive Frame where
  | real (m : Method)
  | boundary
  deriving DecidableEq

namespace Frame

def method? : Frame → Option Method
  | real m => some m
  | boundary => none

end Frame

abbrev FrameChain := List Frame

namespace FrameChain

def methods (frames : FrameChain) : List Method := frames.filterMap Frame.method?

end FrameChain
end ManagedRuntime
