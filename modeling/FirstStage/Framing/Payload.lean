/-! # Payload bounds

Where a payload lies, `[start, stop)`, and why bounds are refused.
-/

namespace FirstStage

structure Payload where
  start : UInt32
  stop : UInt32
  deriving DecidableEq

namespace Payload

/-- Bounds in the wrong order have no length. -/
def length? (payload : Payload) : Option UInt32 :=
  if payload.stop < payload.start then none else some (payload.stop - payload.start)

def isEmpty (payload : Payload) : Bool := payload.stop == payload.start

end Payload

end FirstStage
