import FirstStage.Image.Ram
import FirstStage.Run.LoggedMemory

/-! # Single steps on an image

Everything that can be done to an image in an array, one step at a time and in any order.
-/

namespace FirstStage

inductive ImageStep where
  | place (offset : Nat) (bytes : List UInt8)
  | read (addr : UInt32)
  | raw (offset length : Nat)
  | extent
  | scan
  | payload
  | landing (plan : Plan) (stub : Stub)
  | copy (dest src length : UInt32)
  | move (plan : Plan)
  /-- Plans the copy of the bounds and makes it. -/
  | relocate (start stop : UInt32)
  /-- Plans the copy of the bounds and makes it unless the plan is refused. -/
  | relocateGuarded (start stop : UInt32)

inductive ImageAnswer where
  | done
  | byte (value : UInt8)
  | bytes (values : List UInt8)
  | extent (extent : UInt32)
  | scan (scan : Scan)
  | payload (payload : Except ScanError Payload)
  | landing (landing : Except LandingError UInt32)
  | plan (plan : Except PlanError Plan)

namespace ImageStep

def perform : ImageStep → Act (LoggedMemory Ram) ImageAnswer
  | .place offset bytes => do
      LoggedMemory.onMemory (Ram.place offset bytes)
      return .done
  | .read addr => .byte <$> LoggedMemory.onMemory (ImageMemory.read addr)
  | .raw offset length => .bytes <$> LoggedMemory.onMemory (Ram.raw offset length)
  | .extent => return .extent (← get).memory.extent
  | .scan => .scan <$> LoggedMemory.scan
  | .payload => do return .payload (← LoggedMemory.scan).payload
  | .landing plan stub => .landing <$> LoggedMemory.landing plan stub
  | .copy dest src length => do
      LoggedMemory.onMemory (ImageMemory.copy dest src length)
      return .done
  | .move plan => do
      LoggedMemory.copy plan
      return .done
  | .relocate start stop => do
      let plan := Plan.ofBounds start stop
      LoggedMemory.copy plan
      return .plan (.ok plan)
  | .relocateGuarded start stop =>
      match Plan.guarded start stop with
      | .error error => return .plan (.error error)
      | .ok plan => do
          LoggedMemory.copy plan
          return .plan (.ok plan)

end ImageStep

end FirstStage
