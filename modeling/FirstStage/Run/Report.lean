import FirstStage.Run.Refusal
import FirstStage.Run.State

/-! # Reports

What happened in a run, known once the stage has control again.
-/

namespace FirstStage

structure Report where
  argument : UInt32
  scan : Scan
  /-- The copy that was made. -/
  plan? : Option Plan := none
  /-- What the check of the stub found. -/
  landing? : Option (Except LandingError UInt32) := none
  /-- Why the strict mode stopped. -/
  refusal? : Option Refusal := none
  trace : Trace

end FirstStage
