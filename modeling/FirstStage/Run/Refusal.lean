import FirstStage.Framing.Scan
import FirstStage.Relocation.Landing

/-! # Modes and refusals

In the lenient mode the stage goes on with whatever the scan has left. In the strict mode it stops
at the first inconsistency, and the refusal says which check failed.
-/

namespace FirstStage

inductive Refusal where
  | scan (error : ScanError)
  | plan (error : PlanError)
  | landing (error : LandingError)
  deriving DecidableEq

namespace Refusal

/-- The few characters shown on the display. -/
def token : Refusal → String
  | .scan error => error.token
  | .plan error => error.token
  | .landing error => error.token

def message : Refusal → String
  | .scan error => "scan: " ++ error.message
  | .plan error => "relocation: " ++ error.message
  | .landing error => "handoff: " ++ error.message

end Refusal

inductive Mode where
  | lenient
  | strict
  deriving DecidableEq

namespace Mode

/-- The mode of a stage that was not told otherwise. -/
def standard : Mode := .lenient

/-- The copy to make for a scan, or why none is made. -/
def plan (mode : Mode) (scan : Scan) : Except Refusal Plan :=
  match mode with
  | .lenient => .ok (Plan.ofBounds scan.start scan.stop)
  | .strict =>
      match scan.payload with
      | .error error => .error (.scan error)
      | .ok payload =>
          match Plan.guarded payload.start payload.stop with
          | .error error => .error (.plan error)
          | .ok plan => .ok plan

end Mode

end FirstStage
