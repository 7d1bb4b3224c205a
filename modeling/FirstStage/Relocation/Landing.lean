import FirstStage.Relocation.Plan

/-! # The landing of a stub

A stub is position independent code inside the payload, called at its relocated address to prove
that the copy runs. Before the call its first bytes there are compared with the bytes at its link
address, as far as they were copied.
-/

namespace FirstStage

structure Stub where
  link : UInt32
  deriving DecidableEq

def Stub.shiftedBy (stub : Stub) (offset : UInt32) : UInt32 := stub.link + offset

inductive LandingError where
  /-- The relocated stub lies outside the copied range. -/
  | outside (addr : UInt32)
  /-- The relocated bytes differ from the stub's own. -/
  | mismatch (addr : UInt32)
  deriving DecidableEq

namespace LandingError

def token : LandingError → String
  | _ => "Jmp"

def message : LandingError → String
  | .outside addr =>
      "self-test target " ++ Numeral.hex addr.toNat ++ " outside relocated payload"
  | .mismatch addr =>
      "self-test target " ++ Numeral.hex addr.toNat ++ " does not match the stub"

end LandingError

section Check

variable {M : Type} [ImageMemory M]

/-- Compares `left` bytes from `target + i` on with those from `link + i` on, and stops at the
first difference. -/
def agreeFrom (target link i : UInt32) : (left : Nat) → Act M Bool
  | 0 => return true
  | left + 1 => do
      let landed ← ImageMemory.read (target + i)
      let linked ← ImageMemory.read (link + i)
      if landed = linked then agreeFrom target link (i + 1) left else return false

/-- How many bytes of a stub at `target` are compared: those that the plan has copied, up to the
length of the probe. -/
def Plan.probeLength (plan : Plan) (target : UInt32) : Nat :=
  min Layout.probeLimit (plan.dest + plan.length - target).toNat

/-- The address to call, or why it must not be called. -/
def Plan.landing (plan : Plan) (stub : Stub) : Act M (Except LandingError UInt32) := do
  let target := shifted stub.link
  if plan.Covers target then
    if ← agreeFrom target stub.link 0 (plan.probeLength target) then
      return .ok target
    else
      return .error (.mismatch target)
  else
    return .error (.outside target)

end Check

end FirstStage
