import FirstStage.Image.Memory
import FirstStage.Layout

/-! # Relocation plans

A plan is one copy, worked out before a byte moves. Plans made from bounds wrap like words;
`Plan.guarded` refuses bounds in the wrong order and a copy onto its own source. Whether ranges
meet is decided on the numbers, without wrapping.
-/

namespace FirstStage

structure Plan where
  src : UInt32
  dest : UInt32
  length : UInt32
  deriving DecidableEq

inductive PlanError where
  | inverted (start stop : UInt32)
  | overlap (length : UInt32)
  deriving DecidableEq

namespace PlanError

def token : PlanError → String
  | .inverted _ _ => "Bad"
  | .overlap _ => "Ovl"

def message : PlanError → String
  | .inverted start stop =>
      "relocation bounds inverted: start=" ++ Numeral.decimal start.toNat ++ " end=" ++
        Numeral.decimal stop.toNat
  | .overlap length =>
      "relocation of " ++ Numeral.decimal length.toNat ++ " bytes overlaps its own source"

end PlanError

/-- Where an address of the source range is found after the copy. -/
def shifted (addr : UInt32) : UInt32 := addr + Layout.payloadShift

namespace Plan

def ofBounds (start stop : UInt32) : Plan :=
  { src := start, dest := Layout.payloadShift + start, length := stop - start }

/-- The ranges `[src, src + length)` and `[dest, dest + length)` have an address in common. -/
def Overlaps (plan : Plan) : Prop :=
  plan.length ≠ 0 ∧ plan.src.toNat < plan.dest.toNat + plan.length.toNat ∧
    plan.dest.toNat < plan.src.toNat + plan.length.toNat

instance (plan : Plan) : Decidable plan.Overlaps := inferInstanceAs (Decidable (_ ∧ _))

/-- The address lies in `[dest, dest + length)`. -/
def Covers (plan : Plan) (addr : UInt32) : Prop :=
  plan.dest.toNat ≤ addr.toNat ∧ addr.toNat < plan.dest.toNat + plan.length.toNat

instance (plan : Plan) (addr : UInt32) : Decidable (plan.Covers addr) :=
  inferInstanceAs (Decidable (_ ∧ _))

/-- The plan of the bounds, unless they are in the wrong order or the copy meets its own source. -/
def guarded (start stop : UInt32) : Except PlanError Plan :=
  let plan := ofBounds start stop
  if stop < start then .error (.inverted start stop)
  else if plan.Overlaps then .error (.overlap plan.length)
  else .ok plan

def perform {M : Type} [ImageMemory M] (plan : Plan) : Act M Unit :=
  ImageMemory.copy plan.dest plan.src plan.length

end Plan

end FirstStage
