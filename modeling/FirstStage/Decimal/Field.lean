import FirstStage.Decimal.Render
import FirstStage.Layout

/-! # The decimal field

One rendered word in a zeroed array of fixed size.
-/

namespace FirstStage.Decimal

structure Field where
  bytes : Bytes
  length : Nat

namespace Field

def render (num : UInt32) : Except Fault Field :=
  match (Decimal.render num).run (Array.replicate Layout.decimalFieldSize 0) with
  | .ok length bytes => .ok ⟨bytes, length⟩
  | .error fault _ => .error fault

/-- The digits without their terminator. -/
def digits (field : Field) : List UInt8 := field.bytes.toList.take field.length

end Field

end FirstStage.Decimal
