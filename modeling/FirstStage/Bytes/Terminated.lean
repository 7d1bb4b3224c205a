/-! # Text that ends at a NUL

Two ways to measure it: `lengthToNul?` walks on until it meets a NUL, `boundedLength` also stops
at the end of the bytes.
-/

namespace FirstStage.Bytes

/-- The number of bytes before the first NUL; `none` when there is no NUL to stop the walk. -/
def lengthToNul? : List UInt8 → Option Nat
  | [] => none
  | b :: rest => if b = 0 then some 0 else (lengthToNul? rest).map (· + 1)

def boundedLength (bytes : List UInt8) : Nat :=
  (bytes.findIdx? (· == 0)).getD bytes.length

end FirstStage.Bytes
