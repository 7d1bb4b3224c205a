import FirstStage.Bytes.Range

/-! # Decimal rendering

A word is written as its decimal digits and a NUL. The digits are stored from the last to the
first and the NUL after them, so an array that is too short faults at the last digit, and one
that has room for the digits alone faults at the NUL.
-/

namespace FirstStage.Decimal

/-- The number of decimal digits; zero has one. -/
def width (n : Nat) : Nat :=
  if n < 10 then 1 else width (n / 10) + 1

/-- The ASCII digit of the units of `n`. -/
def unitDigit (n : Nat) : UInt8 := UInt8.ofNat (48 + n % 10)

/-- Stores the `count` lowest digits of `n` at `0 … count - 1`, the units last in place and first
in time. -/
def storeDigits : (count : Nat) → (n : Nat) → Act Bytes Unit
  | 0, _ => pure ()
  | count + 1, n => do
      Bytes.store count (unitDigit n)
      storeDigits count (n / 10)

/-- Renders `num` at the start of the array and answers its number of digits. -/
def render (num : UInt32) : Act Bytes Nat := do
  let digits := width num.toNat
  storeDigits digits num.toNat
  Bytes.store digits 0
  return digits

end FirstStage.Decimal
