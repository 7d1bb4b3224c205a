import FirstStage.Fault

/-! # Ranges of a byte array

Checked access to `[offset, offset + length)`. Every write here keeps the size of the array, and
a refused access changes nothing.
-/

namespace FirstStage

abbrev Bytes : Type := Array UInt8

namespace Bytes

/-- The range `[offset, offset + length)` lies inside the array. -/
def Fits (bytes : Bytes) (offset length : Nat) : Prop := offset + length ≤ bytes.size

instance (bytes : Bytes) (offset length : Nat) : Decidable (bytes.Fits offset length) :=
  inferInstanceAs (Decidable (offset + length ≤ bytes.size))

/-- The start of a range is judged before its end. -/
def rangeFault? (size start stop : Nat) : Option Fault :=
  if size < start then some (.startOutside size start)
  else if size < stop then some (.stopOutside size stop)
  else none

theorem rangeFault?_eq_none_iff {size start stop : Nat} (h : start ≤ stop) :
    rangeFault? size start stop = none ↔ stop ≤ size := by
  unfold rangeFault?
  split
  · simp only [reduceCtorEq, false_iff]; omega
  · split
    · simp only [reduceCtorEq, false_iff]; omega
    · simp only [true_iff]; omega

/-- Writes `new` from `offset` on; what would fall past the end is dropped. -/
def overwrite (bytes : Bytes) (offset : Nat) : List UInt8 → Bytes
  | [] => bytes
  | b :: rest => overwrite (bytes.setIfInBounds offset b) (offset + 1) rest

@[simp]
theorem size_overwrite (bytes : Bytes) (offset : Nat) (new : List UInt8) :
    (bytes.overwrite offset new).size = bytes.size := by
  induction new generalizing bytes offset with
  | nil => rfl
  | cons b rest ih => simp only [overwrite, ih, Array.size_setIfInBounds]

def fill (bytes : Bytes) (offset : Nat) (value : UInt8) (length : Nat) : Bytes :=
  bytes.overwrite offset (List.replicate length value)

/-- Replaces the range at `offset` by `new`, or faults if the range is not inside. -/
def place (offset : Nat) (new : List UInt8) : Act Bytes Unit := fun bytes =>
  match rangeFault? bytes.size offset (offset + new.length) with
  | some fault => .error fault bytes
  | none => .ok () (bytes.overwrite offset new)

/-- The bytes of a range, or a fault if the range is not inside. -/
def slice (offset length : Nat) : Act Bytes (List UInt8) := fun bytes =>
  match rangeFault? bytes.size offset (offset + length) with
  | some fault => .error fault bytes
  | none => .ok (bytes.extract offset (offset + length)).toList bytes

/-- Writes one byte, or faults if the index is not inside. -/
def store (index : Nat) (value : UInt8) : Act Bytes Unit := fun bytes =>
  if index < bytes.size then .ok () (bytes.setIfInBounds index value)
  else .error (.indexOutside bytes.size index) bytes

/-- Runs an act that sees only the bytes of a range that fits. -/
def onRange {α : Type} (offset length : Nat) (act : Act Bytes α) : Act Bytes α :=
  act.within (fun bytes => bytes.extract offset (offset + length))
    (fun part bytes => bytes.overwrite offset part.toList)

end Bytes

end FirstStage
