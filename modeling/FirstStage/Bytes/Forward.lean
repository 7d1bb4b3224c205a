import FirstStage.Bytes.Range

/-! # The forward copy

Bytes move one at a time, lowest address first. A destination that begins inside the source
therefore reads bytes that the copy itself has written, and the head of the source repeats.
-/

namespace FirstStage.Bytes

/-- The byte at an index, and zero past the end. -/
def byteAt (bytes : Bytes) (index : Nat) : UInt8 := bytes[index]?.getD 0

def copyForward (bytes : Bytes) (dest src length : Nat) : Bytes :=
  length.fold (fun i _ moved => moved.setIfInBounds (dest + i) (byteAt moved (src + i))) bytes

@[simp]
theorem copyForward_zero (bytes : Bytes) (dest src : Nat) :
    bytes.copyForward dest src 0 = bytes := rfl

theorem copyForward_succ (bytes : Bytes) (dest src length : Nat) :
    bytes.copyForward dest src (length + 1) =
      (bytes.copyForward dest src length).setIfInBounds (dest + length)
        (byteAt (bytes.copyForward dest src length) (src + length)) := rfl

@[simp]
theorem size_copyForward (bytes : Bytes) (dest src length : Nat) :
    (bytes.copyForward dest src length).size = bytes.size := by
  induction length with
  | zero => rfl
  | succ length ih => rw [copyForward_succ, Array.size_setIfInBounds, ih]

end FirstStage.Bytes
