import FirstStage.Bytes.Forward
import Mathlib.Data.Nat.Init
import Mathlib.Order.Nat

/-! # What a forward copy leaves

Each step of the copy writes one byte and none is written twice, so a byte of the destination is
what stood at its source when its step came. Unless the destination begins inside the source, that
is the byte from before the copy; where it does, the head of the source repeats. Where the
destination begins at or above the source, source and destination agree afterwards.
-/

namespace FirstStage.Bytes

theorem byteAt_setIfInBounds_self {bytes : Bytes} {index : Nat} (h : index < bytes.size)
    (value : UInt8) : byteAt (bytes.setIfInBounds index value) index = value := by
  rw [byteAt, Array.getElem?_setIfInBounds_self_of_lt h, Option.getD_some]

theorem byteAt_setIfInBounds_ne {index other : Nat} (h : index ≠ other) (bytes : Bytes)
    (value : UInt8) : byteAt (bytes.setIfInBounds index value) other = byteAt bytes other := by
  rw [byteAt, byteAt, Array.getElem?_setIfInBounds_ne h]

theorem byteAt_replicate_zero (size index : Nat) : byteAt (Array.replicate size 0) index = 0 := by
  rw [byteAt, Array.getElem?_replicate]
  split <;> rfl

variable {bytes : Bytes} {dest src length : Nat}

theorem byteAt_copyForward_of_le {count index : Nat} (hCount : count ≤ length)
    (h : index < dest + count ∨ dest + length ≤ index) :
    byteAt (bytes.copyForward dest src length) index =
      byteAt (bytes.copyForward dest src count) index := by
  induction length, hCount using Nat.le_induction with
  | base => rfl
  | succ length hCount ih =>
      rw [copyForward_succ, byteAt_setIfInBounds_ne (by omega)]
      exact ih (by omega)

theorem byteAt_copyForward_of_outside {index : Nat} (h : index < dest ∨ dest + length ≤ index) :
    byteAt (bytes.copyForward dest src length) index = byteAt bytes index := by
  rw [byteAt_copyForward_of_le (Nat.zero_le length) h, copyForward_zero]

theorem byteAt_copyForward_dest {i : Nat} (hFits : bytes.Fits dest length) (hi : i < length) :
    byteAt (bytes.copyForward dest src length) (dest + i) =
      byteAt (bytes.copyForward dest src i) (src + i) := by
  have hSize : dest + i < (bytes.copyForward dest src i).size := by
    rw [size_copyForward]
    exact Nat.lt_of_lt_of_le (by omega) hFits
  rw [byteAt_copyForward_of_le (Nat.succ_le_of_lt hi) (Or.inl (by omega)), copyForward_succ,
    byteAt_setIfInBounds_self hSize]

/-- A destination that does not begin inside the source gets the source as it was. -/
theorem byteAt_copyForward_of_apart {i : Nat} (hFits : bytes.Fits dest length) (hi : i < length)
    (hApart : dest ≤ src ∨ src + length ≤ dest) :
    byteAt (bytes.copyForward dest src length) (dest + i) = byteAt bytes (src + i) := by
  rw [byteAt_copyForward_dest hFits hi]
  exact byteAt_copyForward_of_outside (by omega)

/-- A destination that begins above the source gets the bytes between the two beginnings over and
over; a copy that ends before the first repetition is one of them. -/
theorem byteAt_copyForward_of_above {i : Nat} (hFits : bytes.Fits dest length) (hi : i < length)
    (hAbove : src < dest) :
    byteAt (bytes.copyForward dest src length) (dest + i) =
      byteAt bytes (src + i % (dest - src)) := by
  induction i using Nat.strong_induction_on generalizing length with
  | _ i ih =>
    rw [byteAt_copyForward_dest hFits hi]
    by_cases hHead : i < dest - src
    · rw [byteAt_copyForward_of_outside (Or.inl (by omega)), Nat.mod_eq_of_lt hHead]
    · -- The byte was written earlier in the same copy, one period below.
      have hPeriod : src + i = dest + (i - (dest - src)) := by omega
      have hEarlier : bytes.Fits dest i := Nat.le_trans (by omega) hFits
      rw [hPeriod, ih (i - (dest - src)) (by omega) hEarlier (by omega),
        ← Nat.mod_eq_sub_mod (Nat.le_of_not_lt hHead)]

/-- After a copy upward the two ranges agree, even where they overlap. -/
theorem byteAt_copyForward_agree {i : Nat} (hFits : bytes.Fits dest length) (hi : i < length)
    (hUp : src ≤ dest) :
    byteAt (bytes.copyForward dest src length) (dest + i) =
      byteAt (bytes.copyForward dest src length) (src + i) := by
  rcases hUp.eq_or_lt with rfl | hLt
  · rfl
  · rw [byteAt_copyForward_dest hFits hi]
    exact (byteAt_copyForward_of_le hi.le (Or.inl (by omega))).symm

theorem setIfInBounds_byteAt (bytes : Bytes) (index : Nat) :
    bytes.setIfInBounds index (byteAt bytes index) = bytes := by
  apply Array.ext_getElem?
  intro k
  rw [Array.getElem?_setIfInBounds]
  split
  · rename_i hEq
    subst hEq
    split
    · rename_i hLt
      rw [byteAt, Array.getElem?_eq_getElem hLt, Option.getD_some]
    · rename_i hLt
      rw [Array.getElem?_eq_none (Nat.le_of_not_lt hLt)]
  · rfl

theorem copyForward_eq_self
    (h : ∀ i < length, byteAt bytes (dest + i) = byteAt bytes (src + i)) :
    bytes.copyForward dest src length = bytes := by
  induction length with
  | zero => rfl
  | succ length ih =>
      rw [copyForward_succ, ih (fun i hi => h i (hi.trans (Nat.lt_succ_self length))),
        ← h length (Nat.lt_succ_self length), setIfInBounds_byteAt]

theorem copyForward_copyForward (hFits : bytes.Fits dest length) (hUp : src ≤ dest) :
    (bytes.copyForward dest src length).copyForward dest src length =
      bytes.copyForward dest src length := by
  apply copyForward_eq_self
  intro i hi
  exact byteAt_copyForward_agree hFits hi hUp

end FirstStage.Bytes
