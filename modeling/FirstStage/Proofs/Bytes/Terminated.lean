import FirstStage.Bytes.Terminated
import FirstStage.Proofs.Bytes.Overwritten
import Mathlib.Data.List.Basic

/-! # The length of a terminated text

The walk to the first NUL ends exactly where the bytes hold one, and does not look behind it. The
bounded length of a part is then the shorter of the part and the text that begins with it.
-/

namespace FirstStage.Bytes

theorem lengthToNul?_eq_findIdx? (bytes : List UInt8) :
    lengthToNul? bytes = bytes.findIdx? (· == 0) := by
  induction bytes with
  | nil => rfl
  | cons b rest ih => simp only [lengthToNul?, List.findIdx?_cons, beq_iff_eq, ih]

theorem boundedLength_eq_getD (bytes : List UInt8) :
    boundedLength bytes = (lengthToNul? bytes).getD bytes.length := by
  rw [boundedLength, lengthToNul?_eq_findIdx?]

theorem boundedLength_eq_findIdx (bytes : List UInt8) :
    boundedLength bytes = bytes.findIdx (· == 0) :=
  List.findIdx_eq_getD_findIdx?.symm

theorem lengthToNul?_append {text : List UInt8} (h : 0 ∉ text) (rest : List UInt8) :
    lengthToNul? (text ++ 0 :: rest) = some text.length := by
  induction text with
  | nil => rfl
  | cons b text ih =>
      rw [List.mem_cons, not_or] at h
      rw [List.cons_append, lengthToNul?, if_neg (Ne.symm h.1), ih h.2]
      rfl

theorem lengthToNul?_eq_none_iff (bytes : List UInt8) : lengthToNul? bytes = none ↔ 0 ∉ bytes := by
  rw [lengthToNul?_eq_findIdx?, List.findIdx?_eq_none_iff]
  constructor
  · intro hNone hZero
    simpa using hNone 0 hZero
  · intro hZero b hb
    exact beq_false_of_ne (ne_of_mem_of_not_mem hb hZero)

/-- The bytes in front of a length are no NULs, and the byte behind them is one. -/
theorem lengthToNul?_eq_some_iff {bytes : List UInt8} {length : Nat} :
    lengthToNul? bytes = some length ↔
      bytes[length]? = some 0 ∧ ∀ i < length, ∃ b, bytes[i]? = some b ∧ b ≠ 0 := by
  rw [lengthToNul?_eq_findIdx?, List.findIdx?_eq_some_iff_getElem]
  constructor
  · rintro ⟨hLength, hNul, hBefore⟩
    refine ⟨?_, fun i hi => ⟨bytes[i], List.getElem?_eq_getElem _, ?_⟩⟩
    · rw [List.getElem?_eq_getElem hLength, eq_of_beq hNul]
    · simpa using hBefore i hi
  · rintro ⟨hNul, hBefore⟩
    obtain ⟨hLength, hNul⟩ := List.getElem?_eq_some_iff.mp hNul
    refine ⟨hLength, beq_iff_eq.mpr hNul, fun i hi => ?_⟩
    obtain ⟨b, hb, hSome⟩ := hBefore i hi
    obtain ⟨_, rfl⟩ := List.getElem?_eq_some_iff.mp hb
    simpa using hSome

theorem boundedLength_of_lengthToNul? {bytes : List UInt8} {length : Nat}
    (h : lengthToNul? bytes = some length) : boundedLength bytes = length := by
  rw [boundedLength_eq_getD, h, Option.getD_some]

theorem boundedLength_take (bytes : List UInt8) (count : Nat) :
    boundedLength (bytes.take count) = min count (boundedLength bytes) := by
  rw [boundedLength_eq_findIdx, boundedLength_eq_findIdx, List.findIdx_take]

theorem boundedLength_eq_length_iff (bytes : List UInt8) :
    boundedLength bytes = bytes.length ↔ 0 ∉ bytes := by
  rw [boundedLength_eq_findIdx, List.findIdx_eq_length, ← List.findIdx?_eq_none_iff,
    ← lengthToNul?_eq_findIdx?, lengthToNul?_eq_none_iff]

variable {bytes : Bytes} {offset length nul : Nat}

theorem toList_extract_eq_take (bytes : Bytes) (offset count : Nat) :
    (bytes.extract offset (offset + count)).toList = (bytes.toList.drop offset).take count := by
  rw [Array.toList_extract, List.extract_eq_take_drop, Nat.add_sub_cancel_left]

theorem getElem?_drop_toList (bytes : Bytes) (offset i : Nat) :
    (bytes.toList.drop offset)[i]? = bytes[offset + i]? := by
  rw [List.getElem?_drop, Array.getElem?_toList]

/-- The text at an offset, as the walk through all bytes and the bounded one through a part that
begins there measure it. -/
structure Measured (bytes : Bytes) (offset length : Nat) : Prop where
  walk : lengthToNul? (bytes.toList.drop offset) = some length
  nul : bytes[offset + length]? = some 0
  before : ∀ i < length, ∃ b, bytes[offset + i]? = some b ∧ b ≠ 0
  bounded : ∀ count, bytes.Fits offset count → ∃ part,
    (slice offset count).run bytes = .ok part bytes ∧ boundedLength part = min count length

theorem measured_of_walk (hWalk : lengthToNul? (bytes.toList.drop offset) = some length) :
    Measured bytes offset length := by
  obtain ⟨hNul, hBefore⟩ := lengthToNul?_eq_some_iff.mp hWalk
  simp only [getElem?_drop_toList] at hNul hBefore
  refine ⟨hWalk, hNul, hBefore, fun count hFits => ⟨_, slice_run_of_fits hFits, ?_⟩⟩
  rw [toList_extract_eq_take, boundedLength_take, boundedLength_of_lengthToNul? hWalk]

theorem exists_measured (hOffset : offset ≤ nul) (hNul : bytes[nul]? = some 0) :
    ∃ length, Measured bytes offset length := by
  have hAt : (bytes.toList.drop offset)[nul - offset]? = some 0 := by
    rw [getElem?_drop_toList, Nat.add_sub_cancel' hOffset, hNul]
  have hWalk : lengthToNul? (bytes.toList.drop offset) ≠ none := by
    rw [ne_eq, lengthToNul?_eq_none_iff, not_not]
    exact List.mem_of_getElem? hAt
  obtain ⟨length, hLength⟩ := Option.ne_none_iff_exists'.mp hWalk
  exact ⟨length, measured_of_walk hLength⟩

/-- A NUL at or behind the offset ends the walk at the first NUL, and every part that begins at the
offset is measured up to that NUL or, if it is shorter, whole. A part is measured whole exactly where
it holds no NUL. -/
theorem lengths_agree (hOffset : offset ≤ nul) (hNul : bytes[nul]? = some 0) :
    (∃ length, Measured bytes offset length) ∧
      ∀ part : List UInt8, boundedLength part = part.length ↔ 0 ∉ part :=
  ⟨exists_measured hOffset hNul, boundedLength_eq_length_iff⟩

/-- The first of two NULs ends the text, in whatever part it is measured. -/
theorem lengths_agree_of_cuts :
    1 ≤ 5 ∧ (#[97, 98, 99, 0, 100, 0] : Bytes)[5]? = some 0 ∧
      lengthToNul? [98, 99, 0, 100, 0] = some 2 ∧
      (∀ count, Fits #[97, 98, 99, 0, 100, 0] 1 count → ∃ part,
        (slice 1 count).run #[97, 98, 99, 0, 100, 0] = .ok part #[97, 98, 99, 0, 100, 0] ∧
          boundedLength part = min count 2) ∧
      boundedLength [110, 111] = 2 := by
  have hNul : (#[97, 98, 99, 0, 100, 0] : Bytes)[5]? = some 0 := rfl
  obtain ⟨⟨length, hMeasured⟩, hWhole⟩ := lengths_agree (by decide : 1 ≤ 5) hNul
  have hLength : 2 = length := Option.some.inj hMeasured.walk
  subst hLength
  exact ⟨by decide, hNul, hMeasured.walk, hMeasured.bounded, (hWhole [110, 111]).mpr (by decide)⟩

end FirstStage.Bytes
