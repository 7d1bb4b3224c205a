import FirstStage.Output.Display
import Mathlib.Algebra.Group.Nat.Defs

/-! # The digits of a word

Rendering stores the decimal digits of a word and a NUL, and leaves the bytes behind the NUL alone.
A word has at most ten digits, so the decimal field always has room and a display takes every
number.
-/

namespace FirstStage

namespace Decimal

/-- The `count` lowest digits of `n`, the highest of them first. -/
def lowDigits : (count n : Nat) → List UInt8
  | 0, _ => []
  | count + 1, n => lowDigits count (n / 10) ++ [unitDigit n]

def digits (num : UInt32) : List UInt8 := lowDigits (width num.toNat) num.toNat

@[simp]
theorem length_lowDigits (count n : Nat) : (lowDigits count n).length = count := by
  induction count generalizing n with
  | zero => rfl
  | succ count ih => rw [lowDigits, List.length_append, ih, List.length_singleton]

@[simp]
theorem length_digits (num : UInt32) : (digits num).length = width num.toNat :=
  length_lowDigits _ _

theorem width_of_lt {n : Nat} (h : n < 10) : width n = 1 := by
  rw [width, if_pos h]

theorem width_of_le {n : Nat} (h : 10 ≤ n) : width n = width (n / 10) + 1 := by
  rw [width, if_neg (Nat.not_lt.mpr h)]

theorem width_le_of_lt {n count : Nat} (hCount : 0 < count) (h : n < 10 ^ count) :
    width n ≤ count := by
  induction count generalizing n with
  | zero => exact absurd hCount (Nat.lt_irrefl 0)
  | succ count ih =>
      rw [width]
      split
      · exact hCount
      · rename_i hLarge
        have hPos : 0 < count := by
          rcases Nat.eq_zero_or_pos count with rfl | hPos
          · exact absurd h hLarge
          · exact hPos
        have hDiv : n / 10 < 10 ^ count := by
          rw [Nat.pow_succ] at h
          omega
        exact Nat.succ_le_succ (ih hPos hDiv)

theorem width_le_ten (num : UInt32) : width num.toNat ≤ 10 :=
  width_le_of_lt (by decide) (Nat.lt_trans num.toNat_lt (by decide))

theorem store_run {index : Nat} {bytes : Bytes} (h : index < bytes.size) (value : UInt8) :
    (Bytes.store index value).run bytes = .ok () (bytes.setIfInBounds index value) := if_pos h

theorem drop_toList_setIfInBounds {index : Nat} {bytes : Bytes} (h : index < bytes.size)
    (value : UInt8) :
    (bytes.setIfInBounds index value).toList.drop index =
      value :: bytes.toList.drop (index + 1) := by
  have hSize : index < (bytes.setIfInBounds index value).toList.length := by
    rwa [Array.length_toList, Array.size_setIfInBounds]
  rw [List.drop_eq_getElem_cons hSize]
  simp [List.drop_set_of_lt]

/-- The digits go in from the last to the first; what is stored stays in place. -/
theorem storeDigits_run {count : Nat} {bytes : Bytes} (h : count ≤ bytes.size) (n : Nat) :
    (storeDigits count n).run bytes =
      .ok () (lowDigits count n ++ bytes.toList.drop count).toArray := by
  induction count generalizing n bytes with
  | zero =>
      change EStateM.Result.ok () bytes = _
      rw [lowDigits, List.nil_append, List.drop_zero, Array.toArray_toList]
  | succ count ih =>
      have hRest : count ≤ (bytes.setIfInBounds count (unitDigit n)).size := by
        rw [Array.size_setIfInBounds]
        omega
      rw [storeDigits, Act.bind_ok (store_run h (unitDigit n)), ih hRest,
        drop_toList_setIfInBounds h, lowDigits, List.append_assoc, List.singleton_append]

theorem render_run {num : UInt32} {bytes : Bytes} (h : width num.toNat < bytes.size) :
    (render num).run bytes =
      .ok (width num.toNat)
        (digits num ++ 0 :: bytes.toList.drop (width num.toNat + 1)).toArray := by
  have hStored : width num.toNat <
      (digits num ++ bytes.toList.drop (width num.toNat)).toArray.size := by
    simp
    omega
  have hSplit : bytes.toList.drop (width num.toNat) =
      bytes[width num.toNat] :: bytes.toList.drop (width num.toNat + 1) :=
    List.drop_eq_getElem_cons (by rwa [Array.length_toList])
  have hFinal : (digits num ++ bytes.toList.drop (width num.toNat)).toArray.setIfInBounds
      (width num.toNat) 0 =
        (digits num ++ 0 :: bytes.toList.drop (width num.toNat + 1)).toArray := by
    rw [List.setIfInBounds_toArray, List.set_append_right _ _ (Nat.le_of_eq (length_digits num)),
      length_digits, Nat.sub_self, hSplit, List.set_cons_zero]
  rw [render, Act.bind_ok (storeDigits_run (Nat.le_of_lt h) num.toNat)]
  refine (Act.bind_ok (store_run hStored 0)).trans ?_
  exact congrArg (EStateM.Result.ok (width num.toNat)) hFinal

namespace Field

theorem exists_render_eq (num : UInt32) :
    ∃ field, render num = .ok field ∧ field.length = width num.toNat ∧
      field.bytes.size = Layout.decimalFieldSize ∧ field.digits = Decimal.digits num := by
  have hTen := width_le_ten num
  have hField : Layout.decimalFieldSize = 12 := rfl
  have hRoom : width num.toNat < (Array.replicate Layout.decimalFieldSize (0 : UInt8)).size := by
    rw [Array.size_replicate]
    omega
  rw [render, render_run hRoom]
  refine ⟨_, rfl, rfl, ?_, ?_⟩
  · simp only [List.size_toArray, List.length_append, List.length_cons, List.length_drop,
      Array.length_toList, Array.size_replicate, length_digits]
    omega
  · change List.take (width num.toNat) _ = _
    rw [List.take_left' (length_digits num)]

theorem digits_of_render {num : UInt32} {field : Field} (h : render num = .ok field) :
    field.digits = Decimal.digits num := by
  obtain ⟨other, hOther, -, -, hDigits⟩ := exists_render_eq num
  rw [hOther] at h
  cases h
  exact hDigits

end Field

end Decimal

theorem Display.decimal_run {D : Type} [Display D] (num : UInt32) (display : D) :
    (Display.decimal num).run display = .ok () (Display.text (Decimal.digits num) display) := by
  obtain ⟨field, hField, -, -, hDigits⟩ := Decimal.Field.exists_render_eq num
  unfold Display.decimal EStateM.run
  rw [hField, ← hDigits]

end FirstStage
