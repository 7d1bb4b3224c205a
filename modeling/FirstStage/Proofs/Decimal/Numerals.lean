import FirstStage.Numeral
import FirstStage.Proofs.Decimal.Digits
import FirstStage.Utf8

/-! # Numbers in a text

The digits that are rendered spell the decimal numeral of the word. A number in a text ends where
the digits end, so it can be read back without a delimiter.
-/

namespace FirstStage

theorem utf8_injective {s t : String} (h : utf8 s = utf8 t) : s = t :=
  String.toByteArray_inj.mp (ByteArray.ext (Array.toList_inj.mp h))

theorem Numeral.decimal_injective {m n : Nat} (h : decimal m = decimal n) : m = n := by
  have hDigits : Nat.toDigits 10 m = Nat.toDigits 10 n := String.ofList_injective h
  calc
    m = Nat.ofDigitChars 10 (Nat.toDigits 10 m) 0 := Nat.ofDigitChars_ten_toDigits.symm
    _ = Nat.ofDigitChars 10 (Nat.toDigits 10 n) 0 := by rw [hDigits]
    _ = n := Nat.ofDigitChars_ten_toDigits

namespace Decimal

def isDigit (b : UInt8) : Bool := 48 ≤ b && b ≤ 57

theorem isDigit_unitDigit (n : Nat) : isDigit (unitDigit n) = true := by
  have hDigit : ∀ d < 10, isDigit (UInt8.ofNat (48 + d)) = true := by decide
  exact hDigit _ (Nat.mod_lt n (by decide))

theorem utf8_digitChar (n : Nat) :
    utf8 (String.ofList [Nat.digitChar (n % 10)]) = [unitDigit n] := by
  have hDigit : ∀ d < 10, utf8 (String.ofList [Nat.digitChar d]) = [UInt8.ofNat (48 + d)] := by
    decide
  exact hDigit _ (Nat.mod_lt n (by decide))

theorem utf8_decimal (n : Nat) : utf8 (Numeral.decimal n) = lowDigits (width n) n := by
  unfold Numeral.decimal
  induction n using width.induct with
  | case1 n hSmall =>
      have hUnit := utf8_digitChar n
      rw [Nat.mod_eq_of_lt hSmall] at hUnit
      rw [Nat.toDigits_of_lt_base hSmall, hUnit, width_of_lt hSmall]
      rfl
  | case2 n hLarge ih =>
      have hTen : 10 ≤ n := Nat.not_lt.mp hLarge
      rw [Nat.toDigits_of_base_le (by decide) hTen, String.ofList_append, utf8_append, ih,
        utf8_digitChar, width_of_le hTen, lowDigits]

theorem digits_eq (num : UInt32) : digits num = utf8 (Numeral.decimal num.toNat) :=
  (utf8_decimal num.toNat).symm

theorem digits_injective {num num' : UInt32} (h : digits num = digits num') : num = num' := by
  rw [digits_eq, digits_eq] at h
  exact UInt32.toNat_inj.mp (Numeral.decimal_injective (utf8_injective h))

theorem isDigit_of_mem_lowDigits {count n : Nat} {b : UInt8} (h : b ∈ lowDigits count n) :
    isDigit b = true := by
  induction count generalizing n with
  | zero => cases h
  | succ count ih =>
      rw [lowDigits, List.mem_append, List.mem_singleton] at h
      rcases h with h | rfl
      · exact ih h
      · exact isDigit_unitDigit n

/-- In front of a text that begins with no digit, a number is all the digits there are. -/
theorem takeWhile_digits_append {rest : List UInt8} (h : rest.takeWhile isDigit = [])
    (num : UInt32) : (digits num ++ rest).takeWhile isDigit = digits num := by
  have hDigits : ∀ b ∈ digits num, isDigit b = true := fun _ => isDigit_of_mem_lowDigits
  rw [List.takeWhile_append_of_pos hDigits, h, List.append_nil]

theorem digits_append_inj {num num' : UInt32} {rest rest' : List UInt8}
    (hRest : rest.takeWhile isDigit = []) (hRest' : rest'.takeWhile isDigit = [])
    (h : digits num ++ rest = digits num' ++ rest') : num = num' ∧ rest = rest' := by
  have hDigits := congrArg (List.takeWhile isDigit) h
  rw [takeWhile_digits_append hRest, takeWhile_digits_append hRest'] at hDigits
  rw [hDigits] at h
  exact ⟨digits_injective hDigits, List.append_cancel_left h⟩

end Decimal

end FirstStage
