import FirstStage.Proofs.Bytes.Terminated
import FirstStage.Proofs.Decimal.Numerals
import Mathlib.Data.List.Induction

/-! # The canonical numeral of a word

The digits that are rendered spell the word when they are read again, and no other text of digits
without a leading zero does. Behind them stands a NUL, which both ways to measure the text find.
-/

namespace FirstStage.Decimal

/-- The number that digits spell. -/
def value (text : List UInt8) : Nat := text.foldl (fun n b => 10 * n + (b.toNat - 48)) 0

theorem value_concat (text : List UInt8) (b : UInt8) :
    value (text ++ [b]) = 10 * value text + (b.toNat - 48) := by
  simp [value]

/-- A text of digits whose first is a zero only when it is alone. -/
structure IsNumeral (text : List UInt8) : Prop where
  ne_nil : text ≠ []
  digit : ∀ b ∈ text, isDigit b = true
  leading : text.head? = some 0x30 → text = [0x30]

theorem toNat_unitDigit (n : Nat) : (unitDigit n).toNat = 48 + n % 10 := by
  have hUnit := Nat.mod_lt n (by decide : 0 < 10)
  rw [unitDigit, UInt8.toNat_ofNat']
  omega

theorem isDigit_iff (b : UInt8) : isDigit b = true ↔ 48 ≤ b.toNat ∧ b.toNat ≤ 57 := by
  rw [isDigit, Bool.and_eq_true, decide_eq_true_eq, decide_eq_true_eq, UInt8.le_iff_toNat_le,
    UInt8.le_iff_toNat_le]
  rfl

theorem unitDigit_of_isDigit {b : UInt8} (h : isDigit b = true) (n : Nat) :
    unitDigit (10 * n + (b.toNat - 48)) = b := by
  have hDigit := (isDigit_iff b).mp h
  apply UInt8.toNat_inj.mp
  rw [toNat_unitDigit]
  omega

theorem width_pos (n : Nat) : 0 < width n := by
  rw [width]
  split
  · exact Nat.one_pos
  · exact Nat.succ_pos _

theorem lowDigits_width_of_lt {n : Nat} (h : n < 10) : lowDigits (width n) n = [unitDigit n] := by
  rw [width_of_lt h]
  rfl

theorem lowDigits_width_of_le {n : Nat} (h : 10 ≤ n) :
    lowDigits (width n) n = lowDigits (width (n / 10)) (n / 10) ++ [unitDigit n] := by
  rw [width_of_le h, lowDigits]

theorem lowDigits_width_ne_nil (n : Nat) : lowDigits (width n) n ≠ [] := by
  apply List.ne_nil_of_length_pos
  rw [length_lowDigits]
  exact width_pos n

theorem value_lowDigits_width (n : Nat) : value (lowDigits (width n) n) = n := by
  induction n using width.induct with
  | case1 n hSmall =>
      rw [lowDigits_width_of_lt hSmall, ← List.nil_append [unitDigit n], value_concat,
        toNat_unitDigit]
      change 10 * 0 + _ = _
      omega
  | case2 n hLarge ih =>
      rw [lowDigits_width_of_le (Nat.not_lt.mp hLarge), value_concat, ih, toNat_unitDigit]
      omega

theorem isNumeral_lowDigits_width (n : Nat) : IsNumeral (lowDigits (width n) n) where
  ne_nil := lowDigits_width_ne_nil n
  digit _ := isDigit_of_mem_lowDigits
  leading := by
    induction n using width.induct with
    | case1 n hSmall =>
        rw [lowDigits_width_of_lt hSmall, List.head?_cons]
        intro hZero
        rw [Option.some_inj.mp hZero]
    | case2 n hLarge ih =>
        rw [lowDigits_width_of_le (Nat.not_lt.mp hLarge),
          List.head?_append_of_ne_nil _ (lowDigits_width_ne_nil _)]
        intro hZero
        -- The digits in front of the last would spell zero.
        have hValue := congrArg value (ih hZero)
        rw [value_lowDigits_width] at hValue
        change n / 10 = 0 at hValue
        omega

/-- No other numeral spells the same number. -/
theorem eq_lowDigits_of_isNumeral {text : List UInt8} (h : IsNumeral text) :
    text = lowDigits (width (value text)) (value text) := by
  induction text using List.reverseRecOn with
  | nil => exact absurd rfl h.ne_nil
  | append_singleton front b ih =>
      have hLast : isDigit b = true := h.digit b List.mem_concat_self
      have hRange := (isDigit_iff b).mp hLast
      rw [value_concat]
      by_cases hNil : front = []
      · subst hNil
        have hSmall : 10 * value [] + (b.toNat - 48) < 10 := by
          change 10 * 0 + _ < _
          omega
        rw [lowDigits_width_of_lt hSmall, unitDigit_of_isDigit hLast, List.nil_append]
      · have hLead : front.head? ≠ some 0x30 := by
          intro hZero
          have hAlone : front ++ [b] = [] ++ [0x30] :=
            h.leading ((List.head?_append_of_ne_nil _ hNil).trans hZero)
          exact hNil (List.append_inj_left' hAlone rfl)
        have hFront := ih {
          ne_nil := hNil
          digit := fun c hc => h.digit c (List.mem_append_left _ hc)
          leading := fun hZero => absurd hZero hLead }
        have hPos : 0 < value front := by
          rw [Nat.pos_iff_ne_zero]
          intro hZero
          rw [hZero, lowDigits_width_of_lt (by decide)] at hFront
          exact hLead (congrArg List.head? hFront)
        have hDiv : (10 * value front + (b.toNat - 48)) / 10 = value front := by omega
        rw [lowDigits_width_of_le (by omega), hDiv, ← hFront, unitDigit_of_isDigit hLast]

theorem length_toDigits (n : Nat) : (Nat.toDigits 10 n).length = width n := by
  induction n using width.induct with
  | case1 n hSmall =>
      rw [Nat.toDigits_of_lt_base hSmall, width_of_lt hSmall]
      rfl
  | case2 n hLarge ih =>
      have hTen : 10 ≤ n := Nat.not_lt.mp hLarge
      rw [Nat.toDigits_of_base_le (by decide) hTen, List.length_append, ih, width_of_le hTen]
      rfl

theorem nul_notMem_digits (num : UInt32) : 0 ∉ digits num := fun h =>
  absurd (isDigit_of_mem_lowDigits h) (by decide)

/-- An array after the numeral of a word was written to its beginning, against the array before. -/
structure Rendered (num : UInt32) (text : List UInt8) (before after : Bytes) : Prop where
  length_pos : 1 ≤ text.length
  length_le : text.length ≤ 10
  length_lt_field : text.length < Layout.decimalFieldSize
  stored : after.toList.take text.length = text
  digit : ∀ b ∈ text, isDigit b = true
  leading : num ≠ 0 → text.head? ≠ some 0x30
  zero : num = 0 → text = [0x30]
  value_eq : value text = num.toNat
  unique : ∀ other, IsNumeral other → value other = num.toNat → other = text
  terminated : after[text.length]? = some 0
  kept : ∀ index, text.length < index → after[index]? = before[index]?
  size_eq : after.size = before.size
  lengthToNul : Bytes.lengthToNul? after.toList = some text.length
  boundedLength : Bytes.boundedLength after.toList = text.length

theorem rendered_digits {num : UInt32} {bytes : Bytes} (hRoom : width num.toNat < bytes.size) :
    Rendered num (digits num) bytes
      (digits num ++ 0 :: bytes.toList.drop (width num.toNat + 1)).toArray := by
  have hLength := length_digits num
  have hTen := width_le_ten num
  have hNumeral : IsNumeral (digits num) := isNumeral_lowDigits_width num.toNat
  have hValue : value (digits num) = num.toNat := value_lowDigits_width num.toNat
  have hNul := nul_notMem_digits num
  refine {
    length_pos := hLength ▸ width_pos num.toNat
    length_le := hLength ▸ hTen
    length_lt_field := hLength ▸ Nat.lt_of_le_of_lt hTen (by decide)
    stored := List.take_left
    digit := hNumeral.digit
    leading := fun hNum hZero => ?_
    zero := ?_
    value_eq := hValue
    unique := fun other hOther hSame => ?_
    terminated := ?_
    kept := fun index hIndex => ?_
    size_eq := ?_
    lengthToNul := Bytes.lengthToNul?_append hNul _
    boundedLength := ?_ }
  · rw [hNumeral.leading hZero] at hValue
    exact hNum (UInt32.toNat_inj.mp hValue.symm)
  · rintro rfl
    exact lowDigits_width_of_lt (by decide)
  · rw [eq_lowDigits_of_isNumeral hOther, hSame]
    rfl
  · rw [List.getElem?_toArray, List.getElem?_append_right (Nat.le_refl _), Nat.sub_self]
    rfl
  · rw [List.getElem?_toArray, List.getElem?_append_right (Nat.le_of_lt hIndex)]
    obtain ⟨k, hk⟩ := Nat.exists_eq_add_of_lt hIndex
    rw [show index - (digits num).length = k + 1 by omega, List.getElem?_cons_succ,
      List.getElem?_drop, Array.getElem?_toList, hk, hLength]
    congr 1
    omega
  · simp only [List.size_toArray, List.length_append, List.length_cons, List.length_drop,
      Array.length_toList, hLength]
    omega
  · rw [Bytes.boundedLength_eq_getD, Bytes.lengthToNul?_append hNul]
    rfl

/-- Wherever there is room for the digits of a word and a NUL, its numeral is written and nothing
behind it is touched. A decimal field has the room for every word, and what it holds tells the words
apart. -/
theorem exists_rendered {num : UInt32} {bytes : Bytes}
    (hRoom : (Nat.toDigits 10 num.toNat).length < bytes.size) :
    ∃ after field,
      (render num).run bytes = .ok (Nat.toDigits 10 num.toNat).length after ∧
      Field.render num = .ok field ∧
      field.length = (Nat.toDigits 10 num.toNat).length ∧
      field.length < field.bytes.size ∧
      Rendered num field.digits bytes after ∧
      field.digits.length = (Nat.toDigits 10 num.toNat).length ∧
      ∀ other otherField, Field.render other = .ok otherField →
        otherField.digits = field.digits → other = num := by
  rw [length_toDigits] at hRoom ⊢
  obtain ⟨field, hField, hLength, hSize, hDigits⟩ := Field.exists_render_eq num
  refine ⟨_, field, render_run hRoom, hField, hLength, ?_, ?_, ?_, ?_⟩
  · rw [hLength, hSize]
    exact Nat.lt_of_le_of_lt (width_le_ten num) (by decide)
  · rw [hDigits]
    exact rendered_digits hRoom
  · rw [hDigits, length_digits]
  · intro other otherField hOther hSame
    rw [Field.digits_of_render hOther, hDigits] at hSame
    exact digits_injective hSame

/-- The largest word in an array with a byte to spare. -/
theorem exists_rendered_of_largest :
    (Nat.toDigits 10 (0xFFFFFFFF : UInt32).toNat).length < (Array.replicate 12 (0xAA : UInt8)).size ∧
      ∃ after field,
        (render 0xFFFFFFFF).run (Array.replicate 12 0xAA) = .ok 10 after ∧
        Field.render 0xFFFFFFFF = .ok field ∧ field.digits = utf8 "4294967295" ∧
        after[10]? = some 0 ∧ after[11]? = some 0xAA := by
  have hRoom : (Nat.toDigits 10 (0xFFFFFFFF : UInt32).toNat).length <
      (Array.replicate 12 (0xAA : UInt8)).size := by decide
  have hNumeral : IsNumeral (utf8 "4294967295") :=
    ⟨by decide, List.all_eq_true.mp (by decide), by decide⟩
  obtain ⟨after, field, hRun, hField, -, -, hRendered, -, -⟩ := exists_rendered hRoom
  have hDigits := hRendered.unique _ hNumeral (by decide)
  have hNul := hRendered.terminated
  have hKept := hRendered.kept 11
  rw [← hDigits] at hNul hKept
  exact ⟨hRoom, after, field, hRun, hField, hDigits.symm, hNul, hKept (by decide)⟩

end FirstStage.Decimal
