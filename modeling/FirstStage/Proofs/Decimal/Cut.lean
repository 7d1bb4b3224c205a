import FirstStage.Proofs.Bytes.Overwritten
import FirstStage.Proofs.Decimal.Canonical

/-! # A range too short for a numeral

A range without room for all digits faults at the last of them, which is the first to be stored, and
nothing is written. A range with room for the digits alone holds them all when it faults at the NUL.
Either way nothing around the range is touched, and the index of the loop comes down to zero at
most.
-/

namespace FirstStage.Decimal

theorem store_run_error {index : Nat} {bytes : Bytes} (h : bytes.size ≤ index) (value : UInt8) :
    (Bytes.store index value).run bytes = .error (.indexOutside bytes.size index) bytes :=
  if_neg (Nat.not_lt.mpr h)

theorem storeDigits_run_error {count : Nat} {bytes : Bytes} (h : bytes.size < count) (n : Nat) :
    (storeDigits count n).run bytes = .error (.indexOutside bytes.size (count - 1)) bytes := by
  cases count with
  | zero => exact absurd h (Nat.not_lt_zero _)
  | succ count => exact Act.bind_error (store_run_error (Nat.le_of_lt_succ h) _)

theorem render_run_of_lt {num : UInt32} {bytes : Bytes} (h : bytes.size < width num.toNat) :
    (render num).run bytes =
      .error (.indexOutside bytes.size (width num.toNat - 1)) bytes :=
  Act.bind_error (storeDigits_run_error h _)

theorem render_run_of_eq {num : UInt32} {bytes : Bytes} (h : bytes.size = width num.toNat) :
    (render num).run bytes =
      .error (.indexOutside bytes.size (width num.toNat)) (digits num).toArray := by
  have hLength : (digits num).toArray.size = bytes.size := (length_digits num).trans h.symm
  have hStored := storeDigits_run (Nat.le_of_eq h.symm) num.toNat
  rw [List.drop_of_length_le (by rw [Array.length_toList, h]), List.append_nil] at hStored
  -- All digits have been stored, and it is the NUL that finds no room.
  have hNul : (Bytes.store (width num.toNat) 0).run (digits num).toArray = _ :=
    store_run_error (by rw [hLength, h]) 0
  rw [hLength] at hNul
  exact (Act.bind_ok hStored).trans (Act.bind_error hNul)

theorem size_reached_render (num : UInt32) (bytes : Bytes) :
    (Act.reached ((render num).run bytes)).size = bytes.size := by
  rcases Nat.lt_trichotomy bytes.size (width num.toNat) with hLess | hSame | hRoom
  · rw [render_run_of_lt hLess]
    rfl
  · rw [render_run_of_eq hSame]
    exact (length_digits num).trans hSame.symm
  · rw [render_run hRoom]
    exact (rendered_digits hRoom).size_eq

/-- The loop over the digits with its index in hand: the index steps down, a digit is stored there,
and the store at zero is the last. An index that has to step below zero comes to nothing. -/
def countdown : (index n : Nat) → Bytes → Option (EStateM.Result Fault Bytes Unit)
  | 0, _, _ => none
  | index + 1, n, bytes =>
      match (Bytes.store index (unitDigit n)).run bytes with
      | .error fault stored => some (.error fault stored)
      | .ok _ stored =>
          if index = 0 then some (.ok () stored) else countdown index (n / 10) stored

theorem countdown_eq {index : Nat} (h : 0 < index) (n : Nat) (bytes : Bytes) :
    countdown index n bytes = some ((storeDigits index n).run bytes) := by
  induction index generalizing n bytes with
  | zero => exact absurd h (Nat.lt_irrefl 0)
  | succ index ih =>
      rw [countdown, storeDigits]
      cases hStore : (Bytes.store index (unitDigit n)).run bytes with
      | error fault stored => rw [Act.bind_error hStore]
      | ok _ stored =>
          rw [Act.bind_ok hStore]
          dsimp only
          split
          · rename_i hZero
            subst hZero
            rfl
          · rename_i hMore
            exact ih (Nat.pos_of_ne_zero hMore) _ _

section Range

variable {num : UInt32} {bytes : Bytes} {offset length : Nat}

theorem onRange_run_of_lt (hFits : bytes.Fits offset length) (h : length < width num.toNat) :
    (Bytes.onRange offset length (render num)).run bytes =
      .error (.indexOutside length (width num.toNat - 1)) bytes := by
  have hSize := Bytes.size_extract_of_fits hFits
  have hRun : (render num).run (bytes.extract offset (offset + length)) = _ :=
    render_run_of_lt (hSize.trans_lt h)
  rw [hSize] at hRun
  have hRange : (Bytes.onRange offset length (render num)).run bytes = _ := Act.within_error hRun
  rw [hRange, Bytes.overwrite_extract hFits]

theorem onRange_run_of_eq (hFits : bytes.Fits offset length) (h : length = width num.toNat) :
    (Bytes.onRange offset length (render num)).run bytes =
      .error (.indexOutside length (width num.toNat)) (bytes.overwrite offset (digits num)) := by
  have hSize := Bytes.size_extract_of_fits hFits
  have hRun : (render num).run (bytes.extract offset (offset + length)) = _ :=
    render_run_of_eq (hSize.trans h)
  rw [hSize] at hRun
  exact Act.within_error hRun

theorem onRange_run_of_gt (hFits : bytes.Fits offset length) (h : width num.toNat < length) :
    ∃ after, (Bytes.onRange offset length (render num)).run bytes =
      .ok (width num.toNat) after := by
  rw [← Bytes.size_extract_of_fits hFits] at h
  exact ⟨_, Act.within_ok (render_run h)⟩

/-- What comes of a word with `count` digits that is rendered into a range of an array. -/
structure RangeExact (num : UInt32) (count : Nat) (before : Bytes) (offset length : Nat)
    (result : EStateM.Result Fault Bytes Nat) : Prop where
  faults_iff : (∃ fault after, result = .error fault after) ↔ length ≤ count
  unwritten : length < count → result = .error (.indexOutside length (count - 1)) before
  unterminated : length = count → ∃ after, result = .error (.indexOutside length count) after ∧
    (after.extract offset (offset + length)).toList = utf8 (Numeral.decimal num.toNat)
  size_eq : (Act.reached result).size = before.size
  outside : ∀ index, index < offset ∨ offset + length ≤ index →
    (Act.reached result).byteAt index = before.byteAt index
  counted : countdown count num.toNat (before.extract offset (offset + length)) =
    some ((storeDigits count num.toNat).run (before.extract offset (offset + length)))

theorem range_exact (num : UInt32) {bytes : Bytes} {offset length : Nat}
    (hFits : bytes.Fits offset length) :
    RangeExact num (Nat.toDigits 10 num.toNat).length bytes offset length
      ((Bytes.onRange offset length (render num)).run bytes) := by
  have hReached := Bytes.reached_onRange offset length (render num) bytes
  rw [length_toDigits]
  refine {
    faults_iff := ?_
    unwritten := onRange_run_of_lt hFits
    unterminated := fun hSame => ⟨_, onRange_run_of_eq hFits hSame, ?_⟩
    size_eq := ?_
    outside := fun index hOutside => ?_
    counted := countdown_eq (width_pos _) _ _ }
  · constructor
    · rintro ⟨fault, after, hFault⟩
      by_contra hRoom
      obtain ⟨left, hRun⟩ := onRange_run_of_gt hFits (Nat.lt_of_not_le hRoom)
      rw [hRun] at hFault
      cases hFault
    · intro hShort
      rcases Nat.lt_or_eq_of_le hShort with hLess | hSame
      · exact ⟨_, _, onRange_run_of_lt hFits hLess⟩
      · exact ⟨_, _, onRange_run_of_eq hFits hSame⟩
  · rw [← digits_eq]
    rw [hSame, ← length_digits] at hFits ⊢
    exact Bytes.extract_overwrite hFits
  · rw [hReached, Bytes.size_overwrite]
  · rw [hReached]
    apply Bytes.byteAt_overwrite_of_outside
    rwa [Array.length_toList, size_reached_render, Bytes.size_extract_of_fits hFits]

/-- Three digits in a range of three bytes. -/
theorem range_exact_of_threeDigits :
    Bytes.Fits #[9, 9, 9, 9, 9] 1 3 ∧
      ∃ after,
        (Bytes.onRange 1 3 (render 407)).run #[9, 9, 9, 9, 9] = .error (.indexOutside 3 3) after ∧
        (after.extract 1 4).toList = utf8 "407" ∧ after.byteAt 0 = 9 ∧ after.byteAt 4 = 9 := by
  have hFits : Bytes.Fits #[9, 9, 9, 9, 9] 1 3 := by decide
  have hExact := range_exact 407 hFits
  obtain ⟨after, hRun, hDigits⟩ := hExact.unterminated (by decide)
  have hBefore := hExact.outside 0 (by decide)
  have hBehind := hExact.outside 4 (by decide)
  rw [hRun] at hBefore hBehind
  exact ⟨hFits, after, hRun, hDigits, hBefore, hBehind⟩

end Range

end FirstStage.Decimal
