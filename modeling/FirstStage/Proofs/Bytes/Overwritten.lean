import FirstStage.Proofs.Bytes.Copied

/-! # What an overwritten range holds

New bytes stand from their offset on and all others stay. A forward copy to a place outside its
source is such an overwriting, by the bytes that stood at the source.
-/

namespace FirstStage.Bytes

variable {bytes : Bytes} {offset : Nat} {new : List UInt8}

theorem byteAt_eq_getElem {index : Nat} (h : index < bytes.size) :
    byteAt bytes index = bytes[index] := by
  rw [byteAt, Array.getElem?_eq_getElem h, Option.getD_some]

theorem ext_byteAt {other : Bytes} (hSize : bytes.size = other.size)
    (h : ∀ index, byteAt bytes index = byteAt other index) : bytes = other := by
  apply Array.ext hSize
  intro index hIndex hIndex'
  rw [← byteAt_eq_getElem hIndex, ← byteAt_eq_getElem hIndex']
  exact h index

theorem byteAt_overwrite_of_outside {index : Nat}
    (h : index < offset ∨ offset + new.length ≤ index) :
    byteAt (bytes.overwrite offset new) index = byteAt bytes index := by
  induction new generalizing bytes offset with
  | nil => rfl
  | cons b rest ih =>
      rw [List.length_cons] at h
      rw [overwrite, ih (by omega), byteAt_setIfInBounds_ne (by omega)]

theorem byteAt_overwrite_of_inside (hFits : bytes.Fits offset new.length) {i : Nat}
    (hi : i < new.length) : byteAt (bytes.overwrite offset new) (offset + i) = new[i] := by
  induction new generalizing bytes offset i with
  | nil => exact absurd hi (Nat.not_lt_zero i)
  | cons b rest ih =>
      rw [Fits, List.length_cons] at hFits
      rw [overwrite]
      cases i with
      | zero =>
          change byteAt _ offset = b
          rw [byteAt_overwrite_of_outside (Or.inl (Nat.lt_add_one offset)),
            byteAt_setIfInBounds_self (by omega)]
      | succ i =>
          have hRest : Fits (bytes.setIfInBounds offset b) (offset + 1) rest.length := by
            rw [Fits, Array.size_setIfInBounds]
            omega
          rw [show offset + (i + 1) = offset + 1 + i by omega]
          exact ih hRest (Nat.lt_of_succ_lt_succ hi)

theorem copyForward_eq_overwrite {dest src : Nat} (hFits : bytes.Fits dest new.length)
    (hApart : dest ≤ src ∨ src + new.length ≤ dest)
    (hNew : ∀ i (hi : i < new.length), byteAt bytes (src + i) = new[i]) :
    bytes.copyForward dest src new.length = bytes.overwrite dest new := by
  apply ext_byteAt
  · rw [size_copyForward, size_overwrite]
  · intro index
    by_cases hOutside : index < dest ∨ dest + new.length ≤ index
    · rw [byteAt_copyForward_of_outside hOutside, byteAt_overwrite_of_outside hOutside]
    · obtain ⟨i, rfl⟩ := Nat.exists_eq_add_of_le (show dest ≤ index by omega)
      have hi : i < new.length := by omega
      rw [byteAt_copyForward_of_apart hFits hi hApart, byteAt_overwrite_of_inside hFits hi]
      exact hNew i hi

theorem place_run_of_fits (h : bytes.Fits offset new.length) :
    (place offset new).run bytes = .ok () (bytes.overwrite offset new) := by
  unfold place EStateM.run
  dsimp only
  rw [(rangeFault?_eq_none_iff (Nat.le_add_right _ _)).mpr h]

theorem exists_rangeFault {length : Nat} (h : ¬ bytes.Fits offset length) :
    ∃ fault, rangeFault? bytes.size offset (offset + length) = some fault := by
  apply Option.ne_none_iff_exists'.mp
  exact mt (rangeFault?_eq_none_iff (Nat.le_add_right _ _)).mp h

theorem exists_place_run_error (h : ¬ bytes.Fits offset new.length) :
    ∃ fault, (place offset new).run bytes = .error fault bytes := by
  obtain ⟨fault, hFault⟩ := exists_rangeFault h
  refine ⟨fault, ?_⟩
  unfold place EStateM.run
  dsimp only
  rw [hFault]

theorem slice_run_of_fits {length : Nat} (h : bytes.Fits offset length) :
    (slice offset length).run bytes =
      .ok (bytes.extract offset (offset + length)).toList bytes := by
  unfold slice EStateM.run
  dsimp only
  rw [(rangeFault?_eq_none_iff (Nat.le_add_right _ _)).mpr h]

theorem exists_slice_run_error {length : Nat} (h : ¬ bytes.Fits offset length) :
    ∃ fault, (slice offset length).run bytes = .error fault bytes := by
  obtain ⟨fault, hFault⟩ := exists_rangeFault h
  refine ⟨fault, ?_⟩
  unfold slice EStateM.run
  dsimp only
  rw [hFault]

theorem size_extract_of_fits {length : Nat} (h : bytes.Fits offset length) :
    (bytes.extract offset (offset + length)).size = length := by
  rw [Fits] at h
  rw [Array.size_extract]
  omega

theorem extract_overwrite (hFits : bytes.Fits offset new.length) :
    ((bytes.overwrite offset new).extract offset (offset + new.length)).toList = new := by
  have hInside : Fits (bytes.overwrite offset new) offset new.length := by
    rwa [Fits, size_overwrite]
  apply List.ext_getElem
  · rw [Array.length_toList, size_extract_of_fits hInside]
  · intro i _ hi
    rw [Array.getElem_toList, Array.getElem_extract, ← byteAt_eq_getElem]
    exact byteAt_overwrite_of_inside hFits hi

theorem overwrite_extract {length : Nat} (hFits : bytes.Fits offset length) :
    bytes.overwrite offset (bytes.extract offset (offset + length)).toList = bytes := by
  have hLength := size_extract_of_fits hFits
  rw [← Array.length_toList] at hLength
  apply ext_byteAt (size_overwrite _ _ _)
  intro index
  by_cases hOutside : index < offset ∨ offset + length ≤ index
  · exact byteAt_overwrite_of_outside (by omega)
  · obtain ⟨i, rfl⟩ := Nat.exists_eq_add_of_le (show offset ≤ index by omega)
    rw [byteAt_overwrite_of_inside (by rwa [hLength]) (by omega), Array.getElem_toList,
      Array.getElem_extract, byteAt_eq_getElem]

theorem slice_overwrite_run (hFits : bytes.Fits offset new.length) :
    (slice offset new.length).run (bytes.overwrite offset new) =
      .ok new (bytes.overwrite offset new) := by
  have hInside : Fits (bytes.overwrite offset new) offset new.length := by
    rwa [Fits, size_overwrite]
  rw [slice_run_of_fits hInside, extract_overwrite hFits]

theorem reached_onRange {α : Type} (offset length : Nat) (act : Act Bytes α) (bytes : Bytes) :
    Act.reached ((onRange offset length act).run bytes) =
      bytes.overwrite offset
        (Act.reached (act.run (bytes.extract offset (offset + length)))).toList :=
  Act.reached_within _ _ act bytes

end FirstStage.Bytes
