import FirstStage.Proofs.Framing.Bounds
import Mathlib.Data.List.Chain

/-! # Markers in joined bytes

A list is free of a marker when no two neighbours in it are the marker, in either order. Joining
lists makes one more pair at each seam. Beside a marker, that pair is the marker again exactly when
the byte before or after it repeats the far byte of the marker.
-/

namespace FirstStage

namespace Marker

/-- No two neighbours are the marker, in either order. -/
def AbsentFrom (marker : Marker) (bytes : List UInt8) : Prop :=
  bytes.IsChain fun low high => ¬ marker.Accepts low high

instance (marker : Marker) (bytes : List UInt8) : Decidable (marker.AbsentFrom bytes) :=
  inferInstanceAs (Decidable (List.IsChain _ _))

theorem mem_bytes_of_accepts {marker : Marker} {low high : UInt8} (h : marker.Accepts low high) :
    low ∈ marker.bytes ∧ high ∈ marker.bytes := by
  rcases h with ⟨rfl, rfl⟩ | ⟨rfl, rfl⟩ <;> simp [bytes]

theorem notMem_closing_of_mem_opening {b : UInt8} (h : b ∈ opening.bytes) :
    b ∉ closing.bytes := by
  rcases List.mem_pair.mp h with rfl | rfl <;> decide

theorem notMem_opening_of_mem_closing {b : UInt8} (h : b ∈ closing.bytes) :
    b ∉ opening.bytes :=
  fun hOpening => notMem_closing_of_mem_opening hOpening h

theorem accepts_next_iff {marker : Marker} (hTwo : marker.first ≠ marker.second)
    {low high next : UInt8} (h : marker.Accepts low high) :
    marker.Accepts high next ↔ next = low := by
  rcases h with ⟨rfl, rfl⟩ | ⟨rfl, rfl⟩
  · simp [Accepts, hTwo.symm]
  · simp [Accepts, hTwo]

theorem accepts_previous_iff {marker : Marker} (hTwo : marker.first ≠ marker.second)
    {low high previous : UInt8} (h : marker.Accepts low high) :
    marker.Accepts previous low ↔ previous = high := by
  rcases h with ⟨rfl, rfl⟩ | ⟨rfl, rfl⟩
  · simp [Accepts, hTwo]
  · simp [Accepts, hTwo.symm]

section Seams

variable {marker : Marker} {b low high : UInt8} {bytes : List UInt8}

theorem absentFrom_cons_of_notMem (h : b ∉ marker.bytes) :
    marker.AbsentFrom (b :: bytes) ↔ marker.AbsentFrom bytes := by
  rw [AbsentFrom, List.isChain_cons, AbsentFrom, and_iff_right]
  intro next _ hAccepts
  exact h (mem_bytes_of_accepts hAccepts).1

theorem absentFrom_concat_of_notMem (h : b ∉ marker.bytes) :
    marker.AbsentFrom (bytes ++ [b]) ↔ marker.AbsentFrom bytes := by
  rw [AbsentFrom, List.isChain_append, AbsentFrom, and_iff_left]
  refine ⟨List.isChain_singleton b, ?_⟩
  rintro previous - next hNext hAccepts
  obtain rfl : b = next := by simpa using hNext
  exact h (mem_bytes_of_accepts hAccepts).2

theorem absentFrom_high_cons_iff (hTwo : marker.first ≠ marker.second)
    (h : marker.Accepts low high) :
    marker.AbsentFrom (high :: bytes) ↔ marker.AbsentFrom bytes ∧ bytes.head? ≠ some low := by
  rw [AbsentFrom, List.isChain_cons, AbsentFrom, and_comm, and_congr_right_iff]
  intro _
  cases bytes with
  | nil => simp
  | cons next rest => simp [accepts_next_iff hTwo h]

theorem absentFrom_concat_low_iff (hTwo : marker.first ≠ marker.second)
    (h : marker.Accepts low high) :
    marker.AbsentFrom (bytes ++ [low]) ↔
      marker.AbsentFrom bytes ∧ bytes.getLast? ≠ some high := by
  rw [AbsentFrom, List.isChain_append, AbsentFrom, and_congr_right_iff]
  intro _
  cases bytes.getLast? with
  | none => simp
  | some previous => simp [accepts_previous_iff hTwo h]

end Seams

theorem closing_absentFrom_iff {openLow openHigh closeLow closeHigh : UInt8}
    (hOpens : opening.Accepts openLow openHigh) (hCloses : closing.Accepts closeLow closeHigh)
    (before body : List UInt8) :
    closing.AbsentFrom (before ++ openLow :: openHigh :: (body ++ [closeLow])) ↔
      closing.AbsentFrom before ∧ closing.AbsentFrom body ∧ body.getLast? ≠ some closeHigh := by
  obtain ⟨hLow, hHigh⟩ := mem_bytes_of_accepts hOpens
  have hLow' := notMem_closing_of_mem_opening hLow
  have hHigh' := notMem_closing_of_mem_opening hHigh
  have hPair : ¬ closing.Accepts openLow openHigh := fun h => hLow' (mem_bytes_of_accepts h).1
  have hSplit : closing.AbsentFrom (before ++ openLow :: openHigh :: (body ++ [closeLow])) ↔
      closing.AbsentFrom (before ++ [openLow]) ∧ ¬ closing.Accepts openLow openHigh ∧
        closing.AbsentFrom (openHigh :: (body ++ [closeLow])) := List.isChain_append_cons_cons
  rw [hSplit, and_iff_right hPair, absentFrom_concat_of_notMem hLow',
    absentFrom_cons_of_notMem hHigh', absentFrom_concat_low_iff (by decide) hCloses]

theorem opening_absentFrom_iff {openLow openHigh closeLow closeHigh : UInt8}
    (hOpens : opening.Accepts openLow openHigh) (hCloses : closing.Accepts closeLow closeHigh)
    (body : List UInt8) :
    opening.AbsentFrom (openHigh :: (body ++ [closeLow])) ↔
      opening.AbsentFrom body ∧ body.head? ≠ some openLow := by
  have hLow := notMem_opening_of_mem_closing (mem_bytes_of_accepts hCloses).1
  rw [← List.cons_append, absentFrom_concat_of_notMem hLow,
    absentFrom_high_cons_iff (by decide) hOpens]

end Marker

/-- The view holds the bytes from address `i` on. -/
def Spells (view : UInt32 → UInt8) : (i : Nat) → List UInt8 → Prop
  | _, [] => True
  | i, b :: rest => view (.ofNat i) = b ∧ Spells view (i + 1) rest

section Views

variable {view : UInt32 → UInt8}

theorem spells_append_iff {i : Nat} {first second : List UInt8} :
    Spells view i (first ++ second) ↔
      Spells view i first ∧ Spells view (i + first.length) second := by
  induction first generalizing i with
  | nil => simp [Spells]
  | cons b rest ih =>
      rw [List.cons_append, Spells, ih, Spells, List.length_cons, and_assoc,
        show i + (rest.length + 1) = i + 1 + rest.length by omega]

theorem Spells.standsAt_iff {i : Nat} {low high : UInt8} {rest : List UInt8}
    (h : Spells view i (low :: high :: rest)) (marker : Marker) :
    marker.StandsAt view i ↔ marker.Accepts low high := by
  obtain ⟨hLow, hHigh, -⟩ := h
  rw [Marker.StandsAt, hLow, hHigh]

theorem Spells.absentFrom_iff {i : Nat} {bytes : List UInt8} (h : Spells view i bytes)
    (marker : Marker) :
    marker.AbsentFrom bytes ↔ marker.offsets view i (i + (bytes.length - 1)) = ∅ := by
  -- No pair begins at the last byte of the list, so a single byte has no offset to test.
  induction bytes generalizing i with
  | nil => exact iff_of_true List.isChain_nil (Marker.offsets_self marker view i)
  | cons low rest ih =>
      cases rest with
      | nil =>
          exact iff_of_true (List.isChain_singleton low) (Marker.offsets_self marker view i)
      | cons high rest =>
          have hHere := h.standsAt_iff marker
          rw [Marker.AbsentFrom, List.isChain_cons_cons, ← hHere]
          by_cases hStands : marker.StandsAt view i
          · have hMem : i ∈ marker.offsets view i (i + ((low :: high :: rest).length - 1)) :=
              ⟨le_rfl, by simp, hStands⟩
            exact iff_of_false (fun hAbsent => hAbsent.1 hStands)
              (Set.nonempty_iff_ne_empty.mp ⟨i, hMem⟩)
          · have hBound : i + ((low :: high :: rest).length - 1) =
                i + 1 + ((high :: rest).length - 1) := by
              simp only [List.length_cons]
              omega
            rw [and_iff_right hStands, Marker.offsets_eq_succ hStands, hBound]
            exact ih h.2

theorem Marker.isLeast_offsets_iff {marker : Marker} {bound stop : Nat}
    (h : marker.StandsAt view stop) :
    IsLeast (marker.offsets view 0 bound) stop ↔
      stop < bound ∧ marker.offsets view 0 stop = ∅ := by
  constructor
  · rintro ⟨⟨-, hUpper, -⟩, hLeast⟩
    refine ⟨hUpper, Set.eq_empty_of_forall_notMem ?_⟩
    rintro k ⟨-, hk, hStands⟩
    exact absurd (hLeast ⟨Nat.zero_le k, hk.trans hUpper, hStands⟩) (Nat.not_le.mpr hk)
  · rintro ⟨hUpper, hNone⟩
    refine ⟨⟨Nat.zero_le stop, hUpper, h⟩, ?_⟩
    rintro k ⟨-, -, hStands⟩
    by_contra hk
    have hMem : k ∈ marker.offsets view 0 stop := ⟨Nat.zero_le k, Nat.lt_of_not_le hk, hStands⟩
    rw [hNone] at hMem
    exact Set.notMem_empty k hMem

theorem Marker.isGreatest_offsets_iff {marker : Marker} {start bound : Nat}
    (h : marker.StandsAt view start) (hBound : start < bound) :
    IsGreatest (marker.offsets view 0 bound) start ↔
      marker.offsets view (start + 1) bound = ∅ := by
  constructor
  · rintro ⟨-, hGreatest⟩
    apply Set.eq_empty_of_forall_notMem
    rintro k ⟨hLower, hUpper, hStands⟩
    exact absurd (hGreatest ⟨Nat.zero_le k, hUpper, hStands⟩) (Nat.not_le.mpr hLower)
  · intro hNone
    refine ⟨⟨Nat.zero_le start, hBound, h⟩, ?_⟩
    rintro k ⟨-, hUpper, hStands⟩
    by_contra hk
    have hMem : k ∈ marker.offsets view (start + 1) bound :=
      ⟨Nat.lt_of_not_le hk, hUpper, hStands⟩
    rw [hNone] at hMem
    exact Set.notMem_empty k hMem

end Views

end FirstStage
