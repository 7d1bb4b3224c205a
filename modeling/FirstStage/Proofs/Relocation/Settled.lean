import FirstStage.Proofs.Relocation.Payload

/-! # Copies made twice

A copy upward leaves source and destination in agreement, even where they overlap, and a copy to a
place apart leaves its source alone: made again, either finds nothing to change. A copy down onto
its own source shifts the bytes there, so that made again it shifts them further.
-/

namespace FirstStage

namespace Bytes

variable {bytes : Bytes} {dest src length : Nat}

theorem copyForward_copyForward_of_below (hFits : bytes.Fits dest length)
    (hBelow : dest + length ≤ src) :
    (bytes.copyForward dest src length).copyForward dest src length =
      bytes.copyForward dest src length := by
  apply copyForward_eq_self
  intro i hi
  rw [byteAt_copyForward_of_apart hFits hi (Or.inl (by omega)),
    byteAt_copyForward_of_outside (Or.inr (by omega))]

/-- Where a copy downward has written to its own source, the second one reads one distance
higher. -/
theorem byteAt_copyForward_copyForward_of_down {i : Nat} (hFits : bytes.Fits dest length)
    (hDown : dest ≤ src) (hMeet : src + i < dest + length) :
    byteAt ((bytes.copyForward dest src length).copyForward dest src length) (dest + i) =
      byteAt bytes (src + (src - dest + i)) := by
  have hOnce : Fits (bytes.copyForward dest src length) dest length := by
    rwa [Fits, size_copyForward]
  have hPlace : src + i = dest + (src - dest + i) := by omega
  rw [byteAt_copyForward_of_apart hOnce (by omega) (Or.inl hDown), hPlace]
  exact byteAt_copyForward_of_apart hFits (by omega) (Or.inl hDown)

/-- A source of zeros up to the end of the array, with a one at its head. -/
def headMarked (src length : Nat) : Bytes :=
  (Array.replicate (src + length) 0).setIfInBounds src 1

theorem size_headMarked (src length : Nat) : (headMarked src length).size = src + length := by
  simp [headMarked]

theorem copyForward_headMarked_ne (hDown : dest < src) (hMeet : src < dest + length) :
    ((headMarked src length).copyForward dest src length).copyForward dest src length ≠
      (headMarked src length).copyForward dest src length := by
  have hFits : Fits (headMarked src length) dest length := by
    rw [Fits, size_headMarked]
    omega
  have hHead : byteAt (headMarked src length) (src + 0) = 1 :=
    byteAt_setIfInBounds_self (by simp; omega) 1
  have hBehind : byteAt (headMarked src length) (src + (src - dest + 0)) = 0 := by
    rw [headMarked, byteAt_setIfInBounds_ne (by omega), byteAt_replicate_zero]
  intro hSettled
  have hTwice := byteAt_copyForward_copyForward_of_down (i := 0) hFits hDown.le hMeet
  rw [hSettled, byteAt_copyForward_of_apart hFits (by omega) (Or.inl hDown.le), hHead,
    hBehind] at hTwice
  exact absurd hTwice (by decide)

end Bytes

namespace Ram

theorem bytes_moved_moved {ram : Ram} {plan : Plan}
    (hHolds : ram.Holds plan.dest plan.src plan.length)
    (hUp : plan.src.toNat ≤ plan.dest.toNat) :
    ((ram.moved plan).moved plan).bytes = (ram.moved plan).bytes :=
  Bytes.copyForward_copyForward hHolds.2 hUp

theorem holds_moved_iff (ram : Ram) (plan : Plan) (dest src length : UInt32) :
    (ram.moved plan).Holds dest src length ↔ ram.Holds dest src length := by
  rw [Holds, Holds, Bytes.Fits, Bytes.Fits, Bytes.Fits, Bytes.Fits, bytes_moved,
    Bytes.size_copyForward]

theorem perform_moved_run_iff {ram : Ram} {plan : Plan}
    (hHolds : ram.Holds plan.dest plan.src plan.length) :
    (plan.perform : Act Ram Unit).run (ram.moved plan) = .ok () (ram.moved plan) ↔
      ((ram.moved plan).moved plan).bytes = (ram.moved plan).bytes := by
  rw [perform_run_of_holds ((holds_moved_iff ram plan _ _ _).mpr hHolds)]
  constructor
  · intro hRun
    injection hRun with _ hMoved
    exact congrArg bytes hMoved
  · intro hBytes
    rw [moved, ← bytes_moved, hBytes]

end Ram

namespace Plan

variable {plan : Plan}

/-- On every image that holds it the copy is made, and made again it changes nothing. -/
def Settles (plan : Plan) : Prop :=
  ∀ ram : Ram, ram.Holds plan.dest plan.src plan.length →
    ∃ after, plan.perform.run ram = .ok () after ∧ plan.perform.run after = .ok () after

theorem settles_iff_bytes :
    plan.Settles ↔ ∀ ram : Ram, ram.Holds plan.dest plan.src plan.length →
      ((ram.moved plan).moved plan).bytes = (ram.moved plan).bytes := by
  apply forall₂_congr
  intro ram hHolds
  rw [Ram.perform_run_of_holds hHolds, ← Ram.perform_moved_run_iff hHolds]
  constructor
  · rintro ⟨after, hOnce, hTwice⟩
    cases hOnce
    exact hTwice
  · intro hTwice
    exact ⟨_, rfl, hTwice⟩

theorem overlaps_iff_of_down (hDown : plan.dest.toNat < plan.src.toNat) :
    plan.Overlaps ↔ plan.src.toNat < plan.dest.toNat + plan.length.toNat := by
  rw [overlaps_iff_exists]
  constructor
  · rintro ⟨addr, hSrc, hDest⟩
    omega
  · intro hMeet
    exact ⟨plan.src.toNat, by omega, by omega⟩

theorem settles_iff : plan.Settles ↔ plan.src ≤ plan.dest ∨ ¬ plan.Overlaps := by
  rw [settles_iff_bytes, UInt32.le_iff_toNat_le]
  by_cases hUp : plan.src.toNat ≤ plan.dest.toNat
  · exact iff_of_true (fun ram hHolds => Ram.bytes_moved_moved hHolds hUp) (Or.inl hUp)
  · have hDown := Nat.lt_of_not_le hUp
    rw [or_iff_right hUp, overlaps_iff_of_down hDown]
    constructor
    · intro hSettles hMeet
      -- The one image that is wanted has a mark at the head of the source.
      apply Bytes.copyForward_headMarked_ne hDown hMeet
      apply hSettles ⟨Bytes.headMarked plan.src.toNat plan.length.toNat, 0⟩
      rw [Ram.Holds, Bytes.Fits, Bytes.Fits, Bytes.size_headMarked]
      omega
    · intro hApart ram hHolds
      exact Bytes.copyForward_copyForward_of_below hHolds.2 (Nat.le_of_not_lt hApart)

theorem settles_ofBounds_iff (start stop : UInt32) :
    (ofBounds start stop).Settles ↔
      start.toNat < 2 ^ 32 - 0x10000 ∨ (stop - start).toNat ≤ 2 ^ 32 - 0x10000 := by
  have hSrc : (ofBounds start stop).src.toNat = start.toNat := rfl
  have hLength : (ofBounds start stop).length.toNat = (stop - start).toNat := rfl
  have hDest := toNat_dest_ofBounds_mod start stop
  have hStart := start.toNat_lt
  rw [settles_iff, UInt32.le_iff_toNat_le]
  by_cases hLow : start.toNat < 2 ^ 32 - 0x10000
  · exact iff_of_true (Or.inl (by omega)) (Or.inl hLow)
  · -- The destination wraps to below the start, and only a length that wraps as well reaches back.
    rw [or_iff_right (by omega), or_iff_right hLow, overlaps_iff_of_down (by omega)]
    omega

/-- A copy is idempotent on every image that holds it unless it goes down onto its own source. The
copy of bounds never does so where its destination does not wrap. -/
theorem settles_exact (plan : Plan) (start stop : UInt32) :
    (plan.Settles ↔ plan.src ≤ plan.dest ∨ ¬ plan.Overlaps) ∧
      ((ofBounds start stop).Settles ↔
        start.toNat < 2 ^ 32 - 0x10000 ∨ (stop - start).toNat ≤ 2 ^ 32 - 0x10000) :=
  ⟨settles_iff, settles_ofBounds_iff start stop⟩

/-- Bounds in the wrong order settle, and fail to where their destination wraps onto the source. -/
example : (ofBounds 500 0).Settles ∧ ¬ (ofBounds 0xFFFFFFFF 0xFFFFFFFE).Settles := by
  rw [settles_ofBounds_iff, settles_ofBounds_iff]
  decide

end Plan

end FirstStage
