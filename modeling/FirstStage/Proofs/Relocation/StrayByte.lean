import FirstStage.Proofs.Relocation.Payload

/-! # A stray byte after a copy

A stub of a payload lands right after the copy. When one byte is replaced before the check, the
check fails exactly if the byte belongs to what is compared of the stub, or to the copy of that, and
is not the byte that stood there.
-/

namespace FirstStage

theorem Bytes.agree_setIfInBounds_iff {bytes : Bytes} {low high length offset : Nat}
    {value : UInt8} (hInside : offset < bytes.size) (hApart : low + length ≤ high)
    (hAgree : ∀ k < length, bytes.byteAt (high + k) = bytes.byteAt (low + k)) :
    (∀ k < length, byteAt (bytes.setIfInBounds offset value) (high + k) =
        byteAt (bytes.setIfInBounds offset value) (low + k)) ↔
      ((low ≤ offset ∧ offset < low + length) ∨ (high ≤ offset ∧ offset < high + length) →
        value = bytes.byteAt offset) := by
  constructor
  · -- Opposite the replaced byte stands one that was kept, and it equals the byte from before.
    rintro hAfter (⟨hLower, hUpper⟩ | ⟨hLower, hUpper⟩)
    · obtain ⟨k, rfl⟩ := Nat.exists_eq_add_of_le hLower
      have hk : k < length := by omega
      have hSame := hAfter k hk
      rw [byteAt_setIfInBounds_ne (by omega), byteAt_setIfInBounds_self hInside] at hSame
      exact hSame.symm.trans (hAgree k hk)
    · obtain ⟨k, rfl⟩ := Nat.exists_eq_add_of_le hLower
      have hk : k < length := by omega
      have hSame := hAfter k hk
      rw [byteAt_setIfInBounds_self hInside, byteAt_setIfInBounds_ne (by omega)] at hSame
      exact hSame.trans (hAgree k hk).symm
  · intro hValue k hk
    by_cases hHit : (low ≤ offset ∧ offset < low + length) ∨
        (high ≤ offset ∧ offset < high + length)
    · rw [hValue hHit, setIfInBounds_byteAt]
      exact hAgree k hk
    · rw [byteAt_setIfInBounds_ne (by omega), byteAt_setIfInBounds_ne (by omega)]
      exact hAgree k hk

namespace Stub

/-- How many bytes are compared of a stub in a payload that ends at `stop`. -/
def probe (stub : Stub) (stop : UInt32) : Nat := min 16 (stop.toNat - stub.link.toNat)

/-- The byte at an address is compared, as one of the stub or as one of its copy. -/
def Compares (stub : Stub) (stop : UInt32) (addr : Nat) : Prop :=
  (stub.link.toNat ≤ addr ∧ addr < stub.link.toNat + stub.probe stop) ∨
    (stub.link.toNat + 0x10000 ≤ addr ∧ addr < stub.link.toNat + 0x10000 + stub.probe stop)

instance (stub : Stub) (stop : UInt32) (addr : Nat) : Decidable (stub.Compares stop addr) :=
  inferInstanceAs (Decidable (_ ∨ _))

theorem probe_le (stub : Stub) (stop : UInt32) : stub.probe stop ≤ 16 := Nat.min_le_left _ _

theorem link_add_probe_le {stub : Stub} {stop : UInt32} (h : stub.link < stop) :
    stub.link.toNat + stub.probe stop ≤ stop.toNat := by
  have hLink := UInt32.lt_iff_toNat_lt.mp h
  have hProbe : stub.probe stop ≤ stop.toNat - stub.link.toNat := Nat.min_le_right _ _
  omega

end Stub

namespace RoomyBounds

variable {start stop : UInt32} {ram : Ram} {stub : Stub}

theorem verdict_of_inside (h : RoomyBounds start stop) (hLower : start ≤ stub.link)
    (hUpper : stub.link < stop) (ram : Ram) :
    (Plan.ofBounds start stop).verdict (ReadableMemory.view ram) stub =
      if ∀ k < stub.probe stop, ram.bytes.byteAt (stub.link.toNat + 0x10000 + k) =
          ram.bytes.byteAt (stub.link.toNat + k)
      then .ok (shifted stub.link) else .error (.mismatch (shifted stub.link)) := by
  have hCovers := (h.covers_shifted_iff stub.link).mpr ⟨hLower, hUpper⟩
  have hLength : (Plan.ofBounds start stop).probeLength (shifted stub.link) = stub.probe stop :=
    h.probeLength_shifted hLower hUpper
  rw [Plan.verdict_of_covers hCovers, hLength,
    if_congr (h.agreeFrom_iff (Stub.link_add_probe_le hUpper) hUpper ram) rfl rfl]

theorem verdict_stray (h : RoomyBounds start stop)
    (hRoom : 0x10000 + stop.toNat ≤ ram.bytes.size) (hLower : start ≤ stub.link)
    (hUpper : stub.link < stop) {offset : Nat} (hInside : offset < ram.bytes.size)
    {value : UInt8} {stray : Ram}
    (hStray : stray.bytes =
      (ram.moved (Plan.ofBounds start stop)).bytes.setIfInBounds offset value) :
    (Plan.ofBounds start stop).verdict (ReadableMemory.view stray) stub =
      if stub.Compares stop offset ∧
          value ≠ (ram.moved (Plan.ofBounds start stop)).bytes.byteAt offset
      then .error (.mismatch (shifted stub.link)) else .ok (shifted stub.link) := by
  have hOffset : offset < (ram.moved (Plan.ofBounds start stop)).bytes.size := by
    rwa [Ram.bytes_moved, Bytes.size_copyForward]
  -- The stub and its copy are too far apart for one byte to spoil both alike.
  have hApart : stub.link.toNat + stub.probe stop ≤ stub.link.toNat + 0x10000 := by
    have hProbe := stub.probe_le stop
    omega
  rw [h.verdict_of_inside hLower hUpper, hStray, if_congr
    (Bytes.agree_setIfInBounds_iff hOffset hApart fun _ hk =>
      h.byteAt_moved_agree hRoom hLower (Stub.link_add_probe_le hUpper) hk) rfl rfl]
  by_cases hSpoiled : stub.Compares stop offset ∧
      value ≠ (ram.moved (Plan.ofBounds start stop)).bytes.byteAt offset
  · rw [if_pos hSpoiled, if_neg]
    exact fun hKept => hSpoiled.2 (hKept hSpoiled.1)
  · rw [if_neg hSpoiled, if_pos]
    intro hCompares
    by_contra hValue
    exact hSpoiled ⟨hCompares, hValue⟩

end RoomyBounds

namespace Plan

theorem landing_after_stray_byte {start stop : UInt32} {ram : Ram} {stub : Stub} {offset : Nat}
    (hSize : ram.bytes.size ≤ 2 ^ 32) (hRoom : stop.toNat + 0x10000 ≤ ram.bytes.size)
    (hLower : start ≤ stub.link) (hUpper : stub.link < stop) (hInside : offset < ram.bytes.size)
    (value : UInt8) :
    (shifted stub.link).toNat = stub.link.toNat + 0x10000 ∧
      ∃ moved, (ofBounds start stop).perform.run ram = .ok () moved ∧
        (∃ left, ((ofBounds start stop).landing stub).run moved =
          .ok (.ok (shifted stub.link)) left) ∧
        ∃ stray, (Ram.place offset [value]).run moved = .ok () stray ∧
          ∃ left, ((ofBounds start stop).landing stub).run stray =
            .ok (if stub.Compares stop offset ∧ value ≠ moved.bytes.byteAt offset
              then .error (.mismatch (shifted stub.link)) else .ok (shifted stub.link)) left := by
  have hStart := UInt32.le_iff_toNat_le.mp hLower
  have hLink := UInt32.lt_iff_toNat_lt.mp hUpper
  have hBounds : RoomyBounds start stop := ⟨by omega, by omega, by omega⟩
  have hRoom' : 0x10000 + stop.toNat ≤ ram.bytes.size := by omega
  have hLanded := hBounds.verdict_moved hRoom' stub
  rw [if_pos ⟨hLower, hUpper⟩] at hLanded
  have hOffset : (ram.moved (ofBounds start stop)).bytes.Fits offset [value].length := by
    rw [Bytes.Fits, Ram.bytes_moved, Bytes.size_copyForward]
    exact hInside
  exact ⟨hBounds.toNat_shifted hUpper, ram.moved (ofBounds start stop),
    Ram.perform_run_of_holds ((hBounds.holds_iff ram).mpr hRoom'), exists_landing_run hLanded,
    _, Ram.place_run_of_fits hOffset,
    exists_landing_run (hBounds.verdict_stray hRoom' hLower hUpper hInside rfl)⟩

/-- The copy of a payload of more than 64 KiB begins inside it. The byte is the second of the copied
stub. -/
theorem landing_after_stray_byte_of_long :
    ∃ moved stray left, (ofBounds 0 0x10020).perform.run (Ram.blank 0x20020) = .ok () moved ∧
      (Ram.place 0x10005 [0xCC]).run moved = .ok () stray ∧
      ((ofBounds 0 0x10020).landing ⟨4⟩).run stray = .ok (.error (.mismatch 0x10004)) left := by
  have hSize : (Ram.blank 0x20020).bytes.size = 0x20020 := Array.size_replicate
  have hWords : (Ram.blank 0x20020).bytes.size ≤ 2 ^ 32 := by omega
  have hRoom : (0x10020 : UInt32).toNat + 0x10000 ≤ (Ram.blank 0x20020).bytes.size := by
    rw [hSize]
    decide
  have hLower : (0 : UInt32) ≤ (⟨4⟩ : Stub).link := by decide
  have hUpper : (⟨4⟩ : Stub).link < 0x10020 := by decide
  have hInside : 0x10005 < (Ram.blank 0x20020).bytes.size := by omega
  obtain ⟨-, moved, hMove, -, stray, hPlace, left, hLanding⟩ :=
    landing_after_stray_byte hWords hRoom hLower hUpper hInside 0xCC
  obtain ⟨hHolds, rfl⟩ := Ram.perform_run_eq_ok_iff.mp hMove
  have hBefore : ((Ram.blank 0x20020).moved (ofBounds 0 0x10020)).bytes.byteAt 0x10005 = 0 := by
    have hIndex : (0x10005 : Nat) = (ofBounds 0 0x10020).dest.toNat + 5 := by decide
    rw [hIndex, Ram.bytes_moved,
      Bytes.byteAt_copyForward_of_above hHolds.2 (by decide) (by decide)]
    exact Bytes.byteAt_replicate_zero _ _
  rw [hBefore, if_pos (by decide)] at hLanding
  exact ⟨_, stray, left, hMove, hPlace, hLanding⟩

end Plan

end FirstStage
