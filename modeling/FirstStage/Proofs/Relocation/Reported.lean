import FirstStage.Proofs.Framing.Bounds
import FirstStage.Proofs.Relocation.Payload

/-! # The copy of reported bounds

Bounds in order are low bounds, and their copy needs room up to the end of the copied payload even
when it is empty. Bounds in the wrong order ask for a length that no image of 32-bit addresses has.
-/

namespace FirstStage

theorem Scan.lowBounds_ofView_iff (view : UInt32 → UInt8) :
    LowBounds (ofView view).start (ofView view).stop ↔ .inverted ∉ (ofView view).flags := by
  rw [inverted_mem_ofView, UInt32.not_lt, UInt32.le_iff_toNat_le]
  constructor
  · exact LowBounds.ordered
  · intro hOrder
    exact ⟨hOrder, stop_le_ofView view⟩

namespace Ram

variable {ram : Ram}

theorem not_holds_of_lt (hSize : ram.bytes.size ≤ 2 ^ 32) {start stop : UInt32}
    (hLow : start.toNat ≤ Layout.lastMarkerOffset) (h : stop < start) :
    ¬ ram.Holds (Plan.ofBounds start stop).dest (Plan.ofBounds start stop).src
      (Plan.ofBounds start stop).length := by
  -- The wrapped length alone is too large: with the destination it passes every address.
  rintro ⟨-, hFits⟩
  have hLength : (Plan.ofBounds start stop).length.toNat =
      (2 ^ 32 - start.toNat + stop.toNat) % 2 ^ 32 := UInt32.toNat_sub _ _
  have hStart := start.toNat_lt
  rw [UInt32.lt_iff_toNat_lt] at h
  rw [Bytes.Fits, Plan.toNat_dest_ofBounds hLow, hLength] at hFits
  omega

theorem holds_ofView_iff (hSize : ram.bytes.size ≤ 2 ^ 32) {scan : Scan}
    (hScan : Scan.ofView (ReadableMemory.view ram) = scan) :
    ram.Holds (Plan.ofBounds scan.start scan.stop).dest (Plan.ofBounds scan.start scan.stop).src
        (Plan.ofBounds scan.start scan.stop).length ↔
      .inverted ∉ scan.flags ∧ 0x10000 + scan.stop.toNat ≤ ram.bytes.size := by
  subst hScan
  by_cases hInverted : .inverted ∈ (Scan.ofView (ReadableMemory.view ram)).flags
  · rw [Scan.inverted_mem_ofView] at hInverted
    exact iff_of_false (not_holds_of_lt hSize (Scan.start_le_ofView _) hInverted)
      (fun h => h.1 ((Scan.inverted_mem_ofView _).mpr hInverted))
  · rw [((Scan.lowBounds_ofView_iff _).mpr hInverted).roomy.holds_iff, and_iff_right hInverted]

end Ram

/-- The copy, byte by byte: a payload of low bounds moves up whole, and all other bytes stay. -/
theorem LowBounds.byteAt_moved {start stop : UInt32} (h : LowBounds start stop) {ram : Ram}
    (hRoom : 0x10000 + stop.toNat ≤ ram.bytes.size) (addr : Nat) :
    (ram.moved (Plan.ofBounds start stop)).bytes.byteAt addr =
      if 0x10000 + start.toNat ≤ addr ∧ addr < 0x10000 + stop.toNat
      then ram.bytes.byteAt (addr - 0x10000) else ram.bytes.byteAt addr := by
  have hOrder := h.ordered
  have hStop : stop.toNat ≤ 0xFFFF := h.low
  have hFits := ((h.roomy.holds_iff ram).mpr hRoom).2
  have hDest := h.roomy.toNat_dest
  have hLength := h.roomy.toNat_length
  have hSrc : (Plan.ofBounds start stop).src.toNat = start.toNat := rfl
  rw [Ram.bytes_moved]
  split
  · rename_i hInside
    obtain ⟨i, rfl⟩ := Nat.exists_eq_add_of_le hInside.1
    have hTarget : 0x10000 + start.toNat + i = (Plan.ofBounds start stop).dest.toNat + i := by omega
    have hOrigin : 0x10000 + start.toNat + i - 0x10000 =
        (Plan.ofBounds start stop).src.toNat + i := by omega
    rw [hOrigin, hTarget]
    exact Bytes.byteAt_copyForward_of_apart hFits (by omega) (by omega)
  · exact Bytes.byteAt_copyForward_of_outside (by omega)

end FirstStage
