import FirstStage.Proofs.Framing.Bounds
import FirstStage.Proofs.Relocation.Payload

/-! # The scan of an image after its copy

The pair at the last tested offset reaches one byte further, and that byte is the first of the copy
of a payload that starts at zero. Every other byte that a scan reads lies below the copy of its
bounds.
-/

namespace FirstStage

theorem Marker.high_eq_of_closing {low high high' : UInt8} (h : closing.Accepts low high)
    (h' : closing.Accepts low high') : high = high' := by
  rcases h with ⟨hLow, hHigh⟩ | ⟨hLow, hHigh⟩ <;> rcases h' with ⟨hLow', hHigh'⟩ | ⟨hLow', hHigh'⟩
  · exact hHigh.trans hHigh'.symm
  · exact absurd (hLow.symm.trans hLow') (by decide)
  · exact absurd (hLow.symm.trans hLow') (by decide)
  · exact hHigh.trans hHigh'.symm

namespace Scan

/-- The copy of the bounds changes a byte that the scan has read. -/
structure Spoiled (scan : Scan) (view : UInt32 → UInt8) : Prop where
  start_eq : scan.start = 0
  stop_eq : scan.stop.toNat = Layout.lastMarkerOffset
  differ : view 0 ≠ view Layout.payloadShift

theorem endSeen_of_stop_ne_zero {view : UInt32 → UInt8} (h : (ofView view).stop ≠ 0) :
    .endSeen ∈ (ofView view).flags := by
  by_contra hEnd
  exact h ((reports_ofView view).missing (noEnd_ofView hEnd)).1

theorem standsAt_stop_ofView {view : UInt32 → UInt8} (h : .endSeen ∈ (ofView view).flags) :
    Marker.closing.StandsAt view (ofView view).stop.toNat := by
  obtain ⟨stop, hStop⟩ := Option.isSome_iff_exists.mp ((endSeen_ofView view).mp h)
  obtain ⟨hValue, hLeast, -⟩ := found_ofView hStop
  rw [hValue]
  exact hLeast.1.2.2

variable {ram : Ram} {scan : Scan} {plan : Plan}

theorem toNat_dest_of_ofBounds (hScan : ofView (ReadableMemory.view ram) = scan)
    (hPlan : Plan.ofBounds scan.start scan.stop = plan) :
    plan.dest.toNat = scan.start.toNat + 0x10000 := by
  subst hScan hPlan
  exact Plan.toNat_dest_ofBounds (start_le_ofView _) _

/-- Where the copy begins at the last byte read, that byte is a copy of the first. -/
theorem view_moved_payloadShift (hPlan : Plan.ofBounds scan.start scan.stop = plan)
    (hHolds : ram.Holds plan.dest plan.src plan.length) (hStart : scan.start = 0)
    (hStop : scan.stop ≠ 0) :
    ReadableMemory.view (ram.moved plan) Layout.payloadShift = ReadableMemory.view ram 0 := by
  have hDest : plan.dest = Layout.payloadShift := by
    rw [← hPlan, Plan.ofBounds, hStart, UInt32.add_zero]
  have hSrc : plan.src = 0 := by
    rw [← hPlan, Plan.ofBounds, hStart]
  have hLength : plan.length ≠ 0 := by
    rwa [← hPlan, Plan.ofBounds, hStart, UInt32.sub_zero]
  have hFirst := Ram.view_moved_dest hHolds hLength
  rwa [hDest, hSrc] at hFirst

theorem view_moved_eq_of_not_spoiled (hScan : ofView (ReadableMemory.view ram) = scan)
    (hPlan : Plan.ofBounds scan.start scan.stop = plan)
    (hHolds : ram.Holds plan.dest plan.src plan.length)
    (h : ¬ scan.Spoiled (ReadableMemory.view ram)) (hStart : scan.start = 0)
    (hLast : Layout.lastMarkerOffset ≤ scan.lastTested) :
    ReadableMemory.view (ram.moved plan) Layout.payloadShift =
      ReadableMemory.view ram Layout.payloadShift := by
  by_cases hStop : scan.stop = 0
  · have hLength : plan.length = 0 := by
      rw [← hPlan, Plan.ofBounds, hStart, hStop]
      rfl
    rw [Ram.moved_of_length_eq_zero hLength]
  · have hEnd : .endSeen ∈ scan.flags := by
      subst hScan
      exact endSeen_of_stop_ne_zero hStop
    have hBound : scan.lastTested ≤ Layout.lastMarkerOffset := hScan ▸ lastTested_le _
    rw [lastTested, if_pos hEnd] at hLast hBound
    by_contra hDiffer
    rw [view_moved_payloadShift hPlan hHolds hStart hStop] at hDiffer
    exact h ⟨hStart, Nat.le_antisymm hBound hLast, hDiffer⟩

theorem ofView_moved_of_not_spoiled (hScan : ofView (ReadableMemory.view ram) = scan)
    (hPlan : Plan.ofBounds scan.start scan.stop = plan)
    (hHolds : ram.Holds plan.dest plan.src plan.length)
    (h : ¬ scan.Spoiled (ReadableMemory.view ram)) :
    ofView (ReadableMemory.view (ram.moved plan)) = scan := by
  have hDest := toNat_dest_of_ofBounds hScan hPlan
  have hLast : scan.lastTested ≤ 0xFFFF := hScan ▸ lastTested_le (ReadableMemory.view ram)
  rw [← hScan]
  apply ofView_congr
  rw [hScan]
  intro k hk
  -- The copy begins above every byte read except the last, and reaches that one from zero alone.
  rcases Nat.lt_or_ge k (scan.start.toNat + 0x10000) with hBelow | hReached
  · symm
    apply Ram.view_moved_of_lt
    rw [UInt32.lt_iff_toNat_lt, hDest, UInt32.toNat_ofNat']
    omega
  · obtain rfl : k = 0x10000 := by omega
    have hStart : scan.start.toNat = 0 := by omega
    symm
    apply view_moved_eq_of_not_spoiled hScan hPlan hHolds h (UInt32.toNat_inj.mp hStart)
    exact Nat.le_of_succ_le_succ hk

theorem ofView_moved_ne_of_spoiled (hScan : ofView (ReadableMemory.view ram) = scan)
    (hPlan : Plan.ofBounds scan.start scan.stop = plan)
    (hHolds : ram.Holds plan.dest plan.src plan.length)
    (h : scan.Spoiled (ReadableMemory.view ram)) :
    ofView (ReadableMemory.view (ram.moved plan)) ≠ scan := by
  intro hAgain
  obtain ⟨hStart, hLast, hDiffer⟩ := h
  have hDest := toNat_dest_of_ofBounds hScan hPlan
  have hStop : scan.stop ≠ 0 := by
    intro hZero
    rw [hZero] at hLast
    exact absurd hLast (by decide)
  have hBefore : Marker.closing.StandsAt (ReadableMemory.view ram) 0xFFFF := by
    have hEnd := standsAt_stop_ofView (endSeen_of_stop_ne_zero (hScan.symm ▸ hStop))
    rwa [hScan, hLast] at hEnd
  have hAfter : Marker.closing.StandsAt (ReadableMemory.view (ram.moved plan)) 0xFFFF := by
    have hEnd := standsAt_stop_ofView (endSeen_of_stop_ne_zero (hAgain.symm ▸ hStop))
    rwa [hAgain, hLast] at hEnd
  have hLow : ReadableMemory.view (ram.moved plan) (.ofNat 0xFFFF) =
      ReadableMemory.view ram (.ofNat 0xFFFF) := by
    apply Ram.view_moved_of_lt
    rw [UInt32.lt_iff_toNat_lt, hDest, hStart]
    decide
  rw [Marker.StandsAt, hLow] at hAfter
  have hHigh := Marker.high_eq_of_closing hAfter hBefore
  exact hDiffer ((view_moved_payloadShift hPlan hHolds hStart hStop).symm.trans hHigh)

end Scan

end FirstStage
