import FirstStage.Framing.Scan

/-! # The reach of a scan

Whatever a memory answers, and even if it answers the same read differently the next time, a scan
that comes back has bounds at offsets where a marker may begin. A bound that was not found is zero.
-/

namespace FirstStage

variable {M : Type} [ImageMemory M] {memory left : M}

namespace Sighting

/-- Both bounds lie at offsets where a marker may begin. -/
structure Low (seen : Sighting) : Prop where
  start_le : seen.start.toNat ≤ Layout.lastMarkerOffset
  stop_le : seen.stop.toNat ≤ Layout.lastMarkerOffset

theorem low_of_searchFrom {i : UInt32} {start? : Option UInt32} {count : Nat} {seen : Sighting}
    (hCount : i.toNat + count ≤ Layout.lastMarkerOffset + 1)
    (hStart : (start?.getD 0).toNat ≤ Layout.lastMarkerOffset)
    (h : (searchFrom i start? count).run memory = .ok seen left) : seen.Low := by
  induction count generalizing i start? memory with
  | zero =>
      cases h
      exact ⟨hStart, Nat.zero_le _⟩
  | succ count ih =>
      have hBound : Layout.lastMarkerOffset = 0xFFFF := rfl
      rw [searchFrom] at h
      cases hLow : (ImageMemory.read i).run memory with
      | error fault memory' =>
          rw [Act.bind_error hLow] at h
          cases h
      | ok low memory' =>
          rw [Act.bind_ok hLow] at h
          cases hHigh : (ImageMemory.read (i + 1)).run memory' with
          | error fault memory'' =>
              rw [Act.bind_error hHigh] at h
              cases h
          | ok high memory'' =>
              rw [Act.bind_ok hHigh] at h
              have hLatest : ((if Marker.opening.Accepts low high then some i
                  else start?).getD 0).toNat ≤ Layout.lastMarkerOffset := by
                split
                · rw [Option.getD_some]
                  omega
                · exact hStart
              by_cases hClosing : Marker.closing.Accepts low high
              · rw [if_pos hClosing] at h
                cases h
                refine ⟨hLatest, ?_⟩
                change i.toNat ≤ _
                omega
              · rw [if_neg hClosing] at h
                refine ih ?_ hLatest h
                rw [UInt32.toNat_add, UInt32.toNat_one]
                omega

end Sighting

namespace Scan

theorem exists_sighting_of_perform {scan : Scan} (h : perform.run memory = .ok scan left) :
    ∃ seen, scan = ofSighting seen ∧ seen.Low := by
  cases hSearch : Sighting.search.run memory with
  | error fault memory' =>
      have hError : perform.run memory = .error fault memory' := Act.bind_error hSearch
      rw [hError] at h
      cases h
  | ok seen memory' =>
      have hFound : perform.run memory = .ok (ofSighting seen) memory' := Act.bind_ok hSearch
      rw [hFound] at h
      cases h
      exact ⟨seen, rfl, Sighting.low_of_searchFrom (by decide) (by decide) hSearch⟩

theorem start_le_of_perform {scan : Scan} (h : perform.run memory = .ok scan left) :
    scan.start.toNat ≤ Layout.lastMarkerOffset := by
  obtain ⟨seen, rfl, hLow⟩ := exists_sighting_of_perform h
  exact hLow.start_le

theorem stop_le_of_perform {scan : Scan} (h : perform.run memory = .ok scan left) :
    scan.stop.toNat ≤ Layout.lastMarkerOffset := by
  obtain ⟨seen, rfl, hLow⟩ := exists_sighting_of_perform h
  exact hLow.stop_le

theorem stop_eq_zero_of_ranOut {scan : Scan} (h : perform.run memory = .ok scan left)
    (hRanOut : scan.ranOut = true) : scan.stop = 0 := by
  obtain ⟨seen, rfl, -⟩ := exists_sighting_of_perform h
  rw [ranOut_ofSighting, Option.isNone_iff_eq_none] at hRanOut
  rw [ofSighting, Sighting.stop, hRanOut]
  rfl

end Scan

end FirstStage
