import FirstStage.Proofs.Framing.Walk

/-! # The bounds that a scan reports

The end is the first end marker, the start is the last start marker below it, and the flags tell
which of the two were found. When both were found, the start marker lies wholly below the end.
-/

namespace FirstStage.Scan

/-- The start is the last start marker below `bound`, or a zero that was not seen. -/
structure StartsBelow (scan : Scan) (view : UInt32 → UInt8) (bound : Nat) : Prop where
  last : (Marker.opening.offsets view 0 bound).Nonempty →
    IsGreatest (Marker.opening.offsets view 0 bound) scan.start.toNat ∧ .startSeen ∈ scan.flags
  missing : Marker.opening.offsets view 0 bound = ∅ →
    scan.start = 0 ∧ .startSeen ∉ scan.flags

/-- The end marker at `stop` is the first and the start marker at `start` the last below it. -/
structure Framed (view : UInt32 → UInt8) (start stop : Nat) : Prop where
  first : IsLeast (Marker.closing.offsets view 0 (Layout.lastMarkerOffset + 1)) stop
  last : IsGreatest (Marker.opening.offsets view 0 stop) start

theorem Framed.eq {view : UInt32 → UInt8} {start stop start' stop' : Nat}
    (h : Framed view start stop) (h' : Framed view start' stop') :
    start = start' ∧ stop = stop' := by
  obtain rfl := h.first.unique h'.first
  exact ⟨h.last.unique h'.last, rfl⟩

structure Reports (scan : Scan) (view : UInt32 → UInt8) : Prop where
  found : (Marker.closing.offsets view 0 (Layout.lastMarkerOffset + 1)).Nonempty →
    IsLeast (Marker.closing.offsets view 0 (Layout.lastMarkerOffset + 1)) scan.stop.toNat ∧
      .endSeen ∈ scan.flags ∧ .ranOut ∉ scan.flags ∧ scan.StartsBelow view scan.stop.toNat
  missing : Marker.closing.offsets view 0 (Layout.lastMarkerOffset + 1) = ∅ →
    scan.stop = 0 ∧ .endSeen ∉ scan.flags ∧ .ranOut ∈ scan.flags ∧
      scan.StartsBelow view (Layout.lastMarkerOffset + 1)
  noStart_iff : .noStart ∈ scan.flags ↔ .endSeen ∈ scan.flags ∧ .startSeen ∉ scan.flags
  inverted_iff : .inverted ∈ scan.flags ↔ .endSeen ∉ scan.flags ∧ 0 < scan.start
  known : scan.flags.isKnown = true
  apart : .startSeen ∈ scan.flags → .endSeen ∈ scan.flags →
    scan.start.toNat + 2 ≤ scan.stop.toNat ∧ scan.stop.toNat ≤ Layout.lastMarkerOffset

theorem firstOf_ofView (view : UInt32 → UInt8) :
    FirstOf (Marker.closing.offsets view 0 (Layout.lastMarkerOffset + 1))
      (Sighting.ofView view).stop? := by
  have h := Sighting.firstOf_along view 0 none (Layout.lastMarkerOffset + 1) (by decide)
  rwa [Nat.zero_add] at h

theorem lastOf_ofView (view : UInt32 → UInt8) :
    LastOf (Marker.opening.offsets view 0
        ((Sighting.ofView view).bound (Layout.lastMarkerOffset + 1)))
      none (Sighting.ofView view).start? := by
  have h := Sighting.lastOf_along view 0 none (Layout.lastMarkerOffset + 1) (by decide)
  rwa [Nat.zero_add] at h

theorem start_ofView (view : UInt32 → UInt8) :
    (ofView view).start = (Sighting.ofView view).start?.getD 0 := rfl

theorem stop_ofView (view : UInt32 → UInt8) :
    (ofView view).stop = (Sighting.ofView view).stop?.getD 0 := rfl

theorem endSeen_ofView (view : UInt32 → UInt8) :
    .endSeen ∈ (ofView view).flags ↔ (Sighting.ofView view).stop?.isSome = true :=
  mem_flags_ofSighting

theorem ranOut_mem_ofView (view : UInt32 → UInt8) :
    .ranOut ∈ (ofView view).flags ↔ (Sighting.ofView view).stop?.isNone = true :=
  mem_flags_ofSighting

theorem startSeen_ofView (view : UInt32 → UInt8) :
    .startSeen ∈ (ofView view).flags ↔ (Sighting.ofView view).start?.isSome = true :=
  mem_flags_ofSighting

theorem startsBelow_ofView (view : UInt32 → UInt8) :
    (ofView view).StartsBelow view
      ((Sighting.ofView view).bound (Layout.lastMarkerOffset + 1)) := by
  have hSeen := startSeen_ofView view
  rcases lastOf_ofView view with ⟨hEmpty, hStart⟩ | ⟨offset, hStart, hGreatest⟩
  · rw [hStart] at hSeen
    refine ⟨fun hNonempty => ?_, fun _ => ⟨?_, by simp [hSeen]⟩⟩
    · rw [hEmpty] at hNonempty
      exact absurd hNonempty Set.not_nonempty_empty
    · rw [start_ofView, hStart, Option.getD_none]
  · rw [hStart] at hSeen
    have hValue : (ofView view).start = offset := by
      rw [start_ofView, hStart, Option.getD_some]
    refine ⟨fun _ => ⟨by rwa [hValue], hSeen.mpr rfl⟩, fun hEmpty => ?_⟩
    rw [hEmpty] at hGreatest
    exact absurd hGreatest.1 (Set.notMem_empty _)

theorem start_le_ofView (view : UInt32 → UInt8) :
    (ofView view).start.toNat ≤ Layout.lastMarkerOffset := by
  have hBound := (Sighting.le_bound_along view 0 none (Layout.lastMarkerOffset + 1) (by decide)).2
  have hStart := startsBelow_ofView view
  rcases Set.eq_empty_or_nonempty (Marker.opening.offsets view 0
    ((Sighting.ofView view).bound (Layout.lastMarkerOffset + 1))) with hNone | hSome
  · rw [(hStart.missing hNone).1]
    exact Nat.zero_le _
  · have hUpper := (hStart.last hSome).1.1.2.1
    rw [Nat.zero_add] at hBound
    exact Nat.le_of_lt_succ (hUpper.trans_le hBound)

theorem inverted_mem_ofView (view : UInt32 → UInt8) :
    .inverted ∈ (ofView view).flags ↔ (ofView view).stop < (ofView view).start :=
  mem_flags_ofSighting.trans decide_eq_true_iff

theorem inverted_ofView_iff (view : UInt32 → UInt8) :
    .inverted ∈ (ofView view).flags ↔ .endSeen ∉ (ofView view).flags ∧ 0 < (ofView view).start := by
  have hEnd := endSeen_ofView view
  have hStart := startsBelow_ofView view
  rw [inverted_mem_ofView]
  cases hStop : (Sighting.ofView view).stop? with
  | none =>
      rw [hStop] at hEnd
      rw [stop_ofView, hStop, Option.getD_none]
      simp [hEnd]
  | some stop =>
      rw [hStop] at hEnd
      rw [Sighting.bound, hStop] at hStart
      have hLe : (ofView view).start ≤ stop := by
        rcases Set.eq_empty_or_nonempty (Marker.opening.offsets view 0 stop.toNat) with h | h
        · rw [(hStart.missing h).1]
          exact UInt32.zero_le
        · exact UInt32.le_iff_toNat_le.mpr (hStart.last h).1.1.2.1.le
      rw [stop_ofView, hStop, Option.getD_some]
      constructor
      · intro hLt
        exact absurd hLt (UInt32.not_lt.mpr hLe)
      · rintro ⟨hNot, -⟩
        exact absurd (hEnd.mpr rfl) hNot

/-- The pair after a start marker is no end marker, so two bytes at least lie between them. -/
theorem apart_of_offsets {view : UInt32 → UInt8} {start stop limit : Nat}
    (hStart : start ∈ Marker.opening.offsets view 0 stop)
    (hStop : stop ∈ Marker.closing.offsets view 0 limit) : start + 2 ≤ stop := by
  obtain ⟨-, hLt, hOpening⟩ := hStart
  obtain ⟨-, -, hClosing⟩ := hStop
  have hNe : stop ≠ start + 1 := by
    rintro rfl
    exact Marker.not_closing_succ_of_opening hOpening hClosing
  omega

theorem found_ofView {view : UInt32 → UInt8} {stop : UInt32}
    (h : (Sighting.ofView view).stop? = some stop) :
    (ofView view).stop = stop ∧
      IsLeast (Marker.closing.offsets view 0 (Layout.lastMarkerOffset + 1)) stop.toNat ∧
      .endSeen ∈ (ofView view).flags ∧ .ranOut ∉ (ofView view).flags ∧
      (ofView view).StartsBelow view stop.toNat := by
  have hFirst := firstOf_ofView view
  have hEnd := endSeen_ofView view
  have hOut := ranOut_mem_ofView view
  have hStart := startsBelow_ofView view
  rw [h] at hFirst hEnd hOut
  rw [Sighting.bound, h] at hStart
  refine ⟨?_, hFirst, hEnd.mpr rfl, by simp [hOut], hStart⟩
  rw [stop_ofView, h, Option.getD_some]

theorem missing_ofView {view : UInt32 → UInt8} (h : (Sighting.ofView view).stop? = none) :
    Marker.closing.offsets view 0 (Layout.lastMarkerOffset + 1) = ∅ ∧ (ofView view).stop = 0 ∧
      .endSeen ∉ (ofView view).flags ∧ .ranOut ∈ (ofView view).flags ∧
      (ofView view).StartsBelow view (Layout.lastMarkerOffset + 1) := by
  have hFirst := firstOf_ofView view
  have hEnd := endSeen_ofView view
  have hOut := ranOut_mem_ofView view
  have hStart := startsBelow_ofView view
  rw [h] at hFirst hEnd hOut
  rw [Sighting.bound, h] at hStart
  refine ⟨hFirst, ?_, by simp [hEnd], hOut.mpr rfl, hStart⟩
  rw [stop_ofView, h, Option.getD_none]

theorem stop_le_ofView (view : UInt32 → UInt8) :
    (ofView view).stop.toNat ≤ Layout.lastMarkerOffset := by
  cases hStop : (Sighting.ofView view).stop? with
  | none =>
      rw [(missing_ofView hStop).2.1]
      exact Nat.zero_le _
  | some stop =>
      obtain ⟨hValue, hLeast, -⟩ := found_ofView hStop
      rw [hValue]
      exact Nat.le_of_lt_succ hLeast.1.2.1

theorem framed_ofView {view : UInt32 → UInt8} (hStart : .startSeen ∈ (ofView view).flags)
    (hEnd : .endSeen ∈ (ofView view).flags) :
    Framed view (ofView view).start.toNat (ofView view).stop.toNat := by
  obtain ⟨stop, hStop⟩ := Option.isSome_iff_exists.mp ((endSeen_ofView view).mp hEnd)
  obtain ⟨hValue, hLeast, -, -, hBelow⟩ := found_ofView hStop
  rw [hValue]
  rcases Set.eq_empty_or_nonempty (Marker.opening.offsets view 0 stop.toNat) with hNone | hSome
  · exact absurd hStart (hBelow.missing hNone).2
  · exact ⟨hLeast, (hBelow.last hSome).1⟩

theorem ofView_of_framed {view : UInt32 → UInt8} {start stop : Nat} (h : Framed view start stop) :
    (ofView view).start.toNat = start ∧ (ofView view).stop.toNat = stop ∧
      .startSeen ∈ (ofView view).flags ∧ .endSeen ∈ (ofView view).flags := by
  cases hStop : (Sighting.ofView view).stop? with
  | none =>
      have hFirst := h.first.1
      rw [(missing_ofView hStop).1] at hFirst
      exact absurd hFirst (Set.notMem_empty stop)
  | some found =>
      obtain ⟨hValue, hLeast, hEnd, -, hBelow⟩ := found_ofView hStop
      obtain rfl := h.first.unique hLeast
      obtain ⟨hGreatest, hStart⟩ := hBelow.last ⟨start, h.last.1⟩
      exact ⟨hGreatest.unique h.last, congrArg UInt32.toNat hValue, hStart, hEnd⟩

theorem noStart_ofView {view : UInt32 → UInt8} (hStart : .startSeen ∉ (ofView view).flags)
    (hEnd : .endSeen ∈ (ofView view).flags) :
    IsLeast (Marker.closing.offsets view 0 (Layout.lastMarkerOffset + 1))
        (ofView view).stop.toNat ∧
      Marker.opening.offsets view 0 (ofView view).stop.toNat = ∅ := by
  obtain ⟨stop, hStop⟩ := Option.isSome_iff_exists.mp ((endSeen_ofView view).mp hEnd)
  obtain ⟨hValue, hLeast, -, -, hBelow⟩ := found_ofView hStop
  rw [hValue]
  refine ⟨hLeast, ?_⟩
  rcases Set.eq_empty_or_nonempty (Marker.opening.offsets view 0 stop.toNat) with hNone | hSome
  · exact hNone
  · exact absurd (hBelow.last hSome).2 hStart

theorem noEnd_ofView {view : UInt32 → UInt8} (hEnd : .endSeen ∉ (ofView view).flags) :
    Marker.closing.offsets view 0 (Layout.lastMarkerOffset + 1) = ∅ := by
  rw [endSeen_ofView, Option.not_isSome_iff_eq_none] at hEnd
  exact (missing_ofView hEnd).1

theorem apart_ofView {view : UInt32 → UInt8} (hStart : .startSeen ∈ (ofView view).flags)
    (hEnd : .endSeen ∈ (ofView view).flags) :
    (ofView view).start.toNat + 2 ≤ (ofView view).stop.toNat ∧
      (ofView view).stop.toNat ≤ Layout.lastMarkerOffset := by
  obtain ⟨hFirst, hLast⟩ := framed_ofView hStart hEnd
  exact ⟨apart_of_offsets hLast.1 hFirst.1, Nat.le_of_lt_succ hFirst.1.2.1⟩

theorem reports_ofView (view : UInt32 → UInt8) : (ofView view).Reports view where
  found h := by
    cases hStop : (Sighting.ofView view).stop? with
    | none =>
        rw [(missing_ofView hStop).1] at h
        exact absurd h Set.not_nonempty_empty
    | some stop =>
        obtain ⟨hValue, hRest⟩ := found_ofView hStop
        rw [hValue]
        exact hRest
  missing h := by
    cases hStop : (Sighting.ofView view).stop? with
    | none => exact (missing_ofView hStop).2
    | some stop =>
        have hLeast := (found_ofView hStop).2.1
        rw [h] at hLeast
        exact absurd hLeast.1 (Set.notMem_empty _)
  noStart_iff := by
    have hBoth : .noStart ∈ (ofView view).flags ↔
        ((Sighting.ofView view).stop?.isSome && (Sighting.ofView view).start?.isNone) = true :=
      mem_flags_ofSighting
    rw [hBoth, endSeen_ofView, startSeen_ofView, Bool.and_eq_true, Option.isNone_iff_eq_none,
      Option.not_isSome_iff_eq_none]
  inverted_iff := inverted_ofView_iff view
  known := Flags.isKnown_ofPred _
  apart := apart_ofView

theorem ranOut_mem_ofView_iff (view : UInt32 → UInt8) :
    .ranOut ∈ (ofView view).flags ↔ .endSeen ∉ (ofView view).flags := by
  rw [ranOut_mem_ofView, endSeen_ofView, Option.isNone_iff_eq_none, Option.not_isSome_iff_eq_none]

/-- The third objection to bounds is never raised against those of a scan. -/
theorem payload_ofView (view : UInt32 → UInt8) :
    (ofView view).payload =
      if .endSeen ∉ (ofView view).flags then .error .noEnd
      else if .startSeen ∉ (ofView view).flags then .error .noStart
      else .ok ⟨(ofView view).start, (ofView view).stop⟩ := by
  unfold payload
  rw [if_congr (ranOut_mem_ofView_iff view) rfl rfl]
  split
  · rfl
  · rename_i hEnd
    rw [not_not] at hEnd
    have hNoStart := (reports_ofView view).noStart_iff
    rw [if_congr (hNoStart.trans (and_iff_right hEnd)) rfl rfl]
    split
    · rfl
    · rename_i hStart
      rw [not_not] at hStart
      have hApart := (apart_ofView hStart hEnd).1
      rw [if_neg]
      rw [UInt32.le_iff_toNat_le]
      omega

theorem lastTested_le (view : UInt32 → UInt8) :
    (ofView view).lastTested ≤ Layout.lastMarkerOffset := by
  unfold lastTested
  split
  · rename_i hEnd
    obtain ⟨stop, hStop⟩ := Option.isSome_iff_exists.mp ((endSeen_ofView view).mp hEnd)
    obtain ⟨hValue, hLeast, -⟩ := found_ofView hStop
    rw [hValue]
    exact Nat.le_of_lt_succ hLeast.1.2.1
  · exact le_rfl

/-- A scan of any memory answers with the report of its bytes, and the addresses it reads, from
zero to the one after the last tested offset, are all below the largest word. -/
theorem exists_perform_eq_reports {M : Type} [ReadableMemory M] (memory : M) :
    ∃ scan, Scan.perform.run memory =
        .ok scan (notedAll (pairAddresses 0 (scan.lastTested + 1)) memory) ∧
      scan.Reports (ReadableMemory.view memory) ∧
      scan.lastTested ≤ Layout.lastMarkerOffset :=
  ⟨ofView (ReadableMemory.view memory), perform_run memory, reports_ofView _, lastTested_le _⟩

end FirstStage.Scan
