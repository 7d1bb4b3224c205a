import FirstStage.Output.Transcript
import FirstStage.Proofs.Image.Framing
import FirstStage.Proofs.Run.Inert

/-! # What the strict mode decides

On an image that has room for the copy a strict run always comes to an end. It refuses an image
without an end marker, one whose first end marker has no start marker before it, and a stub outside
the payload. Every other run makes the jumps, and no other refusal is ever given.
-/

namespace FirstStage

open Scan (Framed)

/-- The refusals of the strict mode, by what stands in the image and where the stub lies. -/
structure StrictDecision (view : UInt32 → UInt8) (stub : Stub) (refusal? : Option Refusal) :
    Prop where
  noEnd_iff : refusal? = some (.scan .noEnd) ↔
    Marker.closing.offsets view 0 (Layout.lastMarkerOffset + 1) = ∅
  noStart_iff : refusal? = some (.scan .noStart) ↔
    ∃ stop, IsLeast (Marker.closing.offsets view 0 (Layout.lastMarkerOffset + 1)) stop ∧
      Marker.opening.offsets view 0 stop = ∅
  outside_iff : ∀ addr, refusal? = some (.landing (.outside addr)) ↔
    (∃ start stop, Framed view start stop ∧
      ¬ (start ≤ stub.link.toNat ∧ stub.link.toNat < stop)) ∧
      addr.toNat = (stub.link.toNat + 0x10000) % 2 ^ 32
  none_iff : refusal? = none ↔
    ∃ start stop, Framed view start stop ∧ start ≤ stub.link.toNat ∧ stub.link.toNat < stop
  noBytes_ne : ∀ start stop, refusal? ≠ some (.scan (.noBytes start stop))
  plan_ne : ∀ error, refusal? ≠ some (.plan error)
  mismatch_ne : ∀ addr, refusal? ≠ some (.landing (.mismatch addr))

namespace StrictDecision

variable {view : UInt32 → UInt8} {stub : Stub} {start stop : Nat}

theorem of_noEnd (h : Marker.closing.offsets view 0 (Layout.lastMarkerOffset + 1) = ∅) :
    StrictDecision view stub (some (.scan .noEnd)) := by
  have hNotLeast : ∀ stop, ¬ IsLeast
      (Marker.closing.offsets view 0 (Layout.lastMarkerOffset + 1)) stop := by
    intro stop hLeast
    rw [h] at hLeast
    exact Set.notMem_empty stop hLeast.1
  have hNotFramed : ∀ start stop, ¬ Framed view start stop :=
    fun _ stop hFramed => hNotLeast stop hFramed.first
  refine ⟨by simp [h], ?_, by simp [hNotFramed], by simp [hNotFramed], by simp, by simp, by simp⟩
  simp [hNotLeast]

theorem of_noStart
    (hStop : IsLeast (Marker.closing.offsets view 0 (Layout.lastMarkerOffset + 1)) stop)
    (hNone : Marker.opening.offsets view 0 stop = ∅) :
    StrictDecision view stub (some (.scan .noStart)) := by
  have hEnd := hStop.nonempty.ne_empty
  have hNotFramed : ∀ start stop, ¬ Framed view start stop := by
    intro start stop' hFramed
    obtain rfl := hStop.unique hFramed.first
    have hMem := hFramed.last.1
    rw [hNone] at hMem
    exact Set.notMem_empty start hMem
  have hFound : ∃ stop, IsLeast
      (Marker.closing.offsets view 0 (Layout.lastMarkerOffset + 1)) stop ∧
        Marker.opening.offsets view 0 stop = ∅ := ⟨stop, hStop, hNone⟩
  constructor <;> simp [hEnd, hNotFramed, hFound]

theorem not_noStart_of_framed (h : Framed view start stop) :
    ¬ ∃ stop, IsLeast (Marker.closing.offsets view 0 (Layout.lastMarkerOffset + 1)) stop ∧
      Marker.opening.offsets view 0 stop = ∅ := by
  rintro ⟨stop', hStop, hNone⟩
  obtain rfl := h.first.unique hStop
  have hMem := h.last.1
  rw [hNone] at hMem
  exact Set.notMem_empty start hMem

theorem exists_framed_iff (h : Framed view start stop) (p : Nat → Nat → Prop) :
    (∃ start stop, Framed view start stop ∧ p start stop) ↔ p start stop := by
  constructor
  · rintro ⟨start', stop', hFramed, hp⟩
    obtain ⟨rfl, rfl⟩ := h.eq hFramed
    exact hp
  · intro hp
    exact ⟨start, stop, h, hp⟩

theorem of_outside (h : Framed view start stop)
    (hOutside : ¬ (start ≤ stub.link.toNat ∧ stub.link.toNat < stop)) :
    StrictDecision view stub (some (.landing (.outside (shifted stub.link)))) := by
  have hEnd := h.first.nonempty.ne_empty
  have hStart := not_noStart_of_framed h
  refine ⟨by simp [hEnd], by simp [hStart], fun addr => ?_, ?_, by simp, by simp, by simp⟩
  · rw [exists_framed_iff h, ← toNat_shifted, UInt32.toNat_inj]
    simp [hOutside, eq_comm]
  · rw [exists_framed_iff h]
    simp [hOutside]

theorem of_inside (h : Framed view start stop)
    (hInside : start ≤ stub.link.toNat ∧ stub.link.toNat < stop) :
    StrictDecision view stub none := by
  have hEnd := h.first.nonempty.ne_empty
  have hStart := not_noStart_of_framed h
  refine ⟨by simp [hEnd], by simp [hStart], fun addr => ?_, ?_, by simp, by simp, by simp⟩
  · rw [exists_framed_iff h]
    simp [hInside]
  · rw [exists_framed_iff h]
    simp [hInside]

end StrictDecision

namespace Rig

variable {D : Type} [Display D]

theorem scan_eq_ofView {M : Type} [ReadableMemory M] {memory after : M} {scan : Scan}
    (h : Scan.perform.run memory = .ok scan after) :
    scan = Scan.ofView (ReadableMemory.view memory) := by
  rw [Scan.perform_run] at h
  cases h
  rfl

theorem exists_strict_run_of_framed (ram : Ram) (display : D) (stub : Stub) (argument : UInt32)
    (hStart : .startSeen ∈ (Scan.ofView (ReadableMemory.view ram)).flags)
    (hEnd : .endSeen ∈ (Scan.ofView (ReadableMemory.view ram)).flags)
    (hRoom : 0x10000 + (Scan.ofView (ReadableMemory.view ram)).stop.toNat ≤ ram.bytes.size) :
    ∃ report rig,
      (run .inert .strict stub argument).run (fresh ram display) = .ok report rig ∧
        report.scan = Scan.ofView (ReadableMemory.view ram) ∧
        report.refusal? =
          if (Scan.ofView (ReadableMemory.view ram)).start ≤ stub.link ∧
            stub.link < (Scan.ofView (ReadableMemory.view ram)).stop then none
          else some (.landing (.outside (shifted stub.link))) := by
  obtain ⟨rig, hRun, -⟩ :=
    exists_ram_run_of_seen rfl hStart hEnd hRoom .strict stub argument display
  refine ⟨_, rig, hRun, Report.scan_checked _ _ _ _ _, ?_⟩
  split
  · rfl
  · rfl

theorem exists_strict_run_of_payload_error (ram : Ram) (display : D) (stub : Stub)
    (argument : UInt32) {error : ScanError}
    (h : (Scan.ofView (ReadableMemory.view ram)).payload = .error error)
    (hDecision : StrictDecision (ReadableMemory.view ram) stub (some (.scan error))) :
    ∃ report rig,
      (run .inert .strict stub argument).run (fresh ram display) = .ok report rig ∧
        report.scan = Scan.ofView (ReadableMemory.view ram) ∧
        StrictDecision (ReadableMemory.view ram) stub report.refusal? ∧
        ∀ error, report.refusal? = some (.scan error) ↔
          (Scan.ofView (ReadableMemory.view ram)).payload = .error error := by
  have hPlan := Mode.strict_plan_of_payload_error h
  obtain ⟨rig, hRun, -⟩ := exists_ram_run_of_refused rfl hPlan display
  refine ⟨_, rig, hRun, rfl, hDecision, ?_⟩
  intro other
  rw [h, Report.refused]
  simp

/-- A strict run on an image with room for the copy ends, and its report gives the decision. -/
theorem exists_strict_run_decided {ram after : Ram} {scan : Scan}
    (hScan : Scan.perform.run ram = .ok scan after)
    (hRoom : 0x10000 + scan.stop.toNat ≤ ram.bytes.size) (display : D) (stub : Stub)
    (argument : UInt32) :
    ∃ report rig,
      (run .inert .strict stub argument).run (fresh ram display) = .ok report rig ∧
        report.scan = scan ∧
        StrictDecision (ReadableMemory.view ram) stub report.refusal? ∧
        ∀ error, report.refusal? = some (.scan error) ↔ scan.payload = .error error := by
  obtain rfl := scan_eq_ofView hScan
  have hPayload := Scan.payload_ofView (ReadableMemory.view ram)
  by_cases hEnd : .endSeen ∈ (Scan.ofView (ReadableMemory.view ram)).flags
  · rw [if_neg (not_not.mpr hEnd)] at hPayload
    by_cases hStart : .startSeen ∈ (Scan.ofView (ReadableMemory.view ram)).flags
    · rw [if_neg (not_not.mpr hStart)] at hPayload
      have hFramed := Scan.framed_ofView hStart hEnd
      obtain ⟨report, rig, hRun, hFound, hRefusal⟩ :=
        exists_strict_run_of_framed ram display stub argument hStart hEnd hRoom
      refine ⟨report, rig, hRun, hFound, ?_, ?_⟩
      · rw [hRefusal]
        split
        · rename_i hInside
          exact .of_inside hFramed ⟨UInt32.le_iff_toNat_le.mp hInside.1,
            UInt32.lt_iff_toNat_lt.mp hInside.2⟩
        · rename_i hOutside
          exact .of_outside hFramed fun hInside => hOutside
            ⟨UInt32.le_iff_toNat_le.mpr hInside.1, UInt32.lt_iff_toNat_lt.mpr hInside.2⟩
      · intro error
        rw [hRefusal, hPayload]
        split <;> simp
    · rw [if_pos hStart] at hPayload
      obtain ⟨hLeast, hNone⟩ := Scan.noStart_ofView hStart hEnd
      exact exists_strict_run_of_payload_error ram display stub argument hPayload
        (.of_noStart hLeast hNone)
  · rw [if_pos hEnd] at hPayload
    exact exists_strict_run_of_payload_error ram display stub argument hPayload
      (.of_noEnd (Scan.noEnd_ofView hEnd))

/-- The smallest image that has room for the copy of its two bytes. -/
theorem strict_run_decided_of_framing :
    ∃ scan after, Scan.perform.run (Ram.framing 0 2 0x10002) = .ok scan after ∧
      0x10000 + scan.stop.toNat ≤ (Ram.framing 0 2 0x10002).bytes.size ∧
      ∃ report rig,
        (run .inert .strict ⟨1⟩ 7).run
            (fresh (Ram.framing 0 2 0x10002) (Transcript.ofCapacity 128)) = .ok report rig ∧
          report.scan = scan ∧ report.refusal? = none := by
  have hFramed : Framed (ReadableMemory.view (Ram.framing 0 2 0x10002)) 0 2 :=
    Ram.framed_framing (by decide) (by decide) (by decide)
  have hScan := Scan.perform_run (Ram.framing 0 2 0x10002)
  obtain ⟨-, hStop, -, -⟩ := Scan.ofView_of_framed hFramed
  have hRoom : 0x10000 + (Scan.ofView (ReadableMemory.view (Ram.framing 0 2 0x10002))).stop.toNat ≤
      (Ram.framing 0 2 0x10002).bytes.size := by
    rw [hStop, Ram.size_framing]
  obtain ⟨report, rig, hRun, hFound, hDecision, -⟩ :=
    exists_strict_run_decided hScan hRoom (Transcript.ofCapacity 128) ⟨1⟩ 7
  refine ⟨_, _, hScan, hRoom, report, rig, hRun, hFound, hDecision.none_iff.mpr ?_⟩
  exact ⟨0, 2, hFramed, by decide, by decide⟩

end Rig

end FirstStage
