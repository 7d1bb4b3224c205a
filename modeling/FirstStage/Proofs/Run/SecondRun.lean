import FirstStage.Output.Transcript
import FirstStage.Proofs.Image.Framing
import FirstStage.Proofs.Relocation.Rescan
import FirstStage.Proofs.Relocation.Settled
import FirstStage.Proofs.Run.Inert

/-! # A second run over the same image

The copy made once more changes nothing. A second run therefore repeats the first, unless the copy
has changed a byte of the scan.
-/

namespace FirstStage

theorem Scan.exists_rescan_iff {ram after moved : Ram} {scan : Scan}
    (hScan : Scan.perform.run ram = .ok scan after)
    (hMove : (Plan.ofBounds scan.start scan.stop).perform.run after = .ok () moved) :
    (∃ again, Scan.perform.run moved = .ok scan again) ↔
      ¬ scan.Spoiled (ReadableMemory.view ram) := by
  rw [Scan.perform_run] at hScan
  cases hScan
  obtain ⟨hHolds, rfl⟩ := Ram.perform_run_eq_ok_iff.mp hMove
  have hBytes := Scan.bytes_scanned ram
  rw [Ram.holds_iff_of_bytes hBytes] at hHolds
  rw [Scan.perform_run, Ram.view_eq_of_bytes (Ram.bytes_moved_eq hBytes _)]
  constructor
  · rintro ⟨again, hAgain⟩ hSpoiled
    apply Scan.ofView_moved_ne_of_spoiled rfl rfl hHolds hSpoiled
    injection hAgain
  · intro hSpoiled
    rw [Scan.ofView_moved_of_not_spoiled rfl rfl hHolds hSpoiled]
    exact ⟨_, rfl⟩

namespace Rig

variable {D : Type} [Display D] {mode : Mode} {stub : Stub} {argument : UInt32} {ram : Ram}
variable {report report' : Report} {display display' : D} {rig rig' : Rig Ram D}

theorem exists_second_run
    (hRun : (run .inert mode stub argument).run (fresh ram display) = .ok report rig)
    (hKept : ¬ (report.plan?.isSome = true ∧ report.scan.Spoiled (ReadableMemory.view ram)))
    (display' : D) :
    ∃ rig', (run .inert mode stub argument).run (fresh rig.memory display') = .ok report rig' ∧
      rig'.memory.bytes = rig.memory.bytes := by
  rcases ram_run_cases rfl hRun with ⟨refusal, hPlan, rfl, hBytes⟩ |
    ⟨plan, hPlan, hHolds, rfl, hBytes⟩
  · have hScan := congrArg Scan.ofView (Ram.view_eq_of_bytes hBytes)
    obtain ⟨rig', hRun', hBytes'⟩ := exists_ram_run_of_refused hScan hPlan display'
    refine ⟨rig', hRun', ?_⟩
    rw [hBytes', hBytes]
  · -- The second run finds the same plan, and its copy changes nothing, as it goes upward.
    rw [Report.plan?_checked, Report.scan_checked] at hKept
    have hBounds := (Mode.eq_ofBounds_of_plan hPlan).symm
    have hView := Ram.view_eq_of_bytes hBytes
    have hScan : Scan.ofView (ReadableMemory.view rig.memory) =
        Scan.ofView (ReadableMemory.view ram) := by
      rw [hView]
      exact Scan.ofView_moved_of_not_spoiled rfl hBounds hHolds fun h => hKept ⟨rfl, h⟩
    have hUp : plan.src.toNat ≤ plan.dest.toNat := by
      rw [Scan.toNat_dest_of_ofBounds rfl hBounds, ← hBounds]
      exact Nat.le_add_right _ _
    have hAgain : (rig.memory.moved plan).bytes = (ram.moved plan).bytes :=
      (Ram.bytes_moved_eq hBytes plan).trans (Ram.bytes_moved_moved hHolds hUp)
    have hHolds' : rig.memory.Holds plan.dest plan.src plan.length := by
      rw [Ram.holds_iff_of_bytes hBytes, Ram.holds_moved_iff]
      exact hHolds
    obtain ⟨rig', hRun', hBytes'⟩ := exists_ram_run_of_holds hScan hPlan hHolds' display'
    rw [Ram.view_eq_of_bytes hAgain] at hRun'
    refine ⟨rig', hRun', ?_⟩
    rw [hBytes', hAgain, hBytes]

theorem scan_ne_of_second_run
    (hRun : (run .inert mode stub argument).run (fresh ram display) = .ok report rig)
    (hMade : report.plan?.isSome = true)
    (hSpoiled : report.scan.Spoiled (ReadableMemory.view ram))
    (hRun' : (run .inert mode stub argument).run (fresh rig.memory display') = .ok report' rig') :
    report'.scan ≠ report.scan := by
  rw [scan_eq_of_run hRun']
  rcases ram_run_cases rfl hRun with ⟨refusal, hPlan, rfl, hBytes⟩ |
    ⟨plan, hPlan, hHolds, rfl, hBytes⟩
  · cases hMade
  · rw [Report.scan_checked] at hSpoiled ⊢
    rw [Ram.view_eq_of_bytes hBytes]
    exact Scan.ofView_moved_ne_of_spoiled rfl (Mode.eq_ofBounds_of_plan hPlan).symm hHolds hSpoiled

theorem exists_strict_run_of_framing {start stop size : Nat} (hApart : start + 2 ≤ stop)
    (hLow : stop ≤ Layout.lastMarkerOffset) (hRoom : 0x10000 + stop ≤ size) (display : D)
    (stub : Stub) (argument : UInt32) :
    ∃ moved report rig,
      (Plan.ofBounds (Scan.ofView (ReadableMemory.view (Ram.framing start stop size))).start
          (Scan.ofView (ReadableMemory.view (Ram.framing start stop size))).stop).perform.run
            (Scan.scanned (Ram.framing start stop size)) = .ok () moved ∧
        (run .inert .strict stub argument).run (fresh (Ram.framing start stop size) display) =
          .ok report rig ∧
        report.plan?.isSome = true := by
  obtain ⟨-, -, hStart, hEnd, hRoom⟩ := Ram.seen_framing hApart hLow hRoom rfl
  have hBounds := Mode.lowBounds_ofView hStart hEnd
  have hHolds := (hBounds.roomy.holds_iff (Ram.framing start stop size)).mpr hRoom
  have hBytes := Scan.bytes_scanned (Ram.framing start stop size)
  have hMove := Ram.perform_run_of_holds ((Ram.holds_iff_of_bytes hBytes _ _ _).mpr hHolds)
  obtain ⟨rig, hRun, -⟩ :=
    exists_ram_run_of_seen rfl hStart hEnd hRoom .strict stub argument display
  refine ⟨_, _, rig, hMove, hRun, ?_⟩
  rw [Report.plan?_checked]
  rfl

theorem spoiled_framing {size : Nat} (hSize : 0x10000 < size) :
    (Scan.ofView (ReadableMemory.view (Ram.framing 0 0xFFFF size))).Spoiled
      (ReadableMemory.view (Ram.framing 0 0xFFFF size)) := by
  have hFramed := Ram.framed_framing (by decide : 0 + 2 ≤ 0xFFFF) (by decide) hSize
  obtain ⟨hStart, hStop, -, -⟩ := Scan.ofView_of_framed hFramed
  have hFirst : ReadableMemory.view (Ram.framing 0 0xFFFF size) 0 = 0x21 :=
    Ram.view_framing (Nat.zero_lt_of_lt hSize : (0 : UInt32).toNat < size)
  have hLast : ReadableMemory.view (Ram.framing 0 0xFFFF size) Layout.payloadShift = 0xEF :=
    Ram.view_framing (hSize : Layout.payloadShift.toNat < size)
  refine ⟨UInt32.toNat_inj.mp hStart, hStop, ?_⟩
  rw [hFirst, hLast]
  decide

/-- The copy of its bounds leaves an image the same scan, and a run after a run gives the same
report and leaves the same bytes, unless the payload starts at zero, its end marker stands at the
last tested offset, and the first byte of the copy differs from the byte it falls on. -/
theorem rescan_and_second_run (ram : Ram) :
    (∀ scan after moved, Scan.perform.run ram = .ok scan after →
      (Plan.ofBounds scan.start scan.stop).perform.run after = .ok () moved →
      ((∃ again, Scan.perform.run moved = .ok scan again) ↔
        ¬ scan.Spoiled (ReadableMemory.view ram))) ∧
    ∀ (mode : Mode) (stub : Stub) (argument : UInt32) (display display' : D) (report : Report)
      (rig : Rig Ram D),
      (run .inert mode stub argument).run (fresh ram display) = .ok report rig →
      (¬ (report.plan?.isSome = true ∧ report.scan.Spoiled (ReadableMemory.view ram)) →
        ∃ rig', (run .inert mode stub argument).run (fresh rig.memory display') =
            .ok report rig' ∧
          rig'.memory.bytes = rig.memory.bytes) ∧
      (report.plan?.isSome = true ∧ report.scan.Spoiled (ReadableMemory.view ram) →
        ∀ report' rig', (run .inert mode stub argument).run (fresh rig.memory display') =
            .ok report' rig' →
          report'.scan ≠ report.scan) := by
  constructor
  · intro scan after moved hScan hMove
    exact Scan.exists_rescan_iff hScan hMove
  · intro mode stub argument display display' report rig hRun
    constructor
    · intro hKept
      exact exists_second_run hRun hKept display'
    · rintro ⟨hMade, hSpoiled⟩ report' rig' hRun'
      exact scan_ne_of_second_run hRun hMade hSpoiled hRun'

/-- On the largest payload that starts at zero the second scan differs, and the second run too. -/
theorem rescan_and_second_run_of_framing :
    ∃ scan after moved report, ∃ rig : Rig Ram Transcript,
      Scan.perform.run (Ram.framing 0 0xFFFF 0x20000) = .ok scan after ∧
      (Plan.ofBounds scan.start scan.stop).perform.run after = .ok () moved ∧
      (¬ ∃ again, Scan.perform.run moved = .ok scan again) ∧
      (run .inert .strict ⟨0⟩ 7).run
          (fresh (Ram.framing 0 0xFFFF 0x20000) (Transcript.ofCapacity 128)) = .ok report rig ∧
      ∀ report' rig',
        (run .inert .strict ⟨0⟩ 7).run (fresh rig.memory (Transcript.ofCapacity 128)) =
            .ok report' rig' →
          report'.scan ≠ report.scan := by
  have hSpoiled := spoiled_framing (by decide : 0x10000 < 0x20000)
  obtain ⟨moved, report, rig, hMove, hRun, hMade⟩ :=
    exists_strict_run_of_framing (by decide : 0 + 2 ≤ 0xFFFF) (by decide)
      (by decide : 0x10000 + 0xFFFF ≤ 0x20000) (Transcript.ofCapacity 128) ⟨0⟩ 7
  have hScan := Scan.perform_run (Ram.framing 0 0xFFFF 0x20000)
  have hFound := scan_eq_of_run hRun
  obtain ⟨hRescan, hSecond⟩ :=
    rescan_and_second_run (D := Transcript) (Ram.framing 0 0xFFFF 0x20000)
  refine ⟨_, _, moved, report, rig, hScan, hMove, ?_, hRun, ?_⟩
  · intro hAgain
    exact (hRescan _ _ _ hScan hMove).mp hAgain hSpoiled
  · exact (hSecond _ _ _ _ (Transcript.ofCapacity 128) _ _ hRun).2 ⟨hMade, hFound ▸ hSpoiled⟩

end Rig

end FirstStage
