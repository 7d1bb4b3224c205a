import FirstStage.Proofs.Run.Returned

/-! # Runs that get control back

When the called code does nothing, a run gives a report that depends on the scan, the plan and the
landing alone. On an image in an array it also leaves the bytes as they were or with the copy made.
-/

namespace FirstStage

namespace Rig

section Memories

variable {M D : Type} [ReadableMemory M] [Display D]
variable {mode : Mode} {stub : Stub} {argument : UInt32} {plan : Plan} {memory moved : M}

theorem exists_inert_run_of_refused {refusal : Refusal}
    (hPlan : mode.plan (Scan.ofView (ReadableMemory.view memory)) = .error refusal) (display : D) :
    ∃ rig,
      (run .inert mode stub argument).run (fresh memory display) =
          .ok (.refused argument (Scan.ofView (ReadableMemory.view memory)) refusal) rig ∧
        rig.memory = Scan.scanned memory :=
  ⟨_, run_of_course_refused (Course.ofMemory_of_refused (Scan.perform_run memory) hPlan) _ _, rfl⟩

theorem exists_inert_run_of_checked
    (hPlan : mode.plan (Scan.ofView (ReadableMemory.view memory)) = .ok plan)
    (hCopy : (plan.perform : Act M Unit).run (Scan.scanned memory) = .ok () moved) (display : D) :
    ∃ rig,
      (run .inert mode stub argument).run (fresh memory display) =
          .ok (.checked mode argument (Scan.ofView (ReadableMemory.view memory)) plan
            (plan.verdict (ReadableMemory.view moved) stub)) rig ∧
        rig.memory = notedAll (plan.probed (ReadableMemory.view moved) stub) moved := by
  have hFound : mode.plan (fresh memory display).found = .ok plan := hPlan
  exact ⟨_, run_of_course_checked (course_of_verdict hFound hCopy) _ _, rfl⟩

theorem inert_run_of_copy_error {fault : Fault} {left : M}
    (hPlan : mode.plan (Scan.ofView (ReadableMemory.view memory)) = .ok plan)
    (hCopy : (plan.perform : Act M Unit).run (Scan.scanned memory) = .error fault left)
    (display : D) :
    (run .inert mode stub argument).run (fresh memory display) =
      .error fault
        (((fresh memory display).diagnosed argument (Scan.ofView (ReadableMemory.view memory))
          left).after [.state .relocating, .copy plan] [] [.relocating]) := by
  have hFound : mode.plan (fresh memory display).found = .ok plan := hPlan
  exact run_of_copy_error hFound hCopy

theorem inert_run_cases {display : D} {report : Report} {rig : Rig M D}
    (hRun : (run .inert mode stub argument).run (fresh memory display) = .ok report rig) :
    (∃ refusal, mode.plan (Scan.ofView (ReadableMemory.view memory)) = .error refusal ∧
      report = .refused argument (Scan.ofView (ReadableMemory.view memory)) refusal ∧
      rig.memory = Scan.scanned memory) ∨
    ∃ plan moved, mode.plan (Scan.ofView (ReadableMemory.view memory)) = .ok plan ∧
      (plan.perform : Act M Unit).run (Scan.scanned memory) = .ok () moved ∧
      report = .checked mode argument (Scan.ofView (ReadableMemory.view memory)) plan
        (plan.verdict (ReadableMemory.view moved) stub) ∧
      rig.memory = notedAll (plan.probed (ReadableMemory.view moved) stub) moved := by
  cases hPlan : mode.plan (Scan.ofView (ReadableMemory.view memory)) with
  | error refusal =>
      obtain ⟨rig', hRefused, hMemory⟩ := exists_inert_run_of_refused hPlan display
      rw [hRefused] at hRun
      cases hRun
      exact Or.inl ⟨refusal, rfl, rfl, hMemory⟩
  | ok plan =>
      cases hCopy : (plan.perform : Act M Unit).run (Scan.scanned memory) with
      | ok _ moved =>
          obtain ⟨rig', hChecked, hMemory⟩ := exists_inert_run_of_checked hPlan hCopy display
          rw [hChecked] at hRun
          cases hRun
          exact Or.inr ⟨plan, moved, rfl, hCopy, rfl, hMemory⟩
      | error fault left =>
          rw [inert_run_of_copy_error hPlan hCopy] at hRun
          cases hRun

/-- Only the copy can stop a run, and by then the copy has been noted. -/
theorem inert_fault_cases {display : D} {fault : Fault} {rig : Rig M D}
    (hRun : (run .inert mode stub argument).run (fresh memory display) = .error fault rig) :
    ∃ plan left, mode.plan (Scan.ofView (ReadableMemory.view memory)) = .ok plan ∧
      (plan.perform : Act M Unit).run (Scan.scanned memory) = .error fault left ∧
      rig = ((fresh memory display).diagnosed argument (Scan.ofView (ReadableMemory.view memory))
        left).after [.state .relocating, .copy plan] [] [.relocating] := by
  cases hPlan : mode.plan (Scan.ofView (ReadableMemory.view memory)) with
  | error refusal =>
      obtain ⟨rig', hRefused, -⟩ := exists_inert_run_of_refused hPlan display
      rw [hRefused] at hRun
      cases hRun
  | ok plan =>
      cases hCopy : (plan.perform : Act M Unit).run (Scan.scanned memory) with
      | ok _ moved =>
          obtain ⟨rig', hChecked, -⟩ := exists_inert_run_of_checked hPlan hCopy display
          rw [hChecked] at hRun
          cases hRun
      | error fault' left =>
          rw [inert_run_of_copy_error hPlan hCopy] at hRun
          cases hRun
          exact ⟨plan, left, rfl, hCopy, rfl⟩

theorem scan_eq_of_run {display : D} {report : Report} {rig : Rig M D}
    (hRun : (run .inert mode stub argument).run (fresh memory display) = .ok report rig) :
    report.scan = Scan.ofView (ReadableMemory.view memory) := by
  rcases inert_run_cases hRun with ⟨refusal, -, rfl, -⟩ | ⟨plan, moved, -, -, rfl, -⟩
  · rfl
  · exact Report.scan_checked _ _ _ _ _

end Memories

variable {D : Type} [Display D] {mode : Mode} {stub : Stub} {argument : UInt32}
variable {ram : Ram} {scan : Scan} {plan : Plan}

theorem exists_ram_run_of_refused {refusal : Refusal}
    (hScan : Scan.ofView (ReadableMemory.view ram) = scan)
    (hPlan : mode.plan scan = .error refusal) (display : D) :
    ∃ rig,
      (run .inert mode stub argument).run (fresh ram display) =
          .ok (.refused argument scan refusal) rig ∧
        rig.memory.bytes = ram.bytes := by
  subst hScan
  obtain ⟨rig, hRun, hMemory⟩ := exists_inert_run_of_refused hPlan display
  refine ⟨rig, hRun, ?_⟩
  rw [hMemory, Scan.bytes_scanned]

theorem exists_ram_run_of_holds (hScan : Scan.ofView (ReadableMemory.view ram) = scan)
    (hPlan : mode.plan scan = .ok plan) (hHolds : ram.Holds plan.dest plan.src plan.length)
    (display : D) :
    ∃ rig,
      (run .inert mode stub argument).run (fresh ram display) =
          .ok (.checked mode argument scan plan
            (plan.verdict (ReadableMemory.view (ram.moved plan)) stub)) rig ∧
        rig.memory.bytes = (ram.moved plan).bytes := by
  subst hScan
  have hBytes := Scan.bytes_scanned ram
  have hCopy := Ram.perform_run_of_holds ((Ram.holds_iff_of_bytes hBytes _ _ _).mpr hHolds)
  obtain ⟨rig, hRun, hMemory⟩ := exists_inert_run_of_checked hPlan hCopy display
  have hMoved := Ram.bytes_moved_eq hBytes plan
  rw [Ram.view_eq_of_bytes hMoved] at hRun
  refine ⟨rig, hRun, ?_⟩
  rw [hMemory, Ram.bytes_notedAll, hMoved]

theorem ram_run_cases {display : D} {report : Report} {rig : Rig Ram D}
    (hScan : Scan.ofView (ReadableMemory.view ram) = scan)
    (hRun : (run .inert mode stub argument).run (fresh ram display) = .ok report rig) :
    (∃ refusal, mode.plan scan = .error refusal ∧ report = .refused argument scan refusal ∧
      rig.memory.bytes = ram.bytes) ∨
    ∃ plan, mode.plan scan = .ok plan ∧ ram.Holds plan.dest plan.src plan.length ∧
      report = .checked mode argument scan plan
        (plan.verdict (ReadableMemory.view (ram.moved plan)) stub) ∧
      rig.memory.bytes = (ram.moved plan).bytes := by
  subst hScan
  rcases inert_run_cases hRun with ⟨refusal, hPlan, rfl, hMemory⟩ |
    ⟨plan, moved, hPlan, hCopy, rfl, hMemory⟩
  · refine Or.inl ⟨refusal, hPlan, rfl, ?_⟩
    rw [hMemory, Scan.bytes_scanned]
  · obtain ⟨hHolds, rfl⟩ := Ram.perform_run_eq_ok_iff.mp hCopy
    have hBytes := Scan.bytes_scanned ram
    have hMoved := Ram.bytes_moved_eq hBytes plan
    refine Or.inr ⟨plan, hPlan, (Ram.holds_iff_of_bytes hBytes _ _ _).mp hHolds, ?_, ?_⟩
    · rw [Ram.view_eq_of_bytes hMoved]
    · rw [hMemory, Ram.bytes_notedAll, hMoved]

theorem exists_ram_run_of_seen (hScan : Scan.ofView (ReadableMemory.view ram) = scan)
    (hStart : .startSeen ∈ scan.flags) (hEnd : .endSeen ∈ scan.flags)
    (hRoom : 0x10000 + scan.stop.toNat ≤ ram.bytes.size) (mode : Mode) (stub : Stub)
    (argument : UInt32) (display : D) :
    ∃ rig,
      (run .inert mode stub argument).run (fresh ram display) =
          .ok (.checked mode argument scan (Plan.ofBounds scan.start scan.stop)
            (if scan.start ≤ stub.link ∧ stub.link < scan.stop then .ok (shifted stub.link)
              else .error (.outside (shifted stub.link)))) rig ∧
        rig.memory.bytes = (ram.moved (Plan.ofBounds scan.start scan.stop)).bytes := by
  subst hScan
  have hBounds := Mode.lowBounds_ofView hStart hEnd
  have hPlan := Mode.plan_of_seen mode hStart hEnd
  rw [← hBounds.roomy.verdict_moved hRoom stub]
  exact exists_ram_run_of_holds rfl hPlan ((hBounds.roomy.holds_iff ram).mpr hRoom) display

end Rig

end FirstStage
