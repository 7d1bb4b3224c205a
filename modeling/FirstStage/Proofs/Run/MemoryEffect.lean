import FirstStage.Output.Transcript
import FirstStage.Proofs.Image.Framing
import FirstStage.Proofs.Image.Recorded
import FirstStage.Proofs.Relocation.Reported
import FirstStage.Proofs.Run.Inert

/-! # What a run does to an image

A run that comes back has made the copy of its report or none. On an image of 32-bit addresses that
copy moves the payload between the reported bounds up as it stands, and no other byte changes.
-/

namespace FirstStage

/-- An image after a run against the image before it, as the report tells it. -/
structure MemoryEffect (before : Ram) (report : Report) (after : Ram) : Prop where
  size_eq : after.bytes.size = before.bytes.size
  kept : report.plan? = none → after.bytes = before.bytes
  planned : ∀ plan, report.plan? = some plan →
    plan.src = report.scan.start ∧
      plan.dest.toNat = 0x10000 + report.scan.start.toNat ∧
      plan.length.toNat = report.scan.stop.toNat - report.scan.start.toNat ∧
      report.scan.start.toNat ≤ report.scan.stop.toNat ∧
      report.scan.stop.toNat ≤ Layout.lastMarkerOffset
  written : ∀ plan, report.plan? = some plan →
    0x10000 ≤ plan.dest.toNat ∧ plan.dest.toNat + plan.length.toNat ≤ 0x1FFFF
  moved : report.plan? ≠ none → ∀ addr, after.bytes.byteAt addr =
    if 0x10000 + report.scan.start.toNat ≤ addr ∧ addr < 0x10000 + report.scan.stop.toNat
    then before.bytes.byteAt (addr - 0x10000) else before.bytes.byteAt addr
  outside : ∀ addr, addr < 0x10000 ∨ 0x1FFFF ≤ addr →
    after.bytes.byteAt addr = before.bytes.byteAt addr

namespace MemoryEffect

variable {before after : Ram} {report : Report}

theorem of_none (hPlan : report.plan? = none) (hBytes : after.bytes = before.bytes) :
    MemoryEffect before report after where
  size_eq := congrArg Array.size hBytes
  kept _ := hBytes
  planned plan h := by
    rw [hPlan] at h
    cases h
  written plan h := by
    rw [hPlan] at h
    cases h
  moved h := absurd hPlan h
  outside addr _ := congrArg (Bytes.byteAt · addr) hBytes

theorem of_some {scan : Scan} (hScan : report.scan = scan)
    (hBounds : LowBounds scan.start scan.stop)
    (hRoom : 0x10000 + scan.stop.toNat ≤ before.bytes.size)
    (hPlan : report.plan? = some (Plan.ofBounds scan.start scan.stop))
    (hBytes : after.bytes = (before.moved (Plan.ofBounds scan.start scan.stop)).bytes) :
    MemoryEffect before report after := by
  subst hScan
  have hStop : report.scan.stop.toNat ≤ 0xFFFF := hBounds.low
  have hDest := hBounds.roomy.toNat_dest
  have hLength := hBounds.roomy.toNat_length
  have hOrder := hBounds.ordered
  have hMoved : ∀ addr, after.bytes.byteAt addr = _ := fun addr =>
    (congrArg (Bytes.byteAt · addr) hBytes).trans (hBounds.byteAt_moved hRoom addr)
  constructor
  · rw [hBytes, Ram.bytes_moved, Bytes.size_copyForward]
  · intro hNone
    rw [hPlan] at hNone
    cases hNone
  · intro plan h
    rw [hPlan] at h
    cases h
    exact ⟨rfl, hDest.trans (Nat.add_comm _ _), hLength, hOrder, hBounds.low⟩
  · intro plan h
    rw [hPlan] at h
    cases h
    omega
  · intro _
    exact hMoved
  · intro addr hOutside
    rw [hMoved, if_neg]
    omega

end MemoryEffect

namespace Rig

section Copies

variable {M D : Type} [ImageMemory M] [Display D]
variable {mode : Mode} {stub : Stub} {argument : UInt32} {memory : M} {display : D}
variable {report : Report} {rig : Rig M D}

/-- A run that comes back has asked for the copy of its report and for no other. -/
theorem exists_recorded_run
    (hRun : (run .inert mode stub argument).run (fresh memory display) = .ok report rig) :
    ∃ rig' : Rig (Recorded M) D,
      (run .inert mode stub argument).run (fresh ⟨memory, []⟩ display) = .ok report rig' ∧
        rig'.memory = ⟨rig.memory, report.plan?.toList⟩ := by
  rcases course_of_run hRun with ⟨scan, refusal, hCourse, rfl⟩ |
    ⟨scan, plan, landing, hCourse, rfl⟩
  · obtain ⟨hScan, hPlan⟩ := Course.ofMemory_eq_refused hCourse
    have hRecorded : Course.ofMemory mode stub (⟨memory, []⟩ : Recorded M) = _ :=
      Course.ofMemory_of_refused (Recorded.scan_run hScan []) hPlan
    exact ⟨_, run_of_course_refused hRecorded _ _, rfl⟩
  · obtain ⟨scanned, moved, hScan, hPlan, hCopy, hLanding⟩ := Course.ofMemory_eq_checked hCourse
    have hRecorded := Course.ofMemory_of_landing (Recorded.scan_run hScan []) hPlan
      (Recorded.perform_run hCopy []) (Recorded.landing_run hLanding ([] ++ [plan]))
    refine ⟨_, run_of_course_checked hRecorded _ _, ?_⟩
    rw [Report.plan?_checked]
    rfl

end Copies

variable {D : Type} [Display D] {mode : Mode} {stub : Stub} {argument : UInt32} {ram : Ram}
variable {display : D} {report : Report} {rig : Rig Ram D}

theorem memoryEffect_of_run (hSize : ram.bytes.size ≤ 2 ^ 32)
    (hRun : (run .inert mode stub argument).run (fresh ram display) = .ok report rig) :
    MemoryEffect ram report rig.memory := by
  rcases ram_run_cases rfl hRun with ⟨refusal, hPlan, rfl, hBytes⟩ |
    ⟨plan, hPlan, hHolds, rfl, hBytes⟩
  · exact .of_none rfl hBytes
  · obtain rfl := Mode.eq_ofBounds_of_plan hPlan
    obtain ⟨hInverted, hRoom⟩ := (Ram.holds_ofView_iff hSize rfl).mp hHolds
    have hBounds := (Scan.lowBounds_ofView_iff _).mpr hInverted
    exact .of_some (Report.scan_checked _ _ _ _ _) hBounds hRoom (Report.plan?_checked _ _ _ _ _)
      hBytes

/-- A run that comes back on an image of 32-bit addresses has moved the payload that it reports, by
the one copy that it asked for, or has changed nothing and asked for no copy. -/
theorem run_moves_reported_payload (hSize : ram.bytes.size ≤ 2 ^ 32)
    (hRun : (run .inert mode stub argument).run (fresh ram display) = .ok report rig) :
    (∃ after, Scan.perform.run ram = .ok report.scan after) ∧
      MemoryEffect ram report rig.memory ∧
      ∃ rig' : Rig (Recorded Ram) D,
        (run .inert mode stub argument).run (fresh ⟨ram, []⟩ display) = .ok report rig' ∧
          rig'.memory = ⟨rig.memory, report.plan?.toList⟩ := by
  have hScan := scan_eq_of_run hRun
  refine ⟨?_, memoryEffect_of_run hSize hRun, exists_recorded_run hRun⟩
  rw [hScan]
  exact ⟨_, Scan.perform_run ram⟩

/-- The byte behind the payload is not copied, although a stub there was to be called. -/
theorem run_moves_payload_of_framing :
    ∃ report rig,
      (run .inert .lenient ⟨8⟩ 7).run
          (fresh (Ram.framing 4 8 0x20000) (Transcript.ofCapacity 128)) = .ok report rig ∧
        report.plan? ≠ none ∧ rig.memory.bytes.byteAt 0x10005 = 0x73 ∧
        rig.memory.bytes.byteAt 0x10008 = 0 := by
  obtain ⟨hStart, hStop, hStartSeen, hEndSeen, hRoom⟩ :=
    Ram.seen_framing (by decide : 4 + 2 ≤ 8) (by decide) (by decide : 0x10000 + 8 ≤ 0x20000) rfl
  have hSize : (Ram.framing 4 8 0x20000).bytes.size = 0x20000 := Ram.size_framing
  obtain ⟨rig, hRun, -⟩ := exists_ram_run_of_seen rfl hStartSeen hEndSeen hRoom .lenient ⟨8⟩ 7
    (Transcript.ofCapacity 128)
  obtain ⟨-, hEffect, -⟩ := run_moves_reported_payload (by rw [hSize]; decide) hRun
  have hMoved := hEffect.moved (by rw [Report.plan?_checked]; exact Option.some_ne_none _)
  rw [Report.scan_checked, hStart, hStop] at hMoved
  have hInside : (Ram.framing 4 8 0x20000).bytes.byteAt (0x10005 - 0x10000) = 0x73 :=
    Ram.byteAt_framing (by decide)
  have hBehind : (Ram.framing 4 8 0x20000).bytes.byteAt 0x10008 = 0 :=
    Ram.byteAt_framing (by decide)
  refine ⟨_, rig, hRun, ?_, ?_, ?_⟩
  · rw [Report.plan?_checked]
    exact Option.some_ne_none _
  · exact (hMoved 0x10005).trans ((if_pos (by decide)).trans hInside)
  · exact (hMoved 0x10008).trans ((if_neg (by decide)).trans hBehind)

end Rig

end FirstStage
