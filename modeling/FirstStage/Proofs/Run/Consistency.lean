import FirstStage.Output.Transcript
import FirstStage.Proofs.Run.MemoryEffect

/-! # Reports beside the traces and effects of their runs

Whatever the memory answers and however its copies go, the report of a run, its trace, the copy
that was asked for and the jumps that were made tell one story. The trace has room for every state
that was entered.
-/

namespace FirstStage

def LogEntry.state? : LogEntry → Option State
  | .state reached => some reached
  | _ => none

/-- Every state that was entered is noted in the log, whether or not the trace had room for it. -/
def Log.entered (log : Log) : List State := log.filterMap LogEntry.state?

theorem Mode.strict_of_refused {mode : Mode} {scan : Scan} {refusal : Refusal}
    (h : mode.plan scan = .error refusal) :
    mode = .strict ∧ ∀ error, refusal ≠ .landing error := by
  cases mode with
  | lenient => cases h
  | strict =>
      refine ⟨rfl, ?_⟩
      rintro error rfl
      unfold Mode.plan at h
      dsimp only at h
      split at h
      · cases h
      · split at h <;> cases h

namespace Report

/-- The states of a run, by its report. -/
def path (report : Report) : List State :=
  [.entered, .showingArgument, .scanning,
      if .ranOut ∈ report.scan.flags then .ranOut else .endFound, .showingBounds] ++
    (if report.plan?.isSome then [.relocating, .selfTesting] else []) ++
    (if report.refusal?.isNone then [.handingOver] else []) ++ [.idle]

theorem nodup_path (report : Report) : report.path.Nodup := by
  unfold path
  split_ifs <;> decide

theorem ranOut_mem_path_iff (report : Report) :
    .ranOut ∈ report.path ↔ .ranOut ∈ report.scan.flags := by
  unfold path
  split_ifs with hRanOut <;> simp [hRanOut]

theorem endFound_mem_path_iff (report : Report) :
    .endFound ∈ report.path ↔ .ranOut ∉ report.scan.flags := by
  unfold path
  split_ifs with hRanOut <;> simp [hRanOut]

theorem relocating_mem_path_iff (report : Report) :
    .relocating ∈ report.path ↔ report.plan?.isSome = true := by
  unfold path
  split_ifs <;> simp_all

theorem selfTesting_mem_path_iff (report : Report) :
    .selfTesting ∈ report.path ↔ report.plan?.isSome = true := by
  unfold path
  split_ifs <;> simp_all

theorem handingOver_mem_path_iff (report : Report) :
    .handingOver ∈ report.path ↔ report.refusal? = none := by
  unfold path
  split_ifs <;> simp_all

theorem outcome_eq (scan : Scan) :
    scan.outcome = if .ranOut ∈ scan.flags then .ranOut else .endFound := by
  rw [Scan.outcome, Scan.ranOut]
  simp only [decide_eq_true_eq]

theorem entered_log (report : Report) : report.log.entered = report.path := by
  obtain ⟨argument, scan, plan?, landing?, refusal?, trace⟩ := report
  rw [log, path, outcome_eq]
  cases plan? <;> cases refusal? <;> rcases landing? with _ | (_ | _) <;> rfl

/-- The trace and the optional fields of a report, among each other. -/
structure Formed (mode : Mode) (report : Report) : Prop where
  states_eq : report.trace.states = report.path
  landing_iff : report.landing?.isSome = true ↔ report.plan?.isSome = true
  strict_of_refused : report.refusal? ≠ none → mode = .strict
  refused_landing_iff : report.refusal? ≠ none → ∀ error,
    report.refusal? = some (.landing error) ↔ report.landing? = some (.error error)

/-- A report beside what is seen of its run from outside: the log, the copies that the memory was
asked for, and the jumps. -/
structure Consistent (mode : Mode) (stub : Stub) (log : Log) (copies : List Plan)
    (jumps : List Jump) (report : Report) : Prop extends report.Formed mode where
  entered_eq : log.entered = report.trace.states
  nodup : report.trace.states.Nodup
  ranOut_iff : .ranOut ∈ report.trace ↔ .ranOut ∈ report.scan.flags
  endFound_iff : .endFound ∈ report.trace ↔ .ranOut ∉ report.scan.flags
  relocating_iff : .relocating ∈ report.trace ↔ report.plan?.isSome = true
  copies_eq : copies = report.plan?.toList
  selfTesting_iff : .selfTesting ∈ report.trace ↔ report.landing?.isSome = true
  handingOver_iff : .handingOver ∈ report.trace ↔ report.refusal? = none
  jumps_of_accepted : report.refusal? = none →
    ∃ addr : UInt32, addr.toNat = (stub.link.toNat + 0x10000) % 2 ^ 32 ∧
      jumps = [.stub addr, .stage2 0x10000]
  jumps_of_refused : report.refusal? ≠ none → jumps = []

theorem formed_refused {mode : Mode} {scan : Scan} {refusal : Refusal}
    (h : mode.plan scan = .error refusal) (argument : UInt32) :
    (refused argument scan refusal).Formed mode := by
  obtain ⟨hStrict, hPlan⟩ := Mode.strict_of_refused h
  refine ⟨?_, Iff.rfl, fun _ => hStrict, ?_⟩
  · rw [path, ← outcome_eq]
    rfl
  · intro _ error
    refine iff_of_false ?_ (Option.some_ne_none _).symm
    intro hRefusal
    exact hPlan error (Option.some.inj hRefusal)

theorem formed_checked (mode : Mode) (argument : UInt32) (scan : Scan) (plan : Plan)
    (landing : Except LandingError UInt32) :
    (checked mode argument scan plan landing).Formed mode := by
  have hScan := scan_checked mode argument scan plan landing
  constructor
  · rw [path, ← outcome_eq, hScan]
    cases landing <;> cases mode <;> rfl
  · rw [landing?_checked, plan?_checked]
    exact Iff.rfl
  · intro hRefusal
    cases mode with
    | strict => rfl
    | lenient => cases landing <;> exact absurd rfl hRefusal
  · intro hRefusal error
    rw [landing?_checked]
    cases landing with
    | ok addr =>
        rw [checked_ok] at hRefusal
        exact absurd rfl hRefusal
    | error error' =>
        cases mode with
        | lenient => exact absurd rfl hRefusal
        | strict => simp [checked]

theorem Formed.consistent {mode : Mode} {report : Report} (h : report.Formed mode) (stub : Stub) :
    report.Consistent mode stub report.log report.plan?.toList (report.jumps stub) := by
  have hMem : ∀ state, state ∈ report.trace ↔ state ∈ report.path := by
    intro state
    rw [← h.states_eq]
    exact Iff.rfl
  refine { h with
    entered_eq := (entered_log report).trans h.states_eq.symm
    nodup := by
      rw [h.states_eq]
      exact nodup_path report
    ranOut_iff := (hMem _).trans (ranOut_mem_path_iff report)
    endFound_iff := (hMem _).trans (endFound_mem_path_iff report)
    relocating_iff := (hMem _).trans (relocating_mem_path_iff report)
    copies_eq := rfl
    selfTesting_iff :=
      (hMem _).trans ((selfTesting_mem_path_iff report).trans h.landing_iff.symm)
    handingOver_iff := (hMem _).trans (handingOver_mem_path_iff report)
    jumps_of_accepted := ?_
    jumps_of_refused := ?_ }
  · intro hAccepted
    refine ⟨stub.shiftedBy Layout.payloadShift, UInt32.toNat_add _ _, ?_⟩
    rw [jumps, hAccepted]
    rfl
  · intro hRefused
    obtain ⟨refusal, hRefusal⟩ := Option.ne_none_iff_exists'.mp hRefused
    rw [jumps, hRefusal]

end Report

namespace Rig

variable {M D : Type} [ImageMemory M] [Display D]
variable {mode : Mode} {stub : Stub} {argument : UInt32} {memory : M} {display : D}
variable {report : Report} {rig : Rig M D}

theorem formed_of_run
    (hRun : (run .inert mode stub argument).run (fresh memory display) = .ok report rig) :
    report.Formed mode := by
  rcases course_of_run hRun with ⟨scan, refusal, hCourse, rfl⟩ | ⟨scan, plan, landing, -, rfl⟩
  · exact Report.formed_refused (Course.ofMemory_eq_refused hCourse).2 argument
  · exact Report.formed_checked mode argument scan plan landing

/-- Whatever the memory does, a run that comes back gives a report that agrees with its trace, its
log, its jumps and the copies that it has asked of the memory. -/
theorem run_consistent
    (hRun : (run .inert mode stub argument).run (fresh memory display) = .ok report rig) :
    rig.trace = report.trace ∧
    ∃ rig' : Rig (Recorded M) D,
      (run .inert mode stub argument).run (fresh ⟨memory, []⟩ display) = .ok report rig' ∧
        rig'.memory.memory = rig.memory ∧
        report.Consistent mode stub rig.log rig'.memory.copies rig.jumps := by
  have hLeft := eq_left_of_run hRun
  obtain ⟨rig', hRecorded, hMemory⟩ := exists_recorded_run hRun
  have hConsistent := (formed_of_run hRun).consistent stub
  rw [hLeft]
  refine ⟨rfl, rig', hRecorded, ?_, ?_⟩
  · rw [hMemory]
    rfl
  · rw [hMemory]
    exact hConsistent

theorem exists_flawed_run_of_seen (memory : Flawed) {scan : Scan}
    (hScan : Scan.ofView (ReadableMemory.view memory) = scan)
    (hStart : .startSeen ∈ scan.flags) (hEnd : .endSeen ∈ scan.flags)
    (hRoom : 0x10000 + scan.stop.toNat ≤ memory.ram.bytes.size)
    (hOffset : memory.offset < memory.ram.bytes.size) (mode : Mode) (stub : Stub)
    (argument : UInt32) (display : D) :
    ∃ report rig,
      (run .inert mode stub argument).run (fresh memory display) = .ok report rig ∧
        report.plan? = some (Plan.ofBounds scan.start scan.stop) := by
  subst hScan
  have hScanned : (Scan.scanned memory).ram.bytes = memory.ram.bytes := Flawed.bytes_notedAll _ _
  have hPlace : (Scan.scanned memory).offset < (Scan.scanned memory).ram.bytes.size := by
    rw [hScanned, Scan.scanned, Flawed.notedAll_eq]
    exact hOffset
  have hHolds := ((Mode.lowBounds_ofView hStart hEnd).roomy.holds_iff _).mpr hRoom
  obtain ⟨moved, hCopy, -⟩ :=
    Flawed.exists_perform_run ((Ram.holds_iff_of_bytes hScanned _ _ _).mpr hHolds) hPlace
  obtain ⟨rig, hRun, -⟩ :=
    exists_inert_run_of_checked (Mode.plan_of_seen mode hStart hEnd) hCopy display
  exact ⟨_, rig, hRun, Report.plan?_checked _ _ _ _ _⟩

/-- A memory that spoils the second byte of the payload it has copied; the lenient run goes on. -/
theorem run_consistent_of_flawed :
    ∃ report rig,
      (run .inert .lenient ⟨8⟩ 7).run
          (fresh (⟨Ram.framing 4 8 0x20000, 0x10005, 0⟩ : Flawed) (Transcript.ofCapacity 128)) =
            .ok report rig ∧
        .relocating ∈ report.trace ∧ .handingOver ∈ report.trace ∧
        rig.jumps = [.stub 0x10008, .stage2 0x10000] := by
  obtain ⟨-, -, hStart, hEnd, hRoom⟩ :=
    Ram.seen_framing (by decide : 4 + 2 ≤ 8) (by decide) (by decide : 0x10000 + 8 ≤ 0x20000) rfl
  have hOffset : 0x10005 < (Ram.framing 4 8 0x20000).bytes.size := by
    rw [Ram.size_framing]
    decide
  have hScan : Scan.ofView (ReadableMemory.view
      (⟨Ram.framing 4 8 0x20000, 0x10005, 0⟩ : Flawed)) =
        Scan.ofView (ReadableMemory.view (Ram.framing 4 8 0x20000)) := rfl
  obtain ⟨report, rig, hRun, hPlan⟩ :=
    exists_flawed_run_of_seen ⟨Ram.framing 4 8 0x20000, 0x10005, 0⟩ hScan hStart hEnd hRoom hOffset
      .lenient ⟨8⟩ 7 (Transcript.ofCapacity 128)
  obtain ⟨-, rig', -, -, hConsistent⟩ := run_consistent hRun
  have hAccepted : report.refusal? = none := by
    by_contra hRefused
    cases hConsistent.strict_of_refused hRefused
  obtain ⟨addr, hAddr, hJumps⟩ := hConsistent.jumps_of_accepted hAccepted
  obtain rfl : addr = 0x10008 := UInt32.toNat_inj.mp (hAddr.trans (by decide))
  refine ⟨report, rig, hRun, hConsistent.relocating_iff.mpr ?_,
    hConsistent.handingOver_iff.mpr hAccepted, hJumps⟩
  rw [hPlan]
  rfl

end Rig

end FirstStage
