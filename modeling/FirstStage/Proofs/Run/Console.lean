import FirstStage.Proofs.Run.Consistency
import FirstStage.Proofs.Run.LogLines

/-! # The console beside the report

What leaves at the serial port during a run splits into lines, and the lines tell the same story as
the report: the states in the order in which they were entered, the scan with its bounds, the copy
that the memory was asked for, the warning and the refusal. A run that stops in its copy has told
all this up to that copy.
-/

namespace FirstStage

/-- The first serial port, initialised. -/
def Uart.console : Uart := (Uart.init ⟨0x3F8, false⟩).2

/-- What lies between the line ends of all that the console sends for a log, whatever its status
reads answer. -/
def Log.consoleLines (log : Log) (replies : List UInt8) : List (List UInt8) :=
  splitLines (Uart.console.sent (Uart.console.send log.wire replies))

theorem Log.consoleLines_eq (log : Log) (replies : List UInt8) :
    log.consoleLines replies = log.lines ++ [[]] := by
  rw [consoleLines, Uart.sent_send rfl, splitLines_wire]

theorem Log.filterMap_lines (log : Log) : log.lines.filterMap State.ofLine? = log.entered := by
  rw [lines, List.filterMap_map, entered]
  congr 1
  funext entry
  apply Option.ext
  intro reached
  rw [Function.comp_apply, State.ofLine?_bytes_eq_some_iff]
  cases entry <;> simp [LogEntry.state?]

def Scan.boundsText (start stop : UInt32) : String :=
  "[scan] start=" ++ Numeral.decimal start.toNat ++ " end=" ++ Numeral.decimal stop.toNat ++ " "

def Plan.line (plan : Plan) : List UInt8 :=
  utf8 ("[reloc] " ++ Numeral.hex plan.src.toNat ++ " -> " ++ Numeral.hex plan.dest.toNat ++ " (" ++
    Numeral.decimal plan.length.toNat ++ " bytes)")

def Refusal.line (refusal : Refusal) : List UInt8 :=
  utf8 ("[stage] refusing to continue: " ++ refusal.message)

/-- The line of a scan shows its bounds and no others. -/
theorem Scan.begins_boundsText_iff (scan : Scan) (start stop : UInt32) :
    Begins (boundsText start stop) (LogEntry.scan scan).bytes ↔
      start = scan.start ∧ stop = scan.stop := by
  have hBytes : (LogEntry.scan scan).bytes =
      utf8 "[scan] start=" ++ (Decimal.digits scan.start ++ (utf8 " end=" ++
        (Decimal.digits scan.stop ++ (utf8 " " ++ (utf8 "flags=" ++ utf8 scan.flags.text))))) := by
    change utf8 ("[scan] start=" ++ _ ++ " end=" ++ _ ++ " flags=" ++ _) = _
    simp only [utf8_append, ← Decimal.digits_eq, List.append_assoc]
    rfl
  have hText : utf8 (boundsText start stop) =
      utf8 "[scan] start=" ++ (Decimal.digits start ++ (utf8 " end=" ++
        (Decimal.digits stop ++ utf8 " "))) := by
    unfold boundsText
    simp only [utf8_append, ← Decimal.digits_eq, List.append_assoc]
  unfold Begins
  rw [hBytes, hText]
  constructor
  · rintro ⟨rest, h⟩
    simp only [List.append_assoc] at h
    obtain ⟨hStart, h⟩ := Decimal.digits_append_inj rfl rfl (List.append_cancel_left h)
    obtain ⟨hStop, -⟩ := Decimal.digits_append_inj rfl rfl (List.append_cancel_left h)
    exact ⟨hStart, hStop⟩
  · rintro ⟨rfl, rfl⟩
    refine ⟨utf8 "flags=" ++ utf8 scan.flags.text, ?_⟩
    simp only [List.append_assoc]

/-- What the lines on the console tell of a run: the states that were entered, the scan, the copies
that were asked for, the refusal, and whether there was a warning. -/
structure Tells (lines : List (List UInt8)) (states : List State) (scan : Scan)
    (copies : List Plan) (refusal? : Option Refusal) (warned : Prop) : Prop where
  states_eq : lines.filterMap State.ofLine? = states
  scan_once : (lines.filter (Begins "[scan]")).length = 1
  scan_bounds : ∀ line ∈ lines, Begins "[scan]" line → ∀ start stop,
    Begins (Scan.boundsText start stop) line ↔ start = scan.start ∧ stop = scan.stop
  scan_between : ∃ line, Begins "[scan]" line ∧
    [State.scanning.line, line,
      (if .ranOut ∈ scan.flags then State.ranOut else State.endFound).line] <:+: lines
  copies_eq : lines.filter (Begins "[reloc]") = copies.map Plan.line
  copy_follows : ∀ plan ∈ copies, [State.relocating.line, plan.line] <:+: lines
  refusals_eq : lines.filter (Begins "[stage] refusing to continue") =
    refusal?.toList.map Refusal.line
  refusal_precedes : ∀ refusal ∈ refusal?, [refusal.line, State.idle.line] <:+: lines
  warning_iff : (∃ line ∈ lines, Begins "[stage] warning" line) ↔ warned

theorem Tells.of_log {log : Log} {states : List State} {scan : Scan} {copies : List Plan}
    {refusal? : Option Refusal} {warned : Prop} (hStates : log.entered = states)
    (hScan : log.filter (fun entry => entry.kind = .scan) = [.scan scan])
    (hBetween : [.state .scanning, .scan scan, .state scan.outcome] <:+: log)
    (hCopies : log.filter (fun entry => entry.kind = .copy) = copies.map .copy)
    (hFollows : ∀ plan ∈ copies, [.state .relocating, .copy plan] <:+: log)
    (hRefusals : log.filter (fun entry => entry.kind = .refusal) = refusal?.toList.map .refusal)
    (hPrecedes : ∀ refusal ∈ refusal?, [.refusal refusal, .state .idle] <:+: log)
    (hWarned : log.filter (fun entry => entry.kind = .warning) ≠ [] ↔ warned) :
    Tells log.lines states scan copies refusal? warned := by
  have hScanTag : (LogEntry.Kind.scan, "[scan]") ∈ LogEntry.Kind.tags := by decide
  have hCopyTag : (LogEntry.Kind.copy, "[reloc]") ∈ LogEntry.Kind.tags := by decide
  have hWarningTag : (LogEntry.Kind.warning, "[stage] warning") ∈ LogEntry.Kind.tags := by decide
  have hRefusalTag : (LogEntry.Kind.refusal, "[stage] refusing to continue") ∈
      LogEntry.Kind.tags := by decide
  have hScanLines : log.lines.filter (Begins "[scan]") = [(LogEntry.scan scan).bytes] := by
    rw [Log.filter_lines hScanTag, hScan]
    rfl
  refine
    { states_eq := (Log.filterMap_lines log).trans hStates
      scan_once := by rw [hScanLines]; rfl
      scan_bounds := ?_
      scan_between := ⟨(LogEntry.scan scan).bytes, (LogEntry.begins_tag_iff hScanTag _).mpr rfl, ?_⟩
      copies_eq := ?_
      copy_follows := fun plan hPlan => (hFollows plan hPlan).map LogEntry.bytes
      refusals_eq := ?_
      refusal_precedes := fun refusal hRefusal => (hPrecedes refusal hRefusal).map LogEntry.bytes
      warning_iff := Iff.trans ⟨?_, ?_⟩ hWarned }
  · intro line hLine hBegins
    have hMem : line ∈ log.lines.filter (Begins "[scan]") :=
      List.mem_filter.mpr ⟨hLine, decide_eq_true hBegins⟩
    rw [hScanLines, List.mem_singleton] at hMem
    rw [hMem]
    exact scan.begins_boundsText_iff
  · rw [← Report.outcome_eq]
    exact hBetween.map LogEntry.bytes
  · rw [Log.filter_lines hCopyTag, hCopies, Log.lines, List.map_map]
    rfl
  · rw [Log.filter_lines hRefusalTag, hRefusals, Log.lines, List.map_map]
    rfl
  · rintro ⟨line, hLine, hBegins⟩ hNone
    have hMem : line ∈ log.lines.filter (Begins "[stage] warning") :=
      List.mem_filter.mpr ⟨hLine, decide_eq_true hBegins⟩
    rw [Log.filter_lines hWarningTag, hNone] at hMem
    cases hMem
  · intro hSome
    obtain ⟨entry, hEntry⟩ := List.exists_mem_of_ne_nil _ hSome
    obtain ⟨hMem, hKind⟩ := List.mem_filter.mp hEntry
    exact ⟨entry.bytes, List.mem_map_of_mem hMem,
      (LogEntry.begins_tag_iff hWarningTag entry).mpr (of_decide_eq_true hKind)⟩

theorem Report.filter_log (report : Report) :
    report.log.filter (fun entry => entry.kind = .scan) = [.scan report.scan] ∧
      report.log.filter (fun entry => entry.kind = .copy) = report.plan?.toList.map .copy ∧
      report.log.filter (fun entry => entry.kind = .refusal) =
        report.refusal?.toList.map .refusal ∧
      (report.log.filter (fun entry => entry.kind = .warning) ≠ [] ↔
        report.refusal? = none ∧ ∃ error, report.landing? = some (.error error)) := by
  obtain ⟨argument, scan, plan?, landing?, refusal?, trace⟩ := report
  cases plan? <;> cases refusal? <;> rcases landing? with _ | (_ | _) <;>
    refine ⟨rfl, rfl, rfl, ?_⟩ <;> simp [log, closing, LogEntry.kind]

/-- The log of any report, whether or not a run can give it. -/
theorem Report.tells (report : Report) :
    Tells report.log.lines report.path report.scan report.plan?.toList report.refusal?
      (report.refusal? = none ∧ ∃ error, report.landing? = some (.error error)) := by
  obtain ⟨hScan, hCopies, hRefusals, hWarned⟩ := report.filter_log
  refine .of_log (entered_log report) hScan ?_ hCopies ?_ hRefusals ?_ hWarned <;>
    obtain ⟨argument, scan, plan?, landing?, refusal?, trace⟩ := report
  · exact ⟨[.state .entered, .state .showingArgument, .entryArgument argument], _, rfl⟩
  · intro plan hPlan
    obtain rfl : plan? = some plan := Option.mem_toList.mp hPlan
    exact ⟨[.state .entered, .state .showingArgument, .entryArgument argument, .state .scanning,
      .scan scan, .state scan.outcome, .state .showingBounds], _, rfl⟩
  · rintro refusal rfl
    exact ⟨_, [], (List.append_nil _).trans (List.append_assoc _ [_] [_]).symm⟩

/-- The states of a run that stops in its copy. -/
def Scan.pathToCopy (scan : Scan) : List State :=
  [.entered, .showingArgument, .scanning, if .ranOut ∈ scan.flags then .ranOut else .endFound,
    .showingBounds, .relocating]

theorem Scan.tells_stopped (argument : UInt32) (scan : Scan) (plan : Plan) :
    Tells
      (Log.lines [.state .entered, .state .showingArgument, .entryArgument argument,
        .state .scanning, .scan scan, .state scan.outcome, .state .showingBounds,
        .state .relocating, .copy plan])
      scan.pathToCopy scan [plan] none False := by
  refine .of_log ?_ rfl ?_ rfl ?_ rfl ?_ ?_
  · rw [pathToCopy, ← Report.outcome_eq]
    rfl
  · exact ⟨[.state .entered, .state .showingArgument, .entryArgument argument], _, rfl⟩
  · intro plan' hPlan
    obtain rfl := List.mem_singleton.mp hPlan
    exact ⟨[.state .entered, .state .showingArgument, .entryArgument argument, .state .scanning,
      .scan scan, .state scan.outcome, .state .showingBounds], [], rfl⟩
  · intro refusal hRefusal
    cases hRefusal
  · exact iff_false_intro fun hSome => hSome rfl

namespace Rig

variable {M D : Type} [ReadableMemory M] [Display D]

/-- The copies that a run asks of its memory. -/
def asked (mode : Mode) (stub : Stub) (argument : UInt32) (memory : M) (display : D) :
    List Plan :=
  (Act.reached ((run .inert mode stub argument).run
    (fresh (⟨memory, []⟩ : Recorded M) display))).memory.copies

/-- A run beside the lines that it has left on the console, for each way in which it can end. -/
inductive ConsoleTells (mode : Mode) (memory : M) (copies : List Plan) (replies : List UInt8) :
    EStateM.Result Fault (Rig M D) Report → Prop where
  | returned (report : Report) (rig : Rig M D) (lines : List (List UInt8))
      (hLines : rig.log.consoleLines replies = lines ++ [[]])
      (hCopies : copies = report.plan?.toList)
      (hTells : Tells lines report.trace.states report.scan copies report.refusal?
        (mode = .lenient ∧ ∃ error, report.landing? = some (.error error))) :
      ConsoleTells mode memory copies replies (.ok report rig)
  | stopped (fault : Fault) (rig : Rig M D) (lines : List (List UInt8)) (scan : Scan) (after : M)
      (plan : Plan) (hLines : rig.log.consoleLines replies = lines ++ [[]])
      (hScan : Scan.perform.run memory = .ok scan after) (hPlan : mode.plan scan = .ok plan)
      (hCopies : copies = [plan])
      (hTells : Tells lines scan.pathToCopy scan copies none False) :
      ConsoleTells mode memory copies replies (.error fault rig)

variable {mode : Mode} {stub : Stub} {argument : UInt32} {memory : M} {display : D}

theorem asked_of_run {report : Report} {rig : Rig M D}
    (hRun : (run .inert mode stub argument).run (fresh memory display) = .ok report rig) :
    asked mode stub argument memory display = report.plan?.toList := by
  obtain ⟨rig', hRecorded, hMemory⟩ := exists_recorded_run hRun
  have hReached : asked mode stub argument memory display = rig'.memory.copies :=
    congrArg (fun result => (Act.reached result).memory.copies) hRecorded
  rw [hReached, hMemory]

theorem asked_of_copy_error {plan : Plan} {fault : Fault} {left : M}
    (hPlan : mode.plan (Scan.ofView (ReadableMemory.view memory)) = .ok plan)
    (hCopy : (plan.perform : Act M Unit).run (Scan.scanned memory) = .error fault left) :
    asked mode stub argument memory display = [plan] := by
  have hRecorded : Course.ofMemory mode stub (fresh (⟨memory, []⟩ : Recorded M) display).memory =
      _ :=
    Course.ofMemory_of_copy_error (Recorded.scan_run (Scan.perform_run memory) []) hPlan
      (Recorded.perform_run_error hCopy [])
  rw [asked, run_eq_follow, hRecorded]
  rfl

theorem warned_iff_of_run {report : Report} {rig : Rig M D}
    (hRun : (run .inert mode stub argument).run (fresh memory display) = .ok report rig) :
    (report.refusal? = none ∧ ∃ error, report.landing? = some (.error error)) ↔
      mode = .lenient ∧ ∃ error, report.landing? = some (.error error) := by
  apply and_congr_left
  rintro ⟨error, hLanding⟩
  rcases course_of_run hRun with ⟨scan, refusal, -, rfl⟩ | ⟨scan, plan, landing, -, rfl⟩
  · cases hLanding
  · rw [Report.landing?_checked] at hLanding
    cases hLanding
    cases mode with
    | lenient => exact iff_of_true rfl rfl
    | strict => exact iff_of_false (Option.some_ne_none _) nofun

/-- On any image that can be read everywhere, the console tells of each run what its report tells,
or, when the copy stops the run, all that happened up to there. -/
theorem console_tells_run (mode : Mode) (stub : Stub) (argument : UInt32) (memory : M)
    (display : D) (replies : List UInt8) :
    ConsoleTells mode memory (asked mode stub argument memory display) replies
      ((run .inert mode stub argument).run (fresh memory display)) := by
  cases hRun : (run .inert mode stub argument).run (fresh memory display) with
  | ok report rig =>
      have hCopies := asked_of_run hRun
      have hTells := report.tells
      rw [← (formed_of_run hRun).states_eq, warned_iff_of_run hRun, ← hCopies] at hTells
      refine .returned report rig _ ?_ hCopies hTells
      rw [eq_left_of_run hRun]
      exact Log.consoleLines_eq _ replies
  | error fault rig =>
      obtain ⟨plan, left, hPlan, hCopy, rfl⟩ := inert_fault_cases hRun
      have hCopies : asked mode stub argument memory display = [plan] :=
        asked_of_copy_error hPlan hCopy
      have hTells := Scan.tells_stopped argument (Scan.ofView (ReadableMemory.view memory)) plan
      rw [← hCopies] at hTells
      exact .stopped fault _ _ _ _ plan (Log.consoleLines_eq _ replies) (Scan.perform_run memory)
        hPlan hCopies hTells

end Rig

end FirstStage
