import FirstStage.Proofs.Decimal.Numerals
import FirstStage.Proofs.Framing.Reach
import FirstStage.Proofs.Image.Framing
import FirstStage.Proofs.Output.Kept
import FirstStage.Proofs.Run.Inert

/-! # The line that a run shows

A run that comes back has shown one line of text. The line is short enough for every display that
has room for 34 characters behind the cursor, and it can be read back: it begins with a number, and
each number in it is followed by a character that is no digit.
-/

namespace FirstStage

theorem Mode.ranOut_of_refused {mode : Mode} {scan : Scan}
    (h : mode.plan scan = .error (.scan .noEnd)) : scan.ranOut = true := by
  cases mode with
  | lenient => cases h
  | strict =>
      unfold Mode.plan Scan.payload at h
      rw [Scan.ranOut, decide_eq_true_eq]
      by_contra hRanOut
      rw [if_neg hRanOut] at h
      dsimp only at h
      split at h
      · rename_i hPayload
        split at hPayload
        · cases hPayload
          cases h
        · split at hPayload
          · cases hPayload
            cases h
          · cases hPayload
      · split at h <;> cases h

namespace Refusal

theorem length_token {refusal : Refusal} (h : refusal ≠ .scan .noEnd) :
    (utf8 refusal.token).length = 3 := by
  have hLength : ∀ token ∈ ["NoS", "Bad", "Ovl", "Jmp"], (utf8 token).length = 3 := by decide
  apply hLength
  rcases refusal with (_ | _ | _) | (_ | _) | (_ | _)
  · exact absurd rfl h
  all_goals simp [token, ScanError.token, PlanError.token, LandingError.token]

theorem length_token_le (refusal : Refusal) : (utf8 refusal.token).length ≤ 4 := by
  by_cases h : refusal = .scan .noEnd
  · rw [h]
    decide
  · rw [length_token h]
    decide

theorem utf8_token_ne_nil (refusal : Refusal) : utf8 refusal.token ≠ [] := by
  intro hNil
  by_cases h : refusal = .scan .noEnd
  · rw [h] at hNil
    cases hNil
  · have hLength := length_token h
    rw [hNil] at hLength
    cases hLength

end Refusal

namespace Report

/-- The line of a report, spelled out. -/
def line (report : Report) : String :=
  Numeral.decimal report.argument.toNat ++
    (if .ranOut ∈ report.scan.flags then "Poop" else "") ++
    "S: " ++ Numeral.decimal report.scan.start.toNat ++
    "  E: " ++ Numeral.decimal report.scan.stop.toNat ++ "  " ++
    report.refusal?.elim "" Refusal.token

theorem utf8_line (report : Report) : utf8 report.line = report.shown := by
  have hRemark : utf8 (if .ranOut ∈ report.scan.flags then "Poop" else "") =
      report.scan.remark := by
    rw [Scan.remark, Scan.ranOut]
    by_cases hRanOut : .ranOut ∈ report.scan.flags
    · rw [if_pos hRanOut, if_pos (decide_eq_true hRanOut)]
      rfl
    · rw [if_neg hRanOut, if_neg (by simpa using hRanOut)]
      rfl
  have hToken : utf8 (report.refusal?.elim "" Refusal.token) =
      report.refusal?.elim [] fun refusal => utf8 refusal.token := by
    cases report.refusal? <;> rfl
  simp only [line, utf8_append, hRemark, hToken, ← Decimal.digits_eq, shown, Scan.diagnosis,
    Scan.shown, List.append_assoc]

/-- What a reader of the line learns of a run. -/
structure SameOutcome (report report' : Report) : Prop where
  argument_eq : report.argument = report'.argument
  start_eq : report.scan.start = report'.scan.start
  stop_eq : report.scan.stop = report'.scan.stop
  ranOut_iff : .ranOut ∈ report.scan.flags ↔ .ranOut ∈ report'.scan.flags
  token_eq : report.refusal?.map Refusal.token = report'.refusal?.map Refusal.token

theorem token_eq_of_shown {refusal? refusal'? : Option Refusal}
    (h : (refusal?.elim [] fun refusal => utf8 refusal.token) =
      refusal'?.elim [] fun refusal => utf8 refusal.token) :
    refusal?.map Refusal.token = refusal'?.map Refusal.token := by
  cases refusal? with
  | none =>
      cases refusal'? with
      | none => rfl
      | some refusal' => exact absurd h.symm refusal'.utf8_token_ne_nil
  | some refusal =>
      cases refusal'? with
      | none => exact absurd h refusal.utf8_token_ne_nil
      | some refusal' => exact congrArg some (utf8_injective h)

theorem sameOutcome_of_shown {report report' : Report} (h : report.shown = report'.shown) :
    report.SameOutcome report' := by
  have hEnds : ∀ (scan : Scan) (rest : List UInt8),
      (scan.remark ++ (utf8 "S: " ++ rest)).takeWhile Decimal.isDigit = [] := by
    intro scan rest
    rw [Scan.remark]
    cases scan.ranOut <;> rfl
  -- Each number of the line ends at the next character that is no digit.
  simp only [shown, Scan.diagnosis, Scan.shown, List.append_assoc] at h
  obtain ⟨hArgument, h⟩ := Decimal.digits_append_inj (hEnds _ _) (hEnds _ _) h
  -- The remark is told from the bounds by its first character.
  have hRanOut : report.scan.ranOut = report'.scan.ranOut := by
    rw [Scan.remark, Scan.remark] at h
    cases hRanOut : report.scan.ranOut <;> cases hRanOut' : report'.scan.ranOut
    · rfl
    · rw [hRanOut, hRanOut'] at h
      exact absurd (List.head_eq_of_cons_eq h) (by decide)
    · rw [hRanOut, hRanOut'] at h
      exact absurd (List.head_eq_of_cons_eq h) (by decide)
    · rfl
  rw [Scan.remark, Scan.remark, hRanOut] at h
  have hBounds := List.append_cancel_left (List.append_cancel_left h)
  obtain ⟨hStart, h⟩ := Decimal.digits_append_inj rfl rfl hBounds
  obtain ⟨hStop, h⟩ := Decimal.digits_append_inj rfl rfl (List.append_cancel_left h)
  refine ⟨hArgument, hStart, hStop, ?_, token_eq_of_shown (List.append_cancel_left h)⟩
  rw [Scan.ranOut, Scan.ranOut] at hRanOut
  exact decide_eq_decide.mp hRanOut

theorem length_shown (report : Report) :
    report.shown.length =
      Decimal.width report.argument.toNat + report.scan.remark.length +
        (Decimal.width report.scan.start.toNat + Decimal.width report.scan.stop.toNat + 10) +
        (report.refusal?.elim [] fun refusal => utf8 refusal.token).length := by
  have hStart : (utf8 "S: ").length = 3 := rfl
  have hStop : (utf8 "  E: ").length = 5 := rfl
  have hGap : (utf8 "  ").length = 2 := rfl
  simp only [shown, Scan.diagnosis, Scan.shown, List.length_append, Decimal.length_digits, hStart,
    hStop, hGap]
  omega

theorem length_shown_le {M : Type} [ImageMemory M] {memory left : M} {report : Report}
    (hScan : Scan.perform.run memory = .ok report.scan left)
    (hToken : report.refusal? = some (.scan .noEnd) → report.scan.ranOut = true) :
    report.shown.length ≤ 34 := by
  have hArgument := Decimal.width_le_ten report.argument
  have hStart : Decimal.width report.scan.start.toNat ≤ 5 :=
    Decimal.width_le_of_lt (by decide)
      (Nat.lt_of_le_of_lt (Scan.start_le_of_perform hScan) (by decide))
  rw [length_shown, Scan.remark]
  cases hRanOut : report.scan.ranOut with
  | true =>
      -- The remark and a token of four characters come with an end of one digit.
      have hStop : Decimal.width report.scan.stop.toNat = 1 := by
        rw [Scan.stop_eq_zero_of_ranOut hScan hRanOut, Decimal.width]
        exact if_pos (by decide)
      have hRemark : (utf8 exhaustedRemark).length = 4 := rfl
      have hShort : (report.refusal?.elim [] fun refusal => utf8 refusal.token).length ≤ 4 := by
        cases report.refusal? with
        | none => exact Nat.zero_le 4
        | some refusal => exact refusal.length_token_le
      rw [if_pos rfl, hStop, hRemark]
      omega
  | false =>
      have hStop : Decimal.width report.scan.stop.toNat ≤ 5 :=
        Decimal.width_le_of_lt (by decide)
          (Nat.lt_of_le_of_lt (Scan.stop_le_of_perform hScan) (by decide))
      have hShort : (report.refusal?.elim [] fun refusal => utf8 refusal.token).length ≤ 3 := by
        cases hRefusal : report.refusal? with
        | none => exact Nat.zero_le 3
        | some refusal =>
            refine (Refusal.length_token ?_).le
            rintro rfl
            rw [hToken hRefusal] at hRanOut
            cases hRanOut
      rw [if_neg Bool.false_ne_true, List.length_nil]
      omega

end Report

namespace Rig

variable {M D : Type} [ImageMemory M] [Display D]
variable {mode : Mode} {stub : Stub} {argument : UInt32} {memory : M} {display : D}
variable {report : Report} {rig : Rig M D}

/-- Whatever display the run has, it gives the report and sends the display the text. -/
def Emits (mode : Mode) (stub : Stub) (argument : UInt32) (memory : M) (report : Report)
    (text : List UInt8) : Prop :=
  ∀ (D : Type) [Display D] (display : D), ∃ rig,
    (run .inert mode stub argument).run (fresh memory display) = .ok report rig ∧
      rig.display = Display.text text display

theorem emits_of_run
    (hRun : (run .inert mode stub argument).run (fresh memory display) = .ok report rig) :
    Emits mode stub argument memory report (utf8 report.line) := by
  intro D' _ display'
  rw [Report.utf8_line]
  rcases course_of_run hRun with ⟨scan, refusal, hCourse, rfl⟩ |
    ⟨scan, plan, landing, hCourse, rfl⟩
  · exact ⟨_, run_of_course_refused hCourse argument display', rfl⟩
  · exact ⟨_, run_of_course_checked hCourse argument display', rfl⟩

theorem Emits.unique {report' : Report} {text text' : List UInt8}
    (h : Emits mode stub argument memory report text)
    (h' : Emits mode stub argument memory report' text') : text = text' := by
  -- A transcript with room for both texts tells them apart.
  obtain ⟨rig, hRun, hDisplay⟩ :=
    h Transcript (Transcript.ofCapacity (text.length + text'.length))
  obtain ⟨rig', hRun', hDisplay'⟩ :=
    h' Transcript (Transcript.ofCapacity (text.length + text'.length))
  rw [hRun] at hRun'
  cases hRun'
  rw [hDisplay, Transcript.text_ofCapacity (Nat.le_add_right _ _),
    Transcript.text_ofCapacity (Nat.le_add_left _ _)] at hDisplay'
  exact congrArg (Array.toList ∘ Transcript.kept) hDisplay'

theorem argument_eq_of_run
    (hRun : (run .inert mode stub argument).run (fresh memory display) = .ok report rig) :
    report.argument = argument := by
  rcases course_of_run hRun with ⟨scan, refusal, -, rfl⟩ | ⟨scan, plan, landing, -, rfl⟩
  · rfl
  · exact Report.argument_checked _ _ _ _ _

theorem length_line_le
    (hRun : (run .inert mode stub argument).run (fresh memory display) = .ok report rig) :
    (utf8 report.line).length ≤ 34 := by
  rw [Report.utf8_line]
  rcases course_of_run hRun with ⟨scan, refusal, hCourse, rfl⟩ |
    ⟨scan, plan, landing, hCourse, rfl⟩
  · obtain ⟨hScan, hPlan⟩ := Course.ofMemory_eq_refused hCourse
    refine Report.length_shown_le hScan ?_
    intro hRefusal
    cases hRefusal
    exact Mode.ranOut_of_refused hPlan
  · obtain ⟨scanned, moved, hScan, -, -, -⟩ := Course.ofMemory_eq_checked hCourse
    rw [← Report.scan_checked mode argument scan plan landing] at hScan
    refine Report.length_shown_le hScan ?_
    intro hRefusal
    cases landing <;> cases mode <;> cases hRefusal

/-- The line of a run, and what displays with room for it keep. -/
structure ShowsLine (mode : Mode) (stub : Stub) (argument : UInt32) (memory : M)
    (report : Report) : Prop where
  argument_eq : report.argument = argument
  emits : Emits mode stub argument memory report (utf8 report.line)
  length_le : (utf8 report.line).length ≤ 34
  on_transcript : ∀ capacity, 34 ≤ capacity → ∃ rig,
    (run .inert mode stub argument).run (fresh memory (Transcript.ofCapacity capacity)) =
        .ok report rig ∧
      rig.display.kept.toList = utf8 report.line ∧
      rig.display.written = (utf8 report.line).length
  on_screen : ∀ screen : Screen, screen.written = 0 →
    35 * Layout.cellSize ≤ screen.vram.size → ∃ rig,
      (run .inert mode stub argument).run (fresh memory screen) = .ok report rig ∧
        rig.display.written = (utf8 report.line).length ∧
        ∀ k < (utf8 report.line).length,
          rig.display.character? (k + 1) = (utf8 report.line)[k]?

theorem showsLine_of_run
    (hRun : (run .inert mode stub argument).run (fresh memory display) = .ok report rig) :
    ShowsLine mode stub argument memory report := by
  have hEmits := emits_of_run hRun
  have hLength := length_line_le hRun
  refine ⟨argument_eq_of_run hRun, hEmits, hLength, ?_, ?_⟩
  · intro capacity hCapacity
    obtain ⟨rig, hRun, hDisplay⟩ := hEmits Transcript (Transcript.ofCapacity capacity)
    rw [Transcript.text_ofCapacity (hLength.trans hCapacity)] at hDisplay
    exact ⟨rig, hRun, by rw [hDisplay], by rw [hDisplay]⟩
  · intro screen hWritten hCells
    obtain ⟨rig, hRun, hDisplay⟩ := hEmits Screen screen
    have hRoom : Layout.cellSize * (screen.written + (utf8 report.line).length) <
        screen.vram.size := by
      rw [hWritten, Layout.cellSize] at *
      omega
    refine ⟨rig, hRun, ?_, ?_⟩
    · rw [hDisplay, Screen.written_text, hWritten, Nat.zero_add]
    · intro k hk
      have hCell := Screen.character?_text hRoom hk
      rwa [hWritten, Nat.zero_add, Nat.add_comm 1, ← hDisplay] at hCell

/-- A run that comes back shows its line and no more, every display with room for 34 characters
keeps it, and two runs with the same text agree in the argument, the bounds, the remark and the
token. -/
theorem run_line_decodes {M' D' : Type} [ImageMemory M'] [Display D'] {mode' : Mode}
    {stub' : Stub} {argument' : UInt32} {memory' : M'} {display' : D'} {report' : Report}
    {rig' : Rig M' D'}
    (hRun : (run .inert mode stub argument).run (fresh memory display) = .ok report rig)
    (hRun' : (run .inert mode' stub' argument').run (fresh memory' display') = .ok report' rig') :
    ShowsLine mode stub argument memory report ∧
      ∀ text, Emits mode stub argument memory report text →
        Emits mode' stub' argument' memory' report' text → report.SameOutcome report' := by
  refine ⟨showsLine_of_run hRun, ?_⟩
  intro text hText hText'
  apply Report.sameOutcome_of_shown
  rw [← Report.utf8_line, ← Report.utf8_line, (emits_of_run hRun).unique hText,
    (emits_of_run hRun').unique hText']

/-- A strict run that jumps and a lenient run that jumps in spite of a bad landing show the same
line, and the smallest transcript keeps it. -/
theorem run_line_decodes_of_framing :
    ∃ report rig report' rig',
      (run .inert .strict ⟨4⟩ 7).run
          (fresh (Ram.framing 4 8 0x20000) (Transcript.ofCapacity 34)) = .ok report rig ∧
        (run .inert .lenient ⟨8⟩ 7).run
          (fresh (Ram.framing 4 8 0x20000) (Transcript.ofCapacity 34)) = .ok report' rig' ∧
        rig.display.kept.toList = utf8 "7S: 4  E: 8  " ∧ report.SameOutcome report' := by
  generalize hScan : Scan.ofView (ReadableMemory.view (Ram.framing 4 8 0x20000)) = scan
  obtain ⟨hStart, hStop, hStartSeen, hEndSeen, hRoom⟩ :=
    Ram.seen_framing (by decide : 4 + 2 ≤ 8) (by decide) (by decide : 0x10000 + 8 ≤ 0x20000) hScan
  have hRanOut : .ranOut ∉ scan.flags := by
    rw [← hScan, Scan.ranOut_mem_ofView_iff, hScan]
    exact not_not.mpr hEndSeen
  have hLine : ∀ report : Report, report.argument = 7 → report.scan = scan →
      report.refusal? = none → report.line = "7S: 4  E: 8  " := by
    intro report hArgument hReport hRefusal
    rw [Report.line, hArgument, hReport, if_neg hRanOut, hStart, hStop, hRefusal]
    decide
  obtain ⟨rig, hRun, -⟩ := exists_ram_run_of_seen hScan hStartSeen hEndSeen hRoom .strict ⟨4⟩ 7
    (Transcript.ofCapacity 34)
  obtain ⟨rig', hRun', -⟩ := exists_ram_run_of_seen hScan hStartSeen hEndSeen hRoom .lenient ⟨8⟩ 7
    (Transcript.ofCapacity 34)
  have hInside : scan.start ≤ 4 ∧ 4 < scan.stop := by
    rw [UInt32.le_iff_toNat_le, UInt32.lt_iff_toNat_lt, hStart, hStop]
    decide
  have hOutside : ¬ (scan.start ≤ 8 ∧ 8 < scan.stop) := by
    rw [UInt32.lt_iff_toNat_lt, hStop]
    exact fun h => absurd h.2 (by decide)
  rw [if_pos hInside] at hRun
  rw [if_neg hOutside] at hRun'
  obtain ⟨hShows, hDecodes⟩ := run_line_decodes hRun hRun'
  obtain ⟨rig'', hAgain, hKept, -⟩ := hShows.on_transcript 34 (Nat.le_refl 34)
  rw [hRun] at hAgain
  cases hAgain
  have hText := hShows.emits
  have hText' := emits_of_run hRun'
  rw [hLine _ rfl rfl rfl] at hKept hText hText'
  exact ⟨_, rig, _, rig', hRun, hRun', hKept, hDecodes _ hText hText'⟩

end Rig

end FirstStage
