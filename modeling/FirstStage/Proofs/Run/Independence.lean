import FirstStage.Proofs.Run.Returned

/-! # What a run does not depend on

Two runs on one memory, with any two arguments and any two displays, take the same course. They
end alike, and nothing tells them apart but the digits of the argument at the head of the text and
the entry of the argument in the log.
-/

namespace FirstStage

theorem Log.wire_append (log log' : Log) :
    Log.wire (log ++ log') = Log.wire log ++ Log.wire log' := List.flatMap_append

namespace Rig

variable {M D D' : Type} [Display D] [Display D']
variable {argument argument' : UInt32} {display : D} {display' : D'}
variable {rig : Rig M D} {rig' : Rig M D'}

/-- Two rigs on the way of runs that began with the displays and were given the arguments. -/
structure SameButArgument (argument argument' : UInt32) (display : D) (display' : D')
    (rig : Rig M D) (rig' : Rig M D') : Prop where
  memory_eq : rig.memory = rig'.memory
  jumps_eq : rig.jumps = rig'.jumps
  trace_eq : rig.trace = rig'.trace
  text : ∃ text,
    rig.display = Display.text (Decimal.digits argument ++ text) display ∧
      rig'.display = Display.text (Decimal.digits argument' ++ text) display'
  log : ∃ before after,
    rig.log = before ++ .entryArgument argument :: after ∧
      rig'.log = before ++ .entryArgument argument' :: after

namespace SameButArgument

theorem announced (memory : M) :
    SameButArgument argument argument' display display'
      ((fresh memory display).after [.state .entered, .state .showingArgument,
        .entryArgument argument] (Decimal.digits argument) [.entered, .showingArgument])
      ((fresh memory display').after [.state .entered, .state .showingArgument,
        .entryArgument argument'] (Decimal.digits argument') [.entered, .showingArgument]) where
  memory_eq := rfl
  jumps_eq := rfl
  trace_eq := rfl
  text := ⟨[], by rw [List.append_nil]; rfl, by rw [List.append_nil]; rfl⟩
  log := ⟨[.state .entered, .state .showingArgument], [], rfl, rfl⟩

variable (h : SameButArgument argument argument' display display' rig rig')

include h

theorem withMemory (memory : M) :
    SameButArgument argument argument' display display' (rig.withMemory memory)
      (rig'.withMemory memory) :=
  { h with memory_eq := rfl }

theorem after (entries : List LogEntry) (text : List UInt8) (states : List State) :
    SameButArgument argument argument' display display' (rig.after entries text states)
      (rig'.after entries text states) where
  memory_eq := h.memory_eq
  jumps_eq := h.jumps_eq
  trace_eq := congrArg (states.foldl Trace.push) h.trace_eq
  text := by
    obtain ⟨earlier, hText, hText'⟩ := h.text
    refine ⟨earlier ++ text, ?_, ?_⟩
    · rw [Rig.after, hText, ← Display.text_append, List.append_assoc]
    · rw [Rig.after, hText', ← Display.text_append, List.append_assoc]
  log := by
    obtain ⟨before, behind, hLog, hLog'⟩ := h.log
    refine ⟨before, behind ++ entries, ?_, ?_⟩
    · rw [Rig.after, hLog, List.append_assoc, List.cons_append]
    · rw [Rig.after, hLog', List.append_assoc, List.cons_append]

/-- On the console, too, the logs differ in one line only. -/
theorem wire : ∃ before after,
    rig.log.wire = before ++ (LogEntry.entryArgument argument).wire ++ after ∧
      rig'.log.wire = before ++ (LogEntry.entryArgument argument').wire ++ after := by
  obtain ⟨before, after, hLog, hLog'⟩ := h.log
  refine ⟨Log.wire before, Log.wire after, ?_, ?_⟩
  · rw [hLog, Log.wire_append, List.append_assoc]
    rfl
  · rw [hLog', Log.wire_append, List.append_assoc]
    rfl

end SameButArgument

/-- Both come back, with reports that differ in the argument only, or both stop at the same
fault. -/
inductive EndsAlike (argument argument' : UInt32) (display : D) (display' : D') :
    EStateM.Result Fault (Rig M D) Report → EStateM.Result Fault (Rig M D') Report → Prop where
  | returned {report : Report} {rig : Rig M D} {rig' : Rig M D'}
      (hArgument : report.argument = argument)
      (hRig : SameButArgument argument argument' display display' rig rig') :
      EndsAlike argument argument' display display' (.ok report rig)
        (.ok { report with argument := argument' } rig')
  | stopped (fault : Fault) {rig : Rig M D} {rig' : Rig M D'}
      (hRig : SameButArgument argument argument' display display' rig rig') :
      EndsAlike argument argument' display display' (.error fault rig) (.error fault rig')

theorem EndsAlike.reached {result : EStateM.Result Fault (Rig M D) Report}
    {result' : EStateM.Result Fault (Rig M D') Report}
    (h : EndsAlike argument argument' display display' result result') :
    SameButArgument argument argument' display display' (Act.reached result)
      (Act.reached result') := by
  cases h with
  | returned _ hRig => exact hRig
  | stopped _ hRig => exact hRig

theorem diagnosed_eq (argument : UInt32) (scan : Scan) (memory : M) (rig : Rig M D) :
    rig.diagnosed argument scan memory =
      ((rig.after [.state .entered, .state .showingArgument, .entryArgument argument]
        (Decimal.digits argument) [.entered, .showingArgument]).after
          [.state .scanning, .scan scan, .state scan.outcome, .state .showingBounds]
          (scan.remark ++ scan.shown)
          [.scanning, scan.outcome, .showingBounds]).withMemory memory := by
  rw [diagnosed, after_after, Scan.diagnosis, List.append_assoc]
  rfl

theorem sameButArgument_diagnosed (scan : Scan) (memory memory' : M) :
    SameButArgument argument argument' display display'
      ((fresh memory display).diagnosed argument scan memory')
      ((fresh memory display').diagnosed argument' scan memory') := by
  rw [diagnosed_eq, diagnosed_eq]
  exact ((SameButArgument.announced memory).after _ _ _).withMemory memory'

theorem sameButArgument_left (stub : Stub) (memory : M) (report : Report) :
    SameButArgument report.argument argument' display display' (left stub memory display report)
      (left stub memory display' { report with argument := argument' }) where
  memory_eq := rfl
  jumps_eq := rfl
  trace_eq := rfl
  text := by
    refine ⟨report.scan.remark ++ report.scan.shown ++
      report.refusal?.elim [] fun refusal => utf8 refusal.token, ?_, ?_⟩ <;>
      simp only [left, Report.shown, Scan.diagnosis, List.append_assoc]
  log := ⟨[.state .entered, .state .showingArgument], _, rfl, rfl⟩

theorem follow_inert_endsAlike (mode : Mode) (stub : Stub) (memory : M) (course : Course M) :
    EndsAlike argument argument' display display'
      ((fresh memory display).follow .inert mode stub argument course)
      ((fresh memory display').follow .inert mode stub argument' course) := by
  cases course with
  | unscanned fault left =>
      have hAnnounced : SameButArgument argument argument' display display' _ _ :=
        .announced memory
      have hScanning := (hAnnounced.after [.state .scanning] [] [.scanning]).withMemory left
      rw [after_after, after_after, List.append_nil, List.append_nil] at hScanning
      rw [follow, follow]
      exact .stopped fault hScanning
  | refused scan refusal left =>
      rw [follow_refused, follow_refused]
      exact .returned rfl (sameButArgument_left stub left (.refused argument scan refusal))
  | uncopied scan plan fault left =>
      have hDiagnosed : SameButArgument argument argument' display display' _ _ :=
        sameButArgument_diagnosed scan memory left
      rw [follow, follow]
      exact .stopped fault (hDiagnosed.after _ _ _)
  | unchecked scan plan fault left =>
      have hDiagnosed : SameButArgument argument argument' display display' _ _ :=
        sameButArgument_diagnosed scan memory left
      rw [follow, follow]
      exact .stopped fault ((hDiagnosed.after _ _ _).withMemory left)
  | checked scan plan landing left =>
      have hArgument := Report.argument_checked mode argument scan plan landing
      have hLeft : SameButArgument _ argument' display display' _ _ :=
        sameButArgument_left stub left (.checked mode argument scan plan landing)
      rw [hArgument] at hLeft
      rw [follow_inert_checked, follow_inert_checked,
        ← Report.checked_withArgument mode argument argument' scan plan landing]
      exact .returned hArgument hLeft

/-- The argument and the display are for show only, and of all that has gone out on the console by
the end of a run only the line of the argument depends on them. -/
theorem run_endsAlike [ImageMemory M] (mode : Mode) (stub : Stub) (memory : M)
    (argument argument' : UInt32) (display : D) (display' : D') :
    EndsAlike argument argument' display display'
      ((run .inert mode stub argument).run (fresh memory display))
      ((run .inert mode stub argument').run (fresh memory display')) ∧
    ∃ before after,
      (Act.reached ((run .inert mode stub argument).run (fresh memory display))).log.wire =
          before ++ (LogEntry.entryArgument argument).wire ++ after ∧
        (Act.reached ((run .inert mode stub argument').run (fresh memory display'))).log.wire =
          before ++ (LogEntry.entryArgument argument').wire ++ after := by
  have hEnds : EndsAlike argument argument' display display'
      ((run .inert mode stub argument).run (fresh memory display))
      ((run .inert mode stub argument').run (fresh memory display')) := by
    rw [run_eq_follow, run_eq_follow]
    exact follow_inert_endsAlike mode stub memory (Course.ofMemory mode stub memory)
  exact ⟨hEnds, hEnds.reached.wire⟩

end Rig

end FirstStage
