import FirstStage.Proofs.Decimal.Digits
import FirstStage.Proofs.Framing.Walk
import FirstStage.Proofs.Relocation.Verdict
import FirstStage.Run.Rig

/-! # The phases of a run

Each phase adds entries to the log, characters to the display and states to the trace, and a run
is its phases in order. Up to the plan nothing can fail. From there on a run is refused, stops in
the copy, or comes to the jump.
-/

namespace FirstStage

def Scan.outcome (scan : Scan) : State := if scan.ranOut then .ranOut else .endFound

def Scan.remark (scan : Scan) : List UInt8 := if scan.ranOut then utf8 exhaustedRemark else []

def Scan.shown (scan : Scan) : List UInt8 :=
  utf8 "S: " ++ Decimal.digits scan.start ++ utf8 "  E: " ++ Decimal.digits scan.stop ++ utf8 "  "

/-- All that a run shows before its plan: the argument, the remark and the bounds. -/
def Scan.diagnosis (scan : Scan) (argument : UInt32) : List UInt8 :=
  Decimal.digits argument ++ scan.remark ++ scan.shown

namespace LoggedMemory

variable {M : Type} [ImageMemory M] {logged : LoggedMemory M} {scan : Scan} {plan : Plan}
variable {stub : Stub} {landing : Except LandingError UInt32} {fault : Fault} {memory : M}

theorem scan_run (h : Scan.perform.run logged.memory = .ok scan memory) :
    LoggedMemory.scan.run logged = .ok scan ⟨memory, logged.log ++ [.scan scan]⟩ :=
  Act.bind_ok (Act.within_ok h)

theorem scan_run_error (h : Scan.perform.run logged.memory = .error fault memory) :
    LoggedMemory.scan.run logged = .error fault { logged with memory } :=
  Act.bind_error (Act.within_error h)

theorem copy_run (h : (plan.perform : Act M Unit).run logged.memory = .ok () memory) :
    (copy plan).run logged = .ok () ⟨memory, logged.log ++ [.copy plan]⟩ :=
  (Act.bind_ok rfl).trans (Act.within_ok h)

theorem copy_run_error (h : (plan.perform : Act M Unit).run logged.memory = .error fault memory) :
    (copy plan).run logged = .error fault ⟨memory, logged.log ++ [.copy plan]⟩ :=
  (Act.bind_ok rfl).trans (Act.within_error h)

theorem landing_run (h : (plan.landing stub).run logged.memory = .ok landing memory) :
    (LoggedMemory.landing plan stub).run logged = .ok landing { logged with memory } :=
  Act.within_ok h

theorem landing_run_error (h : (plan.landing stub).run logged.memory = .error fault memory) :
    (LoggedMemory.landing plan stub).run logged = .error fault { logged with memory } :=
  Act.within_error h

end LoggedMemory

namespace Rig

variable {M D : Type}

def withMemory (memory : M) (rig : Rig M D) : Rig M D := { rig with memory }

theorem withMemory_withMemory (memory memory' : M) (rig : Rig M D) :
    (rig.withMemory memory).withMemory memory' = rig.withMemory memory' := rfl

theorem trace_withMemory (memory : M) (rig : Rig M D) :
    (rig.withMemory memory).trace = rig.trace := rfl

section Phases

variable [Display D]

/-- The rig with what a phase has added to it. -/
def after (entries : List LogEntry) (text : List UInt8) (states : List State) (rig : Rig M D) :
    Rig M D :=
  { rig with
    log := rig.log ++ entries
    display := Display.text text rig.display
    trace := states.foldl Trace.push rig.trace }

theorem after_after (entries entries' : List LogEntry) (text text' : List UInt8)
    (states states' : List State) (rig : Rig M D) :
    (rig.after entries text states).after entries' text' states' =
      rig.after (entries ++ entries') (text ++ text') (states ++ states') := by
  simp only [after, List.append_assoc, Display.text_append, List.foldl_append]

theorem after_withMemory (entries : List LogEntry) (text : List UInt8) (states : List State)
    (memory : M) (rig : Rig M D) :
    (rig.withMemory memory).after entries text states =
      (rig.after entries text states).withMemory memory := rfl

theorem enter_run (state : State) (rig : Rig M D) :
    (enter state).run rig = .ok () (rig.after [.state state] [] [state]) := rfl

theorem note_run (entry : LogEntry) (rig : Rig M D) :
    (note entry).run rig = .ok () (rig.after [entry] [] []) := rfl

theorem say_run (text : String) (rig : Rig M D) :
    (say text).run rig = .ok () (rig.after [] (utf8 text) []) := by
  change EStateM.Result.ok () _ = _
  rw [after, List.append_nil]
  rfl

theorem sayDecimal_run (num : UInt32) (rig : Rig M D) :
    (sayDecimal num).run rig = .ok () (rig.after [] (Decimal.digits num) []) := by
  rw [sayDecimal, onDisplay, Act.within_ok (Display.decimal_run num rig.display), after,
    List.append_nil]
  rfl

theorem rest_run (report : Report) (rig : Rig M D) :
    (rest report).run rig =
      .ok { report with trace := rig.trace.push .idle } (rig.after [.state .idle] [] [.idle]) := rfl

theorem refuse_run (report : Report) (refusal : Refusal) (rig : Rig M D) :
    (refuse report refusal).run rig =
      .ok { report with refusal? := some refusal, trace := rig.trace.push .idle }
        (rig.after [.refusal refusal, .state .idle] (utf8 refusal.token) [.idle]) := by
  rw [refuse, Act.bind_ok (note_run _ _), Act.bind_ok (say_run _ _), rest_run]
  simp only [after_after, List.nil_append, List.append_nil, List.cons_append]
  rfl

theorem announce_run (argument : UInt32) (rig : Rig M D) :
    (announce argument).run rig =
      .ok () (rig.after [.state .entered, .state .showingArgument, .entryArgument argument]
        (Decimal.digits argument) [.entered, .showingArgument]) := by
  rw [announce, Act.bind_ok (enter_run _ _), Act.bind_ok (enter_run _ _),
    Act.bind_ok (sayDecimal_run _ _), note_run]
  simp only [after_after, List.nil_append, List.append_nil, List.cons_append]

theorem showBounds_run (scan : Scan) (rig : Rig M D) :
    (showBounds scan).run rig =
      .ok () (rig.after [.state .showingBounds] scan.shown [.showingBounds]) := by
  rw [showBounds, Act.bind_ok (enter_run _ _), Act.bind_ok (say_run _ _),
    Act.bind_ok (sayDecimal_run _ _), Act.bind_ok (say_run _ _), Act.bind_ok (sayDecimal_run _ _),
    say_run]
  simp only [after_after, List.append_nil, List.nil_append, Scan.shown, List.append_assoc]

section Memory

variable [ImageMemory M] {rig : Rig M D} {scan : Scan} {plan : Plan} {stub : Stub}
variable {landing : Except LandingError UInt32} {fault : Fault} {memory : M}

theorem scan_run (h : Scan.perform.run rig.memory = .ok scan memory) :
    (onLogged LoggedMemory.scan : Act (Rig M D) Scan).run rig =
      .ok scan ((rig.after [.scan scan] [] []).withMemory memory) :=
  Act.within_ok (LoggedMemory.scan_run h)

omit [Display D] in
theorem scan_run_error (h : Scan.perform.run rig.memory = .error fault memory) :
    (onLogged LoggedMemory.scan : Act (Rig M D) Scan).run rig =
      .error fault (rig.withMemory memory) :=
  Act.within_error (LoggedMemory.scan_run_error h)

theorem survey_run (h : Scan.perform.run rig.memory = .ok scan memory) :
    (survey : Act (Rig M D) Scan).run rig =
      .ok scan
        ((rig.after [.state .scanning, .scan scan, .state scan.outcome] scan.remark
          [.scanning, scan.outcome]).withMemory memory) := by
  have hScan : (onLogged LoggedMemory.scan).run (rig.after [.state .scanning] [] [.scanning]) = _ :=
    scan_run h
  rw [survey, Act.bind_ok (enter_run _ _), Act.bind_ok hScan, Scan.outcome, Scan.remark]
  cases scan.ranOut with
  | true =>
      rw [if_pos rfl, if_pos rfl, if_pos rfl, Act.bind_ok (enter_run _ _),
        Act.bind_ok (say_run _ _)]
      simp only [after_withMemory, after_after, List.nil_append, List.cons_append, List.append_nil]
      rfl
  | false =>
      rw [if_neg Bool.false_ne_true, if_neg Bool.false_ne_true, if_neg Bool.false_ne_true,
        Act.bind_ok (enter_run _ _)]
      simp only [after_withMemory, after_after, List.nil_append, List.cons_append]
      rfl

theorem survey_run_error (h : Scan.perform.run rig.memory = .error fault memory) :
    (survey : Act (Rig M D) Scan).run rig =
      .error fault ((rig.after [.state .scanning] [] [.scanning]).withMemory memory) := by
  have hScan : (onLogged LoggedMemory.scan).run (rig.after [.state .scanning] [] [.scanning]) = _ :=
    scan_run_error h
  rw [survey, Act.bind_ok (enter_run _ _), Act.bind_error hScan]

/-- The rig when the bounds have been shown. -/
def diagnosed (argument : UInt32) (scan : Scan) (memory : M) (rig : Rig M D) : Rig M D :=
  (rig.after
    [.state .entered, .state .showingArgument, .entryArgument argument, .state .scanning,
      .scan scan, .state scan.outcome, .state .showingBounds]
    (scan.diagnosis argument)
    [.entered, .showingArgument, .scanning, scan.outcome, .showingBounds]).withMemory memory

omit [ImageMemory M] in
theorem withMemory_diagnosed (argument : UInt32) (scan : Scan) (memory memory' : M)
    (rig : Rig M D) :
    (rig.diagnosed argument scan memory).withMemory memory' =
      rig.diagnosed argument scan memory' := withMemory_withMemory _ _ _

/-- Once the scan has been made, nothing that comes before the plan can fail. -/
theorem run_of_scan (h : Scan.perform.run rig.memory = .ok scan memory)
    (processor : Processor M D) (mode : Mode) (stub : Stub) (argument : UInt32) :
    (run processor mode stub argument).run rig =
      (match mode.plan scan with
        | .error refusal =>
            refuse { argument, scan, trace := (rig.diagnosed argument scan memory).trace } refusal
        | .ok plan =>
            transfer processor mode stub
              { argument, scan, trace := (rig.diagnosed argument scan memory).trace } plan).run
        (rig.diagnosed argument scan memory) := by
  have hSurvey : survey.run (rig.after [.state .entered, .state .showingArgument,
      .entryArgument argument] (Decimal.digits argument) [.entered, .showingArgument]) = _ :=
    survey_run h
  rw [run, Act.bind_ok (announce_run _ _), Act.bind_ok hSurvey, Act.bind_ok (showBounds_run _ _)]
  simp only [after_withMemory, after_after, List.nil_append, List.cons_append]
  exact Act.bind_ok (rfl : (get : Act (Rig M D) _).run (rig.diagnosed argument scan memory) =
    .ok (rig.diagnosed argument scan memory) (rig.diagnosed argument scan memory))

theorem run_of_scan_error (h : Scan.perform.run rig.memory = .error fault memory)
    (processor : Processor M D) (mode : Mode) (stub : Stub) (argument : UInt32) :
    (run processor mode stub argument).run rig =
      .error fault
        ((rig.after [.state .entered, .state .showingArgument, .entryArgument argument,
            .state .scanning] (Decimal.digits argument)
          [.entered, .showingArgument, .scanning]).withMemory memory) := by
  have hSurvey : survey.run (rig.after [.state .entered, .state .showingArgument,
      .entryArgument argument] (Decimal.digits argument) [.entered, .showingArgument]) = _ :=
    survey_run_error h
  rw [run, Act.bind_ok (announce_run _ _), Act.bind_error hSurvey, after_after, List.append_nil]
  rfl

theorem copy_run (h : (plan.perform : Act M Unit).run rig.memory = .ok () memory) :
    (onLogged (LoggedMemory.copy plan) : Act (Rig M D) Unit).run rig =
      .ok () ((rig.after [.copy plan] [] []).withMemory memory) :=
  Act.within_ok (LoggedMemory.copy_run h)

theorem copy_run_error (h : (plan.perform : Act M Unit).run rig.memory = .error fault memory) :
    (onLogged (LoggedMemory.copy plan) : Act (Rig M D) Unit).run rig =
      .error fault ((rig.after [.copy plan] [] []).withMemory memory) :=
  Act.within_error (LoggedMemory.copy_run_error h)

omit [Display D] in
theorem landing_run (h : (plan.landing stub).run rig.memory = .ok landing memory) :
    (onLogged (LoggedMemory.landing plan stub) : Act (Rig M D) _).run rig =
      .ok landing (rig.withMemory memory) :=
  Act.within_ok (LoggedMemory.landing_run h)

omit [Display D] in
theorem landing_run_error (h : (plan.landing stub).run rig.memory = .error fault memory) :
    (onLogged (LoggedMemory.landing plan stub) : Act (Rig M D) _).run rig =
      .error fault (rig.withMemory memory) :=
  Act.within_error (LoggedMemory.landing_run_error h)

/-- The rig when the copy has been made and the landing is judged. -/
def copied (plan : Plan) (memory : M) (rig : Rig M D) : Rig M D :=
  (rig.after [.state .relocating, .copy plan, .state .selfTesting] []
    [.relocating, .selfTesting]).withMemory memory

omit [ImageMemory M] in
theorem copied_withMemory (plan : Plan) (memory memory' : M) (rig : Rig M D) :
    (rig.withMemory memory).copied plan memory' = rig.copied plan memory' := rfl

section Copy

variable {moved : M} (hCopy : (plan.perform : Act M Unit).run rig.memory = .ok () moved)

include hCopy

theorem relocate_run_of_copy (stub : Stub) :
    (relocate plan stub : Act (Rig M D) _).run rig =
      (onLogged (LoggedMemory.landing plan stub)).run (rig.copied plan moved) := by
  have hMoved : (onLogged (LoggedMemory.copy plan)).run
      (rig.after [.state .relocating] [] [.relocating]) = _ := copy_run hCopy
  rw [relocate, Act.bind_ok (enter_run _ _), Act.bind_ok hMoved, Act.bind_ok (enter_run _ _)]
  simp only [after_withMemory, after_after]
  rfl

theorem relocate_run (hLanding : (plan.landing stub).run moved = .ok landing memory) :
    (relocate plan stub : Act (Rig M D) _).run rig =
      .ok landing (rig.copied plan memory) :=
  (relocate_run_of_copy hCopy stub).trans (landing_run hLanding)

theorem relocate_run_landing_error
    (hLanding : (plan.landing stub).run moved = .error fault memory) :
    (relocate plan stub : Act (Rig M D) _).run rig =
      .error fault (rig.copied plan memory) :=
  (relocate_run_of_copy hCopy stub).trans (landing_run_error hLanding)

end Copy

theorem relocate_run_copy_error
    (h : (plan.perform : Act M Unit).run rig.memory = .error fault memory) (stub : Stub) :
    (relocate plan stub : Act (Rig M D) _).run rig =
      .error fault
        ((rig.after [.state .relocating, .copy plan] [] [.relocating]).withMemory memory) := by
  have hCopy : (onLogged (LoggedMemory.copy plan)).run
      (rig.after [.state .relocating] [] [.relocating]) = _ := copy_run_error h
  rw [relocate, Act.bind_ok (enter_run _ _), Act.bind_error hCopy, after_after]
  rfl

end Memory

section Readable

variable [ReadableMemory M]

def found (rig : Rig M D) : Scan := Scan.ofView (ReadableMemory.view rig.memory)

omit [Display D] in
theorem perform_run_found (rig : Rig M D) :
    Scan.perform.run rig.memory = .ok rig.found (Scan.scanned rig.memory) :=
  Scan.perform_run rig.memory

end Readable

end Phases

end Rig

end FirstStage
