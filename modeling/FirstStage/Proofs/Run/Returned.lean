import FirstStage.Proofs.Run.Outcome

/-! # Reports and what they tell of a run

A run that gets control back from all that it calls has been refused before the copy, or has made
the copy and judged the landing. Its report tells everything that it has left on the rig: the log,
the characters shown, the jumps and the trace. Only the memory is not in the report.
-/

namespace FirstStage

namespace Report

/-- The trace of a run that has shown the bounds and then entered `later`. -/
def traceTo (scan : Scan) (later : List State) : Trace :=
  ⟨[.entered, .showingArgument, .scanning, scan.outcome, .showingBounds] ++ later⟩

def refused (argument : UInt32) (scan : Scan) (refusal : Refusal) : Report :=
  { argument, scan, refusal? := some refusal, trace := traceTo scan [.idle] }

def checked (mode : Mode) (argument : UInt32) (scan : Scan) (plan : Plan)
    (landing : Except LandingError UInt32) : Report :=
  match landing, mode with
  | .error error, .strict =>
      { argument, scan, plan? := some plan, landing? := some landing,
        refusal? := some (.landing error),
        trace := traceTo scan [.relocating, .selfTesting, .idle] }
  | _, _ =>
      { argument, scan, plan? := some plan, landing? := some landing,
        trace := traceTo scan [.relocating, .selfTesting, .handingOver, .idle] }

theorem checked_ok (mode : Mode) (argument : UInt32) (scan : Scan) (plan : Plan) (addr : UInt32) :
    checked mode argument scan plan (.ok addr) =
      { argument, scan, plan? := some plan, landing? := some (.ok addr),
        trace := traceTo scan [.relocating, .selfTesting, .handingOver, .idle] } := by
  cases mode with
  | lenient => rfl
  | strict => rfl

theorem argument_checked (mode : Mode) (argument : UInt32) (scan : Scan) (plan : Plan)
    (landing : Except LandingError UInt32) :
    (checked mode argument scan plan landing).argument = argument := by
  cases landing <;> cases mode <;> rfl

theorem checked_withArgument (mode : Mode) (argument argument' : UInt32) (scan : Scan)
    (plan : Plan) (landing : Except LandingError UInt32) :
    { checked mode argument scan plan landing with argument := argument' } =
      checked mode argument' scan plan landing := by
  cases landing <;> cases mode <;> rfl

theorem scan_checked (mode : Mode) (argument : UInt32) (scan : Scan) (plan : Plan)
    (landing : Except LandingError UInt32) :
    (checked mode argument scan plan landing).scan = scan := by
  cases landing <;> cases mode <;> rfl

theorem plan?_checked (mode : Mode) (argument : UInt32) (scan : Scan) (plan : Plan)
    (landing : Except LandingError UInt32) :
    (checked mode argument scan plan landing).plan? = some plan := by
  cases landing <;> cases mode <;> rfl

theorem landing?_checked (mode : Mode) (argument : UInt32) (scan : Scan) (plan : Plan)
    (landing : Except LandingError UInt32) :
    (checked mode argument scan plan landing).landing? = some landing := by
  cases landing <;> cases mode <;> rfl

/-- All that a run shows: its diagnosis, and the token of its refusal. -/
def shown (report : Report) : List UInt8 :=
  report.scan.diagnosis report.argument ++
    report.refusal?.elim [] fun refusal => utf8 refusal.token

theorem shown_of_accepted {report : Report} (h : report.refusal? = none) :
    report.shown = report.scan.diagnosis report.argument := by
  rw [shown, h]
  exact List.append_nil _

theorem refusal?_checked_lenient (argument : UInt32) (scan : Scan) (plan : Plan)
    (landing : Except LandingError UInt32) :
    (checked .lenient argument scan plan landing).refusal? = none := by
  cases landing <;> rfl

theorem shown_of_refused {report : Report} {refusal : Refusal}
    (h : report.refusal? = some refusal) :
    report.shown = report.scan.diagnosis report.argument ++ utf8 refusal.token := by
  rw [shown, h]
  rfl

/-- The entries from the judgement of the landing on, up to the rest. -/
def closing (report : Report) : Log :=
  match report.refusal?, report.landing? with
  | some refusal, _ => [.refusal refusal]
  | none, some (.error error) => [.warning error, .state .handingOver, .returned]
  | none, _ => [.state .handingOver, .returned]

def log (report : Report) : Log :=
  [.state .entered, .state .showingArgument, .entryArgument report.argument, .state .scanning,
      .scan report.scan, .state report.scan.outcome, .state .showingBounds] ++
    (report.plan?.elim [] fun plan => [.state .relocating, .copy plan, .state .selfTesting]) ++
    report.closing ++ [.state .idle]

def jumps (stub : Stub) (report : Report) : List Jump :=
  match report.refusal? with
  | some _ => []
  | none => [.stub (stub.shiftedBy Layout.payloadShift), .stage2 Layout.payloadShift]

end Report

namespace Rig

variable {M D : Type} [Display D]

/-- The rig that the run of a report has left, when it began with an empty one. -/
def left (stub : Stub) (memory : M) (display : D) (report : Report) : Rig M D where
  memory
  log := report.log
  display := Display.text report.shown display
  jumps := report.jumps stub
  trace := report.trace

theorem diagnosed_fresh (argument : UInt32) (scan : Scan) (memory after : M) (display : D) :
    (fresh memory display).diagnosed argument scan after =
      { memory := after
        log := [.state .entered, .state .showingArgument, .entryArgument argument,
          .state .scanning, .scan scan, .state scan.outcome, .state .showingBounds]
        display := Display.text (scan.diagnosis argument) display
        trace := Report.traceTo scan [] } := rfl

variable {mode : Mode} {stub : Stub} {argument : UInt32} {memory after : M}
variable {display : D} {scan : Scan} {refusal : Refusal} {plan : Plan}
variable {landing : Except LandingError UInt32} {report : Report} {rig : Rig M D}

theorem follow_refused (processor : Processor M D) :
    (fresh memory display).follow processor mode stub argument (.refused scan refusal after) =
      .ok (.refused argument scan refusal)
        (left stub after display (.refused argument scan refusal)) := by
  rw [follow, diagnosed_fresh, left, Report.shown_of_refused rfl, Display.text_append]
  rfl

/-- The rig when the stub is about to be called. -/
def atCall (argument : UInt32) (scan : Scan) (plan : Plan)
    (landing : Except LandingError UInt32) (memory : M) (display : D) : Rig M D where
  memory
  log :=
    [.state .entered, .state .showingArgument, .entryArgument argument, .state .scanning,
      .scan scan, .state scan.outcome, .state .showingBounds, .state .relocating, .copy plan,
      .state .selfTesting] ++
    match landing with
    | .ok _ => []
    | .error error => [.warning error]
  display := Display.text (scan.diagnosis argument) display
  trace := Report.traceTo scan [.relocating, .selfTesting]

theorem follow_checked (processor : Processor M D) :
    (fresh memory display).follow processor mode stub argument (.checked scan plan landing after) =
      if (Report.checked mode argument scan plan landing).refusal? = none then
        (do
          handOver processor stub
          rest (.checked mode argument scan plan landing)).run
          (atCall argument scan plan landing after display)
      else
        .ok (.checked mode argument scan plan landing)
          (left stub after display (.checked mode argument scan plan landing)) := by
  cases landing with
  | ok addr =>
      rw [follow, diagnosed_fresh, Report.checked_ok, if_pos rfl]
      rfl
  | error error =>
      cases mode with
      | strict =>
          have hRefused :
              (Report.checked .strict argument scan plan (.error error)).refusal? ≠ none :=
            Option.some_ne_none _
          rw [if_neg hRefused, follow, diagnosed_fresh, left, Report.shown_of_refused rfl,
            Display.text_append]
          rfl
      | lenient =>
          rw [if_pos (Report.refusal?_checked_lenient _ _ _ _), follow, diagnosed_fresh]
          rfl

theorem follow_inert_checked :
    (fresh memory display).follow .inert mode stub argument (.checked scan plan landing after) =
      .ok (.checked mode argument scan plan landing)
        (left stub after display (.checked mode argument scan plan landing)) := by
  rw [follow_checked]
  split
  · rename_i hAccepted
    rw [handOver_inert_run, left, Report.shown_of_accepted hAccepted]
    cases landing with
    | ok addr =>
        rw [Report.checked_ok]
        rfl
    | error error =>
        cases mode with
        | strict => cases hAccepted
        | lenient => rfl
  · rfl

variable [ImageMemory M]

theorem run_of_course_refused
    (h : Course.ofMemory mode stub memory = .refused scan refusal after) (argument : UInt32)
    (display : D) :
    (run .inert mode stub argument).run (fresh memory display) =
      .ok (.refused argument scan refusal)
        (left stub after display (.refused argument scan refusal)) := by
  have hFresh : Course.ofMemory mode stub (fresh memory display).memory = _ := h
  rw [run_eq_follow, hFresh, follow_refused]

theorem run_of_course_checked
    (h : Course.ofMemory mode stub memory = .checked scan plan landing after) (argument : UInt32)
    (display : D) :
    (run .inert mode stub argument).run (fresh memory display) =
      .ok (.checked mode argument scan plan landing)
        (left stub after display (.checked mode argument scan plan landing)) := by
  have hFresh : Course.ofMemory mode stub (fresh memory display).memory = _ := h
  rw [run_eq_follow, hFresh, follow_inert_checked]

theorem course_of_run
    (hRun : (run .inert mode stub argument).run (fresh memory display) = .ok report rig) :
    (∃ scan refusal, Course.ofMemory mode stub memory = .refused scan refusal rig.memory ∧
      report = .refused argument scan refusal) ∨
    ∃ scan plan landing,
      Course.ofMemory mode stub memory = .checked scan plan landing rig.memory ∧
        report = .checked mode argument scan plan landing := by
  rw [run_eq_follow] at hRun
  change (fresh memory display).follow .inert mode stub argument
    (Course.ofMemory mode stub memory) = _ at hRun
  cases hCourse : Course.ofMemory mode stub memory with
  | unscanned fault after =>
      rw [hCourse, follow] at hRun
      cases hRun
  | refused scan refusal after =>
      rw [hCourse, follow_refused] at hRun
      cases hRun
      exact Or.inl ⟨scan, refusal, rfl, rfl⟩
  | uncopied scan plan fault after =>
      rw [hCourse, follow] at hRun
      cases hRun
  | unchecked scan plan fault after =>
      rw [hCourse, follow] at hRun
      cases hRun
  | checked scan plan landing after =>
      rw [hCourse, follow_inert_checked] at hRun
      cases hRun
      exact Or.inr ⟨scan, plan, landing, rfl, rfl⟩

/-- A run that comes back has left what its report tells. -/
theorem eq_left_of_run
    (hRun : (run .inert mode stub argument).run (fresh memory display) = .ok report rig) :
    rig = left stub rig.memory display report := by
  rcases course_of_run hRun with ⟨scan, refusal, hCourse, rfl⟩ |
    ⟨scan, plan, landing, hCourse, rfl⟩
  · rw [run_of_course_refused hCourse] at hRun
    exact (EStateM.Result.ok.inj hRun).2.symm
  · rw [run_of_course_checked hCourse] at hRun
    exact (EStateM.Result.ok.inj hRun).2.symm

end Rig

end FirstStage
