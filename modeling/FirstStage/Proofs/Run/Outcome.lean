import FirstStage.Proofs.Framing.Bounds
import FirstStage.Proofs.Relocation.Payload
import FirstStage.Proofs.Run.Course

/-! # The outcomes of a run

A run is refused for its scan, stops in the copy, is refused for its landing, or makes the jumps.
Which of these it is depends on the view of the memory and on what the copy does to it.
-/

namespace FirstStage

theorem Scan.payload_eq_of_ok {scan : Scan} {payload : Payload} (h : scan.payload = .ok payload) :
    payload = ⟨scan.start, scan.stop⟩ := by
  unfold Scan.payload at h
  split at h
  · cases h
  · split at h
    · cases h
    · split at h
      · cases h
      · exact (Except.ok.inj h).symm

theorem Plan.eq_ofBounds_of_guarded {start stop : UInt32} {plan : Plan}
    (h : guarded start stop = .ok plan) : plan = ofBounds start stop := by
  unfold guarded at h
  dsimp only at h
  split at h
  · cases h
  · split at h
    · cases h
    · exact (Except.ok.inj h).symm

namespace Mode

/-- Both modes copy between the bounds that the scan has reported. -/
theorem eq_ofBounds_of_plan {mode : Mode} {scan : Scan} {plan : Plan}
    (h : mode.plan scan = .ok plan) : plan = Plan.ofBounds scan.start scan.stop := by
  cases mode with
  | lenient => exact (Except.ok.inj h).symm
  | strict =>
      unfold Mode.plan at h
      dsimp only at h
      cases hPayload : scan.payload with
      | error error =>
          rw [hPayload] at h
          cases h
      | ok payload =>
          rw [hPayload, Scan.payload_eq_of_ok hPayload] at h
          dsimp only at h
          cases hGuarded : Plan.guarded scan.start scan.stop with
          | error error =>
              rw [hGuarded] at h
              cases h
          | ok guarded =>
              rw [hGuarded] at h
              cases h
              exact Plan.eq_ofBounds_of_guarded hGuarded

theorem lowBounds_ofView {view : UInt32 → UInt8} (hStart : .startSeen ∈ (Scan.ofView view).flags)
    (hEnd : .endSeen ∈ (Scan.ofView view).flags) :
    LowBounds (Scan.ofView view).start (Scan.ofView view).stop := by
  obtain ⟨hApart, hLow⟩ := Scan.apart_ofView hStart hEnd
  exact ⟨by omega, hLow⟩

theorem strict_plan_of_payload_error {scan : Scan} {error : ScanError}
    (h : scan.payload = .error error) : strict.plan scan = .error (.scan error) := by
  rw [plan, h]

/-- No plan is refused in the strict mode: the bounds of an accepted scan are in order and low. -/
theorem strict_plan_of_seen {view : UInt32 → UInt8}
    (hStart : .startSeen ∈ (Scan.ofView view).flags) (hEnd : .endSeen ∈ (Scan.ofView view).flags) :
    strict.plan (Scan.ofView view) =
      .ok (Plan.ofBounds (Scan.ofView view).start (Scan.ofView view).stop) := by
  rw [plan, Scan.payload_ofView, if_neg (not_not.mpr hEnd), if_neg (not_not.mpr hStart)]
  dsimp only
  rw [(lowBounds_ofView hStart hEnd).guarded]

theorem plan_of_seen (mode : Mode) {view : UInt32 → UInt8}
    (hStart : .startSeen ∈ (Scan.ofView view).flags) (hEnd : .endSeen ∈ (Scan.ofView view).flags) :
    mode.plan (Scan.ofView view) =
      .ok (Plan.ofBounds (Scan.ofView view).start (Scan.ofView view).stop) := by
  cases mode with
  | lenient => rfl
  | strict => exact strict_plan_of_seen hStart hEnd

end Mode

namespace Rig

variable {M D : Type} [ReadableMemory M] [Display D]
variable {processor : Processor M D} {mode : Mode} {stub : Stub} {argument : UInt32} {rig : Rig M D}

theorem run_of_refused {refusal : Refusal} (h : mode.plan rig.found = .error refusal) :
    (run processor mode stub argument).run rig =
      .ok
        { argument, scan := rig.found, refusal? := some refusal,
          trace :=
            (rig.diagnosed argument rig.found (Scan.scanned rig.memory)).trace.push .idle }
        ((rig.diagnosed argument rig.found (Scan.scanned rig.memory)).after
          [.refusal refusal, .state .idle] (utf8 refusal.token) [.idle]) := by
  rw [run_eq_follow, Course.ofMemory_of_refused (perform_run_found rig) h, follow]

theorem run_of_copy_error {plan : Plan} {fault : Fault} {left : M}
    (hPlan : mode.plan rig.found = .ok plan)
    (hCopy : (plan.perform : Act M Unit).run (Scan.scanned rig.memory) = .error fault left) :
    (run processor mode stub argument).run rig =
      .error fault
        ((rig.diagnosed argument rig.found left).after [.state .relocating, .copy plan] []
          [.relocating]) := by
  rw [run_eq_follow, Course.ofMemory_of_copy_error (perform_run_found rig) hPlan hCopy, follow]

variable {plan : Plan} {moved : M}

def landed (plan : Plan) (landing : Except LandingError UInt32) (argument : UInt32)
    (rig : Rig M D) : Report :=
  { argument, scan := rig.found, plan? := some plan, landing? := some landing,
    trace := (rig.diagnosed argument rig.found (Scan.scanned rig.memory)).trace }

omit [Display D] in
theorem course_of_verdict (hPlan : mode.plan rig.found = .ok plan)
    (hCopy : (plan.perform : Act M Unit).run (Scan.scanned rig.memory) = .ok () moved) :
    Course.ofMemory mode stub rig.memory =
      .checked rig.found plan (plan.verdict (ReadableMemory.view moved) stub)
        (notedAll (plan.probed (ReadableMemory.view moved) stub) moved) :=
  Course.ofMemory_of_landing (perform_run_found rig) hPlan hCopy
    (Plan.landing_run plan stub moved)

theorem run_of_landed {addr : UInt32} (hPlan : mode.plan rig.found = .ok plan)
    (hCopy : (plan.perform : Act M Unit).run (Scan.scanned rig.memory) = .ok () moved)
    (hVerdict : plan.verdict (ReadableMemory.view moved) stub = .ok addr) :
    (run processor mode stub argument).run rig =
      (do
        handOver processor stub
        rest (rig.landed plan (.ok addr) argument)).run
        ((rig.diagnosed argument rig.found moved).copied plan
          (notedAll (plan.probed (ReadableMemory.view moved) stub) moved)) := by
  rw [run_eq_follow, course_of_verdict hPlan hCopy, hVerdict]
  rfl

theorem run_of_strict_bad_landing {error : LandingError}
    (hPlan : Mode.strict.plan rig.found = .ok plan)
    (hCopy : (plan.perform : Act M Unit).run (Scan.scanned rig.memory) = .ok () moved)
    (hVerdict : plan.verdict (ReadableMemory.view moved) stub = .error error) :
    (run processor .strict stub argument).run rig =
      .ok
        { rig.landed plan (.error error) argument with
          refusal? := some (.landing error)
          trace :=
            ((rig.diagnosed argument rig.found moved).copied plan moved).trace.push .idle }
        (((rig.diagnosed argument rig.found moved).copied plan
          (notedAll (plan.probed (ReadableMemory.view moved) stub) moved)).after
          [.refusal (.landing error), .state .idle] (utf8 error.token) [.idle]) := by
  rw [run_eq_follow, course_of_verdict hPlan hCopy, hVerdict]
  rfl

omit [ReadableMemory M] in
/-- The recorded jumps of a stage that gets control back from both. -/
theorem handOver_inert_run (report : Report) (rig : Rig M D) :
    (do handOver .inert stub; rest report : Act (Rig M D) Report).run rig =
      .ok { report with trace := (rig.trace.push .handingOver).push .idle }
        { rig.after [.state .handingOver, .returned, .state .idle] [] [.handingOver, .idle] with
          jumps := rig.jumps ++
            [.stub (stub.shiftedBy Layout.payloadShift), .stage2 Layout.payloadShift] } := by
  have hLog : rig.log ++ [.state .handingOver] ++ [.returned] ++ [.state .idle] =
      rig.log ++ [.state .handingOver, .returned, .state .idle] := by
    simp only [List.append_assoc, List.cons_append, List.nil_append]
  have hJumps : rig.jumps ++ [.stub (stub.shiftedBy Layout.payloadShift)] ++
      [.stage2 Layout.payloadShift] = rig.jumps ++
        [.stub (stub.shiftedBy Layout.payloadShift), .stage2 Layout.payloadShift] := by
    rw [List.append_assoc, List.singleton_append]
  rw [after, ← hLog, ← hJumps]
  rfl

end Rig

end FirstStage
