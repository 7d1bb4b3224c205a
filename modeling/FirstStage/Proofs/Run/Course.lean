import FirstStage.Proofs.Run.Phases

/-! # The course of a run

A run learns all that it acts on from its memory: the bounds, whether the copy could be made, and
where the stub has landed. None of this depends on the display or on the argument, and up to the
call of the stub the run only shows and notes what it has learnt.
-/

namespace FirstStage

/-- How far a memory lets a run come before it calls the stub, and the memory it leaves. -/
inductive Course (M : Type) where
  | unscanned (fault : Fault) (memory : M)
  | refused (scan : Scan) (refusal : Refusal) (memory : M)
  | uncopied (scan : Scan) (plan : Plan) (fault : Fault) (memory : M)
  | unchecked (scan : Scan) (plan : Plan) (fault : Fault) (memory : M)
  | checked (scan : Scan) (plan : Plan) (landing : Except LandingError UInt32) (memory : M)

namespace Course

variable {M : Type} [ImageMemory M] {mode : Mode} {stub : Stub} {memory scanned moved left : M}
variable {scan : Scan} {refusal : Refusal} {plan : Plan} {landing : Except LandingError UInt32}
variable {fault : Fault}

def ofMemory (mode : Mode) (stub : Stub) (memory : M) : Course M :=
  match Scan.perform.run memory with
  | .error fault left => .unscanned fault left
  | .ok scan scanned =>
      match mode.plan scan with
      | .error refusal => .refused scan refusal scanned
      | .ok plan =>
          match (plan.perform : Act M Unit).run scanned with
          | .error fault left => .uncopied scan plan fault left
          | .ok _ moved =>
              match (plan.landing stub).run moved with
              | .error fault left => .unchecked scan plan fault left
              | .ok landing left => .checked scan plan landing left

theorem ofMemory_of_scan_error (h : Scan.perform.run memory = .error fault left) :
    ofMemory mode stub memory = .unscanned fault left := by
  rw [ofMemory, h]

theorem ofMemory_of_refused (hScan : Scan.perform.run memory = .ok scan scanned)
    (hPlan : mode.plan scan = .error refusal) :
    ofMemory mode stub memory = .refused scan refusal scanned := by
  rw [ofMemory, hScan]
  dsimp only
  rw [hPlan]

theorem ofMemory_of_copy_error (hScan : Scan.perform.run memory = .ok scan scanned)
    (hPlan : mode.plan scan = .ok plan)
    (hCopy : (plan.perform : Act M Unit).run scanned = .error fault left) :
    ofMemory mode stub memory = .uncopied scan plan fault left := by
  rw [ofMemory, hScan]
  dsimp only
  rw [hPlan]
  dsimp only
  rw [hCopy]

theorem ofMemory_of_copy (hScan : Scan.perform.run memory = .ok scan scanned)
    (hPlan : mode.plan scan = .ok plan)
    (hCopy : (plan.perform : Act M Unit).run scanned = .ok () moved) :
    ofMemory mode stub memory =
      match (plan.landing stub).run moved with
      | .error fault left => .unchecked scan plan fault left
      | .ok landing left => .checked scan plan landing left := by
  rw [ofMemory, hScan]
  dsimp only
  rw [hPlan]
  dsimp only
  rw [hCopy]

theorem ofMemory_of_landing (hScan : Scan.perform.run memory = .ok scan scanned)
    (hPlan : mode.plan scan = .ok plan)
    (hCopy : (plan.perform : Act M Unit).run scanned = .ok () moved)
    (hLanding : (plan.landing stub).run moved = .ok landing left) :
    ofMemory mode stub memory = .checked scan plan landing left := by
  rw [ofMemory_of_copy hScan hPlan hCopy, hLanding]

theorem ofMemory_eq_refused (h : ofMemory mode stub memory = .refused scan refusal left) :
    Scan.perform.run memory = .ok scan left ∧ mode.plan scan = .error refusal := by
  unfold ofMemory at h
  split at h
  · cases h
  · rename_i hScan
    split at h
    · rename_i hPlan
      cases h
      exact ⟨hScan, hPlan⟩
    · split at h
      · cases h
      · split at h <;> cases h

theorem ofMemory_eq_checked (h : ofMemory mode stub memory = .checked scan plan landing left) :
    ∃ scanned moved, Scan.perform.run memory = .ok scan scanned ∧ mode.plan scan = .ok plan ∧
      (plan.perform : Act M Unit).run scanned = .ok () moved ∧
      (plan.landing stub).run moved = .ok landing left := by
  unfold ofMemory at h
  split at h
  · cases h
  · rename_i hScan
    split at h
    · cases h
    · rename_i hPlan
      split at h
      · cases h
      · rename_i hCopy
        split at h
        · cases h
        · rename_i hLanding
          cases h
          exact ⟨_, _, hScan, hPlan, hCopy, hLanding⟩

end Course

namespace Rig

variable {M D : Type} [ImageMemory M] [Display D]

def follow (processor : Processor M D) (mode : Mode) (stub : Stub) (argument : UInt32)
    (rig : Rig M D) : Course M → EStateM.Result Fault (Rig M D) Report
  | .unscanned fault memory =>
      .error fault
        ((rig.after [.state .entered, .state .showingArgument, .entryArgument argument,
            .state .scanning] (Decimal.digits argument)
          [.entered, .showingArgument, .scanning]).withMemory memory)
  | .refused scan refusal memory =>
      .ok
        { argument, scan, refusal? := some refusal,
          trace := (rig.diagnosed argument scan memory).trace.push .idle }
        ((rig.diagnosed argument scan memory).after [.refusal refusal, .state .idle]
          (utf8 refusal.token) [.idle])
  | .uncopied scan plan fault memory =>
      .error fault
        ((rig.diagnosed argument scan memory).after [.state .relocating, .copy plan] []
          [.relocating])
  | .unchecked scan plan fault memory =>
      .error fault ((rig.diagnosed argument scan memory).copied plan memory)
  | .checked scan plan landing memory =>
      let report : Report :=
        { argument, scan, plan? := some plan, landing? := some landing,
          trace := (rig.diagnosed argument scan memory).trace }
      let rig := (rig.diagnosed argument scan memory).copied plan memory
      match landing, mode with
      | .error error, .strict =>
          .ok
            { report with refusal? := some (.landing error), trace := rig.trace.push .idle }
            (rig.after [.refusal (.landing error), .state .idle]
              (utf8 (Refusal.landing error).token) [.idle])
      | .error error, .lenient =>
          (do
            handOver processor stub
            rest report).run (rig.after [.warning error] [] [])
      | .ok _, _ =>
          (do
            handOver processor stub
            rest report).run rig

theorem transfer_run_error {plan : Plan} {stub : Stub} {rig rig' : Rig M D} {fault : Fault}
    (h : (relocate plan stub).run rig = .error fault rig') (processor : Processor M D)
    (mode : Mode) (report : Report) :
    (transfer processor mode stub report plan).run rig = .error fault rig' :=
  Act.bind_error h

/-- Every run follows the course that its memory gives it. -/
theorem run_eq_follow (processor : Processor M D) (mode : Mode) (stub : Stub) (argument : UInt32)
    (rig : Rig M D) :
    (run processor mode stub argument).run rig =
      rig.follow processor mode stub argument (.ofMemory mode stub rig.memory) := by
  cases hScan : Scan.perform.run rig.memory with
  | error fault left =>
      rw [run_of_scan_error hScan, Course.ofMemory_of_scan_error hScan, follow]
  | ok scan scanned =>
      rw [run_of_scan hScan]
      cases hPlan : mode.plan scan with
      | error refusal =>
          rw [Course.ofMemory_of_refused hScan hPlan]
          dsimp only
          rw [refuse_run, follow]
      | ok plan =>
          dsimp only
          cases hCopy : (plan.perform : Act M Unit).run scanned with
          | error fault left =>
              have hRelocate : (relocate plan stub).run (rig.diagnosed argument scan scanned) = _ :=
                relocate_run_copy_error hCopy stub
              rw [Course.ofMemory_of_copy_error hScan hPlan hCopy, transfer_run_error hRelocate,
                ← after_withMemory, withMemory_diagnosed, follow]
          | ok _ moved =>
              rw [Course.ofMemory_of_copy hScan hPlan hCopy]
              cases hLanding : (plan.landing stub).run moved with
              | error fault left =>
                  have hRelocate : (relocate plan stub).run (rig.diagnosed argument scan scanned) =
                      _ := relocate_run_landing_error hCopy hLanding
                  rw [transfer_run_error hRelocate, ← withMemory_diagnosed _ _ left,
                    copied_withMemory]
                  dsimp only
                  rw [follow]
              | ok landing left =>
                  have hRelocate : (relocate plan stub).run (rig.diagnosed argument scan scanned) =
                      _ := relocate_run hCopy hLanding
                  rw [transfer, Act.bind_ok hRelocate, ← withMemory_diagnosed _ _ left,
                    copied_withMemory, trace_withMemory]
                  cases landing with
                  | ok addr => rw [follow]
                  | error error =>
                      cases mode with
                      | strict =>
                          dsimp only
                          rw [refuse_run, follow]
                      | lenient =>
                          dsimp only
                          rw [Act.bind_ok (note_run _ _), follow]

end Rig

end FirstStage
