import FirstStage.Output.Transcript
import FirstStage.Proofs.Image.Framing
import FirstStage.Proofs.Run.Outcome

/-! # Jumps of the strict mode

A strict run jumps only when both markers were found, the stub lies in the payload and its probed
bytes stand at its relocated address. It does so whatever the copy has made of the memory, since
the stub is checked afterwards.
-/

namespace FirstStage

theorem Mode.seen_of_strict_plan {view : UInt32 → UInt8} {plan : Plan}
    (h : strict.plan (Scan.ofView view) = .ok plan) :
    .startSeen ∈ (Scan.ofView view).flags ∧ .endSeen ∈ (Scan.ofView view).flags ∧
      Plan.ofBounds (Scan.ofView view).start (Scan.ofView view).stop = plan := by
  have hPayload := Scan.payload_ofView view
  by_cases hEnd : .endSeen ∈ (Scan.ofView view).flags
  · rw [if_neg (not_not.mpr hEnd)] at hPayload
    by_cases hStart : .startSeen ∈ (Scan.ofView view).flags
    · rw [strict_plan_of_seen hStart hEnd] at h
      exact ⟨hStart, hEnd, Except.ok.inj h⟩
    · rw [if_pos hStart] at hPayload
      rw [strict_plan_of_payload_error hPayload] at h
      cases h
  · rw [if_pos hEnd] at hPayload
    rw [strict_plan_of_payload_error hPayload] at h
    cases h

namespace Rig

variable {M D : Type} [ReadableMemory M]

/-- What has been seen to hold when a stub is called. -/
structure Cleared (stub : Stub) (report : Report) (memory : M) : Prop where
  startSeen : .startSeen ∈ report.scan.flags
  endSeen : .endSeen ∈ report.scan.flags
  start_le : report.scan.start ≤ stub.link
  lt_stop : stub.link < report.scan.stop
  landing : report.landing? = some (.ok (stub.shiftedBy Layout.payloadShift))
  probed : ∀ i < min Layout.probeLimit (report.scan.stop.toNat - stub.link.toNat),
    ReadableMemory.view memory (stub.shiftedBy Layout.payloadShift + .ofNat i) =
      ReadableMemory.view memory (stub.link + .ofNat i)

/-- A strict run refuses or faults before its first jump, or it makes that jump when cleared. -/
inductive StrictEnd [Display D] (processor : Processor M D) (stub : Stub) :
    EStateM.Result Fault (Rig M D) Report → Prop where
  | refused (report : Report) (rig : Rig M D) (hRefused : report.refusal? ≠ none)
      (hJumps : rig.jumps = []) : StrictEnd processor stub (.ok report rig)
  | stopped (fault : Fault) (rig : Rig M D) (hJumps : rig.jumps = []) :
      StrictEnd processor stub (.error fault rig)
  | jumps (report : Report) (rig : Rig M D) (hAccepted : report.refusal? = none)
      (hCleared : Cleared stub report rig.memory) (hJumps : rig.jumps = []) :
      StrictEnd processor stub ((do handOver processor stub; rest report).run rig)

theorem cleared_of_verdict {report : Report} {plan : Plan} {stub : Stub} {view : UInt32 → UInt8}
    {addr : UInt32} (hScan : report.scan = Scan.ofView view)
    (hLanding : report.landing? = some (.ok addr))
    (hPlan : Mode.strict.plan (Scan.ofView view) = .ok plan) {moved : M}
    (hVerdict : plan.verdict (ReadableMemory.view moved) stub = .ok addr) :
    Cleared stub report moved := by
  obtain ⟨hStart, hEnd, rfl⟩ := Mode.seen_of_strict_plan hPlan
  have hBounds := Mode.lowBounds_ofView hStart hEnd
  obtain ⟨rfl, hCovers, hAgree⟩ := Plan.verdict_eq_ok_iff.mp hVerdict
  obtain ⟨hLower, hUpper⟩ := (hBounds.roomy.covers_shifted_iff stub.link).mp hCovers
  rw [hBounds.roomy.probeLength_shifted hLower hUpper] at hAgree
  rw [← hScan] at hStart hEnd hLower hUpper hAgree
  exact ⟨hStart, hEnd, hLower, hUpper, hLanding, agreeFrom_zero_iff.mp hAgree⟩

theorem Cleared.congr {stub : Stub} {report report' : Report} {memory memory' : M}
    (h : Cleared stub report memory) (hScan : report'.scan = report.scan)
    (hLanding : report'.landing? = report.landing?)
    (hView : ReadableMemory.view memory' = ReadableMemory.view memory) :
    Cleared stub report' memory' := by
  obtain ⟨hStart, hEnd, hLower, hUpper, hTarget, hProbed⟩ := h
  constructor
  · rwa [hScan]
  · rwa [hScan]
  · rwa [hScan]
  · rwa [hScan]
  · rwa [hLanding]
  · rwa [hScan, hView]

variable [Display D]

theorem strictEnd_run (processor : Processor M D) (stub : Stub) (argument : UInt32) (memory : M)
    (display : D) :
    StrictEnd processor stub
      ((run processor .strict stub argument).run (fresh memory display)) := by
  cases hPlan : Mode.strict.plan (fresh memory display).found with
  | error refusal =>
      rw [run_of_refused hPlan]
      exact .refused _ _ (Option.some_ne_none refusal) rfl
  | ok plan =>
      cases hCopy : (plan.perform : Act M Unit).run (Scan.scanned memory) with
      | error fault left =>
          rw [run_of_copy_error hPlan hCopy]
          exact .stopped _ _ rfl
      | ok _ moved =>
          cases hVerdict : plan.verdict (ReadableMemory.view moved) stub with
          | error error =>
              rw [run_of_strict_bad_landing hPlan hCopy hVerdict]
              exact .refused _ _ (Option.some_ne_none _) rfl
          | ok addr =>
              rw [run_of_landed hPlan hCopy hVerdict]
              have hCleared : Cleared stub ((fresh memory display).landed plan (.ok addr) argument)
                  moved := cleared_of_verdict rfl rfl hPlan hVerdict
              refine .jumps _ _ rfl ?_ rfl
              exact hCleared.congr rfl rfl (view_notedAll _ _)

theorem jumps_of_inert_run {stub : Stub} {argument : UInt32} {memory : M} {display : D}
    {report : Report} {rig : Rig M D}
    (hRun : (run .inert .strict stub argument).run (fresh memory display) = .ok report rig) :
    (report.refusal? ≠ none ∧ rig.jumps = []) ∨
      (report.refusal? = none ∧ Cleared stub report rig.memory ∧
        rig.jumps =
          [.stub (stub.shiftedBy Layout.payloadShift), .stage2 Layout.payloadShift]) := by
  have hEnd := strictEnd_run .inert stub argument memory display
  generalize (run .inert .strict stub argument).run (fresh memory display) = result at hRun hEnd
  cases hEnd with
  | refused report' rig' hRefused hJumps =>
      cases hRun
      exact Or.inl ⟨hRefused, hJumps⟩
  | stopped fault rig' hJumps => cases hRun
  | jumps report' rig' hAccepted hCleared hJumps =>
      rw [handOver_inert_run] at hRun
      cases hRun
      refine Or.inr ⟨hAccepted, hCleared.congr rfl rfl rfl, ?_⟩
      change rig'.jumps ++ _ = _
      rw [hJumps, List.nil_append]

theorem jumps_of_inert_fault {stub : Stub} {argument : UInt32} {memory : M} {display : D}
    {fault : Fault} {rig : Rig M D}
    (hRun : (run .inert .strict stub argument).run (fresh memory display) = .error fault rig) :
    rig.jumps = [] := by
  have hEnd := strictEnd_run .inert stub argument memory display
  generalize (run .inert .strict stub argument).run (fresh memory display) = result at hRun hEnd
  cases hEnd with
  | refused report rig' hRefused hJumps => cases hRun
  | stopped fault' rig' hJumps =>
      cases hRun
      exact hJumps
  | jumps report rig' hAccepted hCleared hJumps =>
      rw [handOver_inert_run] at hRun
      cases hRun

/-- Whatever the copy has done to the memory, a strict run calls the stub only when it is cleared,
and a run that is refused or faults makes no jump. -/
theorem strict_run_jumps_cleared (memory : M) (display : D) (stub : Stub) (argument : UInt32) :
    (∀ processor, StrictEnd processor stub
      ((run processor .strict stub argument).run (fresh memory display))) ∧
    (∀ report rig,
      (run .inert .strict stub argument).run (fresh memory display) = .ok report rig →
      (rig.jumps ≠ [] → Cleared stub report rig.memory ∧
        rig.jumps =
          [.stub (stub.shiftedBy Layout.payloadShift), .stage2 Layout.payloadShift]) ∧
      (report.refusal? ≠ none → rig.jumps = [])) ∧
    ∀ fault rig,
      (run .inert .strict stub argument).run (fresh memory display) = .error fault rig →
      rig.jumps = [] := by
  refine ⟨fun processor => strictEnd_run processor stub argument memory display, ?_, ?_⟩
  · intro report rig hRun
    rcases jumps_of_inert_run hRun with ⟨hRefused, hJumps⟩ | ⟨hAccepted, hCleared, hJumps⟩
    · exact ⟨fun hSome => absurd hJumps hSome, fun _ => hJumps⟩
    · exact ⟨fun _ => ⟨hCleared, hJumps⟩, fun hSome => absurd hAccepted hSome⟩
  · intro fault rig hRun
    exact jumps_of_inert_fault hRun

/-- The stub at the last byte of a payload is called. -/
theorem strict_run_jumps_of_framing :
    ∃ report rig,
      (run .inert .strict ⟨7⟩ 0).run
          (fresh (Ram.framing 4 8 0x10008) (Transcript.ofCapacity 128)) = .ok report rig ∧
        rig.jumps = [.stub 0x10007, .stage2 0x10000] ∧ Cleared ⟨7⟩ report rig.memory := by
  have hFramed : Scan.Framed (ReadableMemory.view (Ram.framing 4 8 0x10008)) 4 8 :=
    Ram.framed_framing (by decide) (by decide) (by decide)
  obtain ⟨hFirst, hLast, hStart, hEnd⟩ := Scan.ofView_of_framed hFramed
  have hBounds := Mode.lowBounds_ofView hStart hEnd
  have hRoom : 0x10000 + (Scan.ofView (ReadableMemory.view (Ram.framing 4 8 0x10008))).stop.toNat ≤
      (Scan.scanned (Ram.framing 4 8 0x10008)).bytes.size := by
    rw [hLast, Scan.scanned, Ram.bytes_notedAll, Ram.size_framing]
  have hPlan : Mode.strict.plan
      (fresh (Ram.framing 4 8 0x10008) (Transcript.ofCapacity 128)).found = .ok _ :=
    Mode.strict_plan_of_seen hStart hEnd
  have hCopy := Ram.perform_run_of_holds ((hBounds.roomy.holds_iff _).mpr hRoom)
  have hVerdict := hBounds.roomy.verdict_moved hRoom ⟨7⟩
  have hLower : (Scan.ofView (ReadableMemory.view (Ram.framing 4 8 0x10008))).start ≤ 7 := by
    rw [UInt32.le_iff_toNat_le, hFirst]
    decide
  have hUpper : 7 < (Scan.ofView (ReadableMemory.view (Ram.framing 4 8 0x10008))).stop := by
    rw [UInt32.lt_iff_toNat_lt, hLast]
    decide
  rw [if_pos ⟨hLower, hUpper⟩] at hVerdict
  have hRun : (run .inert .strict ⟨7⟩ 0).run
      (fresh (Ram.framing 4 8 0x10008) (Transcript.ofCapacity 128)) = _ :=
    (run_of_landed hPlan hCopy hVerdict).trans (handOver_inert_run _ _)
  have hVerified := (strict_run_jumps_cleared _ _ _ _).2.1 _ _ hRun
  obtain ⟨hCleared, hJumps⟩ :=
    hVerified.1 (List.append_ne_nil_of_right_ne_nil _ (List.cons_ne_nil _ _))
  exact ⟨_, _, hRun, hJumps, hCleared⟩

end Rig

end FirstStage
