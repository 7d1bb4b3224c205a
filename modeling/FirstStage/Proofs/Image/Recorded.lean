import FirstStage.Proofs.Image.Alike

/-! # A memory that keeps the copies asked of it

Each copy is noted before it is made, in the order in which the memory is asked. Nothing else about
the memory is changed.
-/

namespace FirstStage

structure Recorded (M : Type) where
  memory : M
  copies : List Plan := []

namespace Recorded

variable {M : Type}

def onMemory {α : Type} (act : Act M α) : Act (Recorded M) α :=
  act.within (·.memory) (fun memory recorded => { recorded with memory })

instance (priority := low) [ImageMemory M] : ImageMemory (Recorded M) where
  read addr := onMemory (ImageMemory.read addr)
  copy dest src length := do
    modify fun recorded => { recorded with copies := recorded.copies ++ [⟨src, dest, length⟩] }
    onMemory (ImageMemory.copy dest src length)

instance [ReadableMemory M] : ReadableMemory (Recorded M) where
  toImageMemory := inferInstance
  view recorded := ReadableMemory.view recorded.memory
  noted addr recorded := { recorded with memory := ReadableMemory.noted addr recorded.memory }
  read_eq addr recorded := Act.within_ok (ReadableMemory.read_eq addr recorded.memory)
  view_noted addr recorded := ReadableMemory.view_noted addr recorded.memory

variable [ImageMemory M]

theorem readAlike (copies : List Plan) :
    ReadAlike (fun (recorded : Recorded M) memory => recorded = ⟨memory, copies⟩) Set.univ := by
  rintro addr - recorded memory rfl
  cases hRead : (ImageMemory.read addr).run memory with
  | ok value after =>
      have hRead' : (ImageMemory.read addr).run (⟨memory, copies⟩ : Recorded M) =
          .ok value ⟨after, copies⟩ := Act.within_ok hRead
      rw [hRead']
      exact .ok value rfl
  | error fault after =>
      have hRead' : (ImageMemory.read addr).run (⟨memory, copies⟩ : Recorded M) =
          .error fault ⟨after, copies⟩ := Act.within_error hRead
      rw [hRead']
      exact .error fault rfl

theorem scan_run {memory after : M} {scan : Scan} (h : Scan.perform.run memory = .ok scan after)
    (copies : List Plan) :
    Scan.perform.run (⟨memory, copies⟩ : Recorded M) = .ok scan ⟨after, copies⟩ := by
  have hAlike : Act.Alike _ (Scan.perform.run (⟨memory, copies⟩ : Recorded M)) _ :=
    (readAlike copies).scan (fun _ _ => Set.mem_univ _) rfl
  rw [h] at hAlike
  obtain ⟨recorded, hRun, rfl⟩ := hAlike.exists_of_ok
  exact hRun

theorem landing_run {plan : Plan} {stub : Stub} {landing : Except LandingError UInt32}
    {memory after : M} (h : (plan.landing stub).run memory = .ok landing after)
    (copies : List Plan) :
    (plan.landing stub).run (⟨memory, copies⟩ : Recorded M) = .ok landing ⟨after, copies⟩ := by
  have hAlike : Act.Alike _ ((plan.landing stub).run (⟨memory, copies⟩ : Recorded M)) _ :=
    (readAlike copies).landing (fun _ _ _ => ⟨Set.mem_univ _, Set.mem_univ _⟩) rfl
  rw [h] at hAlike
  obtain ⟨recorded, hRun, rfl⟩ := hAlike.exists_of_ok
  exact hRun

theorem perform_run {plan : Plan} {memory moved : M}
    (h : (plan.perform : Act M Unit).run memory = .ok () moved) (copies : List Plan) :
    (plan.perform : Act (Recorded M) Unit).run ⟨memory, copies⟩ =
      .ok () ⟨moved, copies ++ [plan]⟩ :=
  (Act.bind_ok rfl).trans (Act.within_ok h)

theorem perform_run_error {plan : Plan} {memory left : M} {fault : Fault}
    (h : (plan.perform : Act M Unit).run memory = .error fault left) (copies : List Plan) :
    (plan.perform : Act (Recorded M) Unit).run ⟨memory, copies⟩ =
      .error fault ⟨left, copies ++ [plan]⟩ :=
  (Act.bind_ok rfl).trans (Act.within_error h)

end Recorded

end FirstStage
