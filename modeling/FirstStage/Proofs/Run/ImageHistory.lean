import FirstStage.Proofs.Image.Watched
import FirstStage.Proofs.Relocation.Payload
import FirstStage.Proofs.Run.Phases
import FirstStage.Run.ImageStep

/-! # The history of an image

The steps on an image in an array come in any order, and a step that faults does not end them. The
size of the image is fixed, its extent tells how far the farthest read went, and its bytes change
only where a step that did not fault was to fill them.
-/

namespace FirstStage

def ImageAnswer.Refuses : ImageAnswer → Prop
  | .payload (.error _) | .landing (.error _) | .plan (.error _) => True
  | _ => False

namespace ImageStep

/-- The copy that a step is to make. -/
def copy? : ImageStep → Option Plan
  | .copy dest src length => some ⟨src, dest, length⟩
  | .move plan => some plan
  | .relocate start stop => some (.ofBounds start stop)
  | .relocateGuarded start stop => (Plan.guarded start stop).toOption
  | _ => none

/-- A step is to fill the byte at an index. -/
inductive Fills (index : Nat) : ImageStep → Prop where
  | place {offset : Nat} {bytes : List UInt8} (hLower : offset ≤ index)
      (hUpper : index < offset + bytes.length) : Fills index (.place offset bytes)
  | copy {step : ImageStep} {plan : Plan} (hCopy : step.copy? = some plan)
      (hLower : plan.dest.toNat ≤ index) (hUpper : index < plan.dest.toNat + plan.length.toNat) :
      Fills index step

/-- The bytes after a step that does not fault. -/
def contents (ram : Ram) : ImageStep → Bytes
  | .place offset bytes => ram.bytes.overwrite offset bytes
  | step => step.copy?.elim ram.bytes fun plan => (ram.moved plan).bytes

/-- The ranges that a step names lie inside the image. An address alone is not a range. -/
def InRange (ram : Ram) : ImageStep → Prop
  | .place offset bytes => ram.bytes.Fits offset bytes.length
  | .raw offset length => ram.bytes.Fits offset length
  | step => ∀ plan, step.copy? = some plan → ram.Holds plan.dest plan.src plan.length

/-- A step looks at the bytes as the stage does, by reads of single addresses. -/
def OnlyReads : ImageStep → Prop
  | .read _ | .scan | .payload | .landing _ _ => True
  | _ => False

/-- The addresses that a step reads, in the order of the reads. Bytes looked at from outside are
not read. -/
def reads (ram : Ram) : ImageStep → List UInt32
  | .read addr => Watched.readsOf ram (ImageMemory.read addr)
  | .scan | .payload => Watched.readsOf ram Scan.perform
  | .landing plan stub => Watched.readsOf ram (plan.landing stub)
  | .place _ _ | .raw _ _ | .extent => []
  | step => step.copy?.elim [] fun plan => Watched.readsOf ram plan.perform

/-- The image after a step that does not fault. -/
def left (ram : Ram) (step : ImageStep) : Ram :=
  { notedAll (step.reads ram) ram with bytes := step.contents ram }

section Steps

variable {step : ImageStep} {plan : Plan} {index : Nat} {ram : Ram} {log : Log}

theorem contents_cases (step : ImageStep) (ram : Ram) :
    (∃ offset bytes, step = .place offset bytes) ∨
      step.contents ram = step.copy?.elim ram.bytes fun plan => (ram.moved plan).bytes := by
  cases step with
  | place offset bytes => exact Or.inl ⟨offset, bytes, rfl⟩
  | _ => exact Or.inr rfl

theorem contents_of_copy (h : step.copy? = some plan) (ram : Ram) :
    step.contents ram = (ram.moved plan).bytes := by
  rcases contents_cases step ram with ⟨offset, bytes, rfl⟩ | hContents
  · cases h
  · rw [hContents, h, Option.elim_some]

theorem size_contents (step : ImageStep) (ram : Ram) :
    (step.contents ram).size = ram.bytes.size := by
  rcases contents_cases step ram with ⟨offset, bytes, rfl⟩ | hContents
  · exact Bytes.size_overwrite _ _ _
  · rw [hContents]
    cases step.copy? with
    | none => rfl
    | some plan => exact Bytes.size_copyForward _ _ _ _

theorem byteAt_contents (h : ¬ step.Fills index) (ram : Ram) :
    (step.contents ram).byteAt index = ram.bytes.byteAt index := by
  rcases contents_cases step ram with ⟨offset, bytes, rfl⟩ | hContents
  · apply Bytes.byteAt_overwrite_of_outside
    by_contra hInside
    exact h (.place (by omega) (by omega))
  · rw [hContents]
    cases hCopy : step.copy? with
    | none => rfl
    | some plan =>
        apply Bytes.byteAt_copyForward_of_outside
        by_contra hInside
        exact h (.copy hCopy (by omega) (by omega))

theorem reads_eq_nil (h : ¬ step.OnlyReads) (ram : Ram) : step.reads ram = [] := by
  cases step with
  | read | scan | payload | landing => exact absurd trivial h
  | place | raw | extent => rfl
  | copy => exact Watched.readsOf_perform _ ram
  | move => exact Watched.readsOf_perform _ ram
  | relocate => exact Watched.readsOf_perform _ ram
  | relocateGuarded start stop =>
      change (copy? (.relocateGuarded start stop)).elim [] _ = []
      cases copy? (.relocateGuarded start stop) with
      | none => rfl
      | some plan => exact Watched.readsOf_perform plan ram

theorem inRange_of_onlyReads (h : step.OnlyReads) (ram : Ram) : step.InRange ram := by
  cases step with
  | read | scan | payload | landing =>
      intro plan hCopy
      cases hCopy
  | _ => exact absurd h id

theorem not_onlyReads_of_copy (h : step.copy? = some plan) : ¬ step.OnlyReads := by
  cases step with
  | read | scan | payload | landing => cases h
  | _ => exact id

theorem inRange_iff_of_copy (h : step.copy? = some plan) (ram : Ram) :
    step.InRange ram ↔ ram.Holds plan.dest plan.src plan.length := by
  have hOnly : (∀ other, step.copy? = some other → ram.Holds other.dest other.src other.length) ↔
      ram.Holds plan.dest plan.src plan.length := by
    simp [h]
  cases step with
  | place | raw => cases h
  | _ => exact hOnly

theorem left_of_copy (h : step.copy? = some plan) (ram : Ram) : step.left ram = ram.moved plan := by
  rw [left, reads_eq_nil (not_onlyReads_of_copy h), contents_of_copy h]
  rfl

theorem left_of_contents (h : step.contents ram = ram.bytes) :
    step.left ram = notedAll (step.reads ram) ram := by
  rw [left, h, ← Ram.bytes_notedAll (step.reads ram) ram]

/-- What can come of a step: it answers, and what it fills and reads is what has happened, or it
faults, and nothing has. -/
inductive Outcome (step : ImageStep) (before : Ram) :
    EStateM.Result Fault (LoggedMemory Ram) ImageAnswer → Prop where
  | answered (answer : ImageAnswer) (log : Log) (hRange : step.InRange before)
      (hRefuses : answer.Refuses → step.contents before = before.bytes) :
      Outcome step before (.ok answer ⟨step.left before, log⟩)
  | faulted (fault : Fault) (log : Log) (hRange : ¬ step.InRange before) :
      Outcome step before (.error fault ⟨before, log⟩)

theorem outcome_of_read {addrs : List UInt32} {answer : ImageAnswer} {noted : Log}
    (hRange : step.InRange ram) (hContents : step.contents ram = ram.bytes)
    (hReads : step.reads ram = addrs)
    (h : step.perform.run ⟨ram, log⟩ = .ok answer ⟨notedAll addrs ram, noted⟩) :
    Outcome step ram (step.perform.run ⟨ram, log⟩) := by
  subst hReads
  rw [h, ← left_of_contents hContents]
  exact .answered answer noted hRange fun _ => hContents

theorem outcome_place (offset : Nat) (bytes : List UInt8) :
    Outcome (.place offset bytes) ram ((place offset bytes).perform.run ⟨ram, log⟩) := by
  by_cases hFits : ram.bytes.Fits offset bytes.length
  · have hRun : (place offset bytes).perform.run ⟨ram, log⟩ =
        .ok .done ⟨left ram (.place offset bytes), log⟩ :=
      Act.bind_ok (Act.within_ok (Ram.place_run_of_fits hFits))
    rw [hRun]
    exact .answered .done log hFits nofun
  · obtain ⟨fault, hPlace⟩ := Bytes.exists_place_run_error hFits
    have hRun : (place offset bytes).perform.run ⟨ram, log⟩ = .error fault ⟨ram, log⟩ :=
      Act.bind_error (Act.within_error (Act.within_error hPlace))
    rw [hRun]
    exact .faulted fault log hFits

theorem outcome_raw (offset length : Nat) :
    Outcome (.raw offset length) ram ((raw offset length).perform.run ⟨ram, log⟩) := by
  by_cases hFits : ram.bytes.Fits offset length
  · have hSlice := Bytes.slice_run_of_fits hFits
    exact outcome_of_read hFits rfl rfl (Act.bind_ok (Act.within_ok (Act.within_ok hSlice)))
  · obtain ⟨fault, hSlice⟩ := Bytes.exists_slice_run_error hFits
    have hRun : (raw offset length).perform.run ⟨ram, log⟩ = .error fault ⟨ram, log⟩ :=
      Act.bind_error (Act.within_error (Act.within_error hSlice))
    rw [hRun]
    exact .faulted fault log hFits

theorem outcome_of_copy {answer : ImageAnswer} {noted : Log} (hCopy : step.copy? = some plan)
    (hAnswer : ¬ answer.Refuses)
    (hOk : ∀ moved, (plan.perform : Act Ram Unit).run ram = .ok () moved →
      step.perform.run ⟨ram, log⟩ = .ok answer ⟨moved, noted⟩)
    (hError : ∀ fault left, (plan.perform : Act Ram Unit).run ram = .error fault left →
      step.perform.run ⟨ram, log⟩ = .error fault ⟨left, noted⟩) :
    Outcome step ram (step.perform.run ⟨ram, log⟩) := by
  have hRange := inRange_iff_of_copy hCopy ram
  by_cases hHolds : ram.Holds plan.dest plan.src plan.length
  · rw [hOk _ (Ram.perform_run_of_holds hHolds), ← left_of_copy hCopy]
    exact .answered answer noted (hRange.mpr hHolds) fun hRefuses => absurd hRefuses hAnswer
  · rw [hError _ _ (Ram.perform_run_of_not_holds hHolds)]
    exact .faulted _ noted (mt hRange.mp hHolds)

theorem outcome_relocateGuarded (start stop : UInt32) :
    Outcome (.relocateGuarded start stop) ram
      ((relocateGuarded start stop).perform.run ⟨ram, log⟩) := by
  cases hPlan : Plan.guarded start stop with
  | error error =>
      have hCopy : copy? (.relocateGuarded start stop) = none := congrArg Except.toOption hPlan
      have hRange : InRange ram (.relocateGuarded start stop) := by
        intro plan h
        rw [hCopy] at h
        cases h
      have hContents : contents ram (.relocateGuarded start stop) = ram.bytes := by
        rw [contents, hCopy, Option.elim_none]
        rintro _ _ ⟨⟩
      apply outcome_of_read hRange hContents (reads_eq_nil id ram)
      rw [perform, hPlan]
      rfl
  | ok plan =>
      have hCopy : copy? (.relocateGuarded start stop) = some plan := congrArg Except.toOption hPlan
      have hAnswer : ¬ (ImageAnswer.plan (.ok plan)).Refuses := id
      apply outcome_of_copy hCopy hAnswer
      · intro moved h
        rw [perform, hPlan]
        exact Act.bind_ok (LoggedMemory.copy_run h)
      · intro fault left h
        rw [perform, hPlan]
        exact Act.bind_error (LoggedMemory.copy_run_error h)

theorem outcome_perform (step : ImageStep) (ram : Ram) (log : Log) :
    Outcome step ram (step.perform.run ⟨ram, log⟩) := by
  cases step with
  | place offset bytes => exact outcome_place offset bytes
  | read addr =>
      have hReads : OnlyReads (.read addr) := trivial
      exact outcome_of_read (inRange_of_onlyReads hReads ram) rfl (Watched.readsOf_read addr ram)
        rfl
  | raw offset length => exact outcome_raw offset length
  | extent =>
      have hRange : InRange ram .extent := fun plan hCopy => nomatch hCopy
      exact outcome_of_read hRange rfl rfl rfl
  | scan =>
      have hReads : OnlyReads .scan := trivial
      exact outcome_of_read (inRange_of_onlyReads hReads ram) rfl (Watched.readsOf_scan ram)
        (Act.bind_ok (LoggedMemory.scan_run (Scan.perform_run ram)))
  | payload =>
      have hReads : OnlyReads .payload := trivial
      exact outcome_of_read (inRange_of_onlyReads hReads ram) rfl (Watched.readsOf_scan ram)
        (Act.bind_ok (LoggedMemory.scan_run (Scan.perform_run ram)))
  | landing plan stub =>
      have hReads : OnlyReads (.landing plan stub) := trivial
      exact outcome_of_read (inRange_of_onlyReads hReads ram) rfl
        (Watched.readsOf_landing plan stub ram)
        (Act.bind_ok (LoggedMemory.landing_run (plan.landing_run stub ram)))
  | copy dest src length =>
      exact outcome_of_copy rfl id (fun moved h => Act.bind_ok (Act.within_ok h))
        fun fault left h => Act.bind_error (Act.within_error h)
  | move plan =>
      exact outcome_of_copy rfl id (fun moved h => Act.bind_ok (LoggedMemory.copy_run h))
        fun fault left h => Act.bind_error (LoggedMemory.copy_run_error h)
  | relocate start stop =>
      exact outcome_of_copy rfl id (fun moved h => Act.bind_ok (LoggedMemory.copy_run h))
        fun fault left h => Act.bind_error (LoggedMemory.copy_run_error h)
  | relocateGuarded start stop => exact outcome_relocateGuarded start stop

end Steps

/-- An image after a step against the image before it. -/
structure Effect (step : ImageStep) (before : Ram)
    (result : EStateM.Result Fault (LoggedMemory Ram) ImageAnswer) : Prop where
  size_eq : (Act.reached result).memory.bytes.size = before.bytes.size
  extent_eq : (Act.reached result).memory.extent.toNat =
    max before.extent.toNat (Ram.farthest (step.reads before))
  extent_kept : ¬ step.OnlyReads → (Act.reached result).memory.extent = before.extent
  outside : ∀ index, ¬ step.Fills index →
    (Act.reached result).memory.bytes.byteAt index = before.bytes.byteAt index
  contents_eq : ∀ answer after, result = .ok answer after →
    after.memory.bytes = step.contents before
  kept_of_fault : ∀ fault after, result = .error fault after → after.memory = before
  kept_of_refusal : ∀ answer after, result = .ok answer after → answer.Refuses →
    after.memory.bytes = before.bytes
  answers : step.OnlyReads → ∃ answer after, result = .ok answer after
  answers_iff : (∃ answer after, result = .ok answer after) ↔ step.InRange before

theorem Outcome.effect {step : ImageStep} {before : Ram}
    {result : EStateM.Result Fault (LoggedMemory Ram) ImageAnswer}
    (h : Outcome step before result) : Effect step before result := by
  cases h with
  | answered answer log hRange hRefuses =>
      refine {
        size_eq := size_contents step before
        extent_eq := Ram.toNat_extent_notedAll _ _
        extent_kept := fun hReads => ?_
        outside := fun index hOutside => byteAt_contents hOutside before
        contents_eq := ?_
        kept_of_fault := nofun
        kept_of_refusal := ?_
        answers := fun _ => ⟨_, _, rfl⟩
        answers_iff := iff_of_true ⟨_, _, rfl⟩ hRange }
      · change (notedAll (step.reads before) before).extent = _
        rw [reads_eq_nil hReads, notedAll_nil]
      · rintro _ _ ⟨⟩
        rfl
      · rintro _ _ ⟨⟩
        exact hRefuses
  | faulted fault log hRange =>
      have hReads : ¬ step.OnlyReads := fun h => hRange (inRange_of_onlyReads h before)
      refine {
        size_eq := rfl
        extent_eq := ?_
        extent_kept := fun _ => rfl
        outside := fun _ _ => rfl
        contents_eq := nofun
        kept_of_fault := ?_
        kept_of_refusal := nofun
        answers := fun h => absurd h hReads
        answers_iff := iff_of_false nofun hRange }
      · rw [reads_eq_nil hReads]
        exact (Nat.max_zero _).symm
      · rintro _ _ ⟨⟩
        rfl

/-- The image and the log that a step leaves, also when it faults. -/
def after (image : LoggedMemory Ram) (step : ImageStep) : LoggedMemory Ram :=
  Act.reached (step.perform.run image)

def afterAll (image : LoggedMemory Ram) (steps : List ImageStep) : LoggedMemory Ram :=
  steps.foldl after image

/-- The addresses that the steps read, one step after the other. -/
def readsAll (image : LoggedMemory Ram) : List ImageStep → List UInt32
  | [] => []
  | step :: rest => step.reads image.memory ++ readsAll (after image step) rest

/-- One of the steps was to fill the byte at an index, and it did not fault. -/
inductive Filled (index : Nat) : LoggedMemory Ram → List ImageStep → Prop where
  | here {image reached : LoggedMemory Ram} {step : ImageStep} {rest : List ImageStep}
      {answer : ImageAnswer} (hFills : step.Fills index)
      (hRun : step.perform.run image = .ok answer reached) : Filled index image (step :: rest)
  | later {image : LoggedMemory Ram} {step : ImageStep} {rest : List ImageStep}
      (h : Filled index (after image step) rest) : Filled index image (step :: rest)

theorem effect_run (step : ImageStep) (image : LoggedMemory Ram) :
    Effect step image.memory (step.perform.run image) :=
  (outcome_perform step image.memory image.log).effect

namespace Effect

variable {step : ImageStep} {image : LoggedMemory Ram} {index : Nat}

theorem extent_le (h : Effect step image.memory (step.perform.run image)) :
    image.memory.extent ≤ (after image step).memory.extent := by
  have hExtent : (after image step).memory.extent.toNat = _ := h.extent_eq
  rw [UInt32.le_iff_toNat_le, hExtent]
  exact Nat.le_max_left _ _

theorem byteAt_after (h : Effect step image.memory (step.perform.run image))
    (hUnfilled : ∀ answer reached, step.perform.run image = .ok answer reached →
      ¬ step.Fills index) :
    (after image step).memory.bytes.byteAt index = image.memory.bytes.byteAt index := by
  cases hRun : step.perform.run image with
  | ok answer reached => exact h.outside index (hUnfilled answer reached hRun)
  | error fault reached =>
      -- The range of a step that faulted is as unharmed as the rest.
      have hKept := h.kept_of_fault fault reached hRun
      rw [after, hRun]
      exact congrArg (·.bytes.byteAt index) hKept

end Effect

theorem size_afterAll (image : LoggedMemory Ram) (steps : List ImageStep) :
    (afterAll image steps).memory.bytes.size = image.memory.bytes.size := by
  induction steps generalizing image with
  | nil => rfl
  | cons step rest ih => exact (ih (after image step)).trans (effect_run step image).size_eq

theorem extent_afterAll (image : LoggedMemory Ram) (steps : List ImageStep) :
    (afterAll image steps).memory.extent.toNat =
      max image.memory.extent.toNat (Ram.farthest (readsAll image steps)) := by
  induction steps generalizing image with
  | nil => exact (Nat.max_zero _).symm
  | cons step rest ih =>
      have hStep : (after image step).memory.extent.toNat = _ := (effect_run step image).extent_eq
      change (afterAll (after image step) rest).memory.extent.toNat = _
      rw [ih, hStep, readsAll, Ram.farthest_append, Nat.max_assoc]

theorem byteAt_afterAll {index : Nat} {image : LoggedMemory Ram} {steps : List ImageStep}
    (h : ¬ Filled index image steps) :
    (afterAll image steps).memory.bytes.byteAt index = image.memory.bytes.byteAt index := by
  induction steps generalizing image with
  | nil => rfl
  | cons step rest ih =>
      have hStep := (effect_run step image).byteAt_after fun answer reached hRun hFills =>
        h (.here hFills hRun)
      exact (ih fun hLater => h (.later hLater)).trans hStep

def fresh (size : Nat) : LoggedMemory Ram := { memory := .blank size }

theorem byteAt_fresh (size index : Nat) : (fresh size).memory.bytes.byteAt index = 0 :=
  Bytes.byteAt_replicate_zero size index

/-- Whatever is done to an image of some size, its size stays, its extent is that of the farthest
read, and a byte that no step has filled is zero. The next step keeps to that too: only its own
reads move the extent, and it fills its range and nothing else, or no byte at all when it faults or
refuses. It faults exactly when its range leaves the image, and never when it only reads. -/
theorem image_history (size : Nat) (steps : List ImageStep) (step : ImageStep) :
    (afterAll (fresh size) steps).memory.bytes.size = size ∧
      (afterAll (fresh size) steps).memory.extent.toNat =
        Ram.farthest (readsAll (fresh size) steps) ∧
      (∀ index, ¬ Filled index (fresh size) steps →
        (afterAll (fresh size) steps).memory.bytes.byteAt index = 0) ∧
      Effect step (afterAll (fresh size) steps).memory
        (step.perform.run (afterAll (fresh size) steps)) ∧
      (afterAll (fresh size) steps).memory.extent ≤
        (afterAll (fresh size) (steps ++ [step])).memory.extent := by
  have hEffect := effect_run step (afterAll (fresh size) steps)
  have hNext : afterAll (fresh size) (steps ++ [step]) = after (afterAll (fresh size) steps) step :=
    List.foldl_append ..
  refine ⟨?_, ?_, fun index hUnfilled => ?_, hEffect, ?_⟩
  · rw [size_afterAll]
    exact Array.size_replicate
  · rw [extent_afterAll]
    exact Nat.zero_max _
  · rw [byteAt_afterAll hUnfilled]
    exact byteAt_fresh size index
  · rw [hNext]
    exact hEffect.extent_le

end ImageStep

end FirstStage
