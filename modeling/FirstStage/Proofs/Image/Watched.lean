import FirstStage.Proofs.Framing.Walk
import FirstStage.Proofs.Image.Alike
import FirstStage.Proofs.Relocation.Verdict

/-! # A memory that keeps the addresses read from it

Each address is kept when it is read, in the order of the reads, and the memory itself answers. What
an act reads is what such a memory has kept after it.
-/

namespace FirstStage

structure Watched (M : Type) where
  memory : M
  reads : List UInt32 := []

namespace Watched

variable {M : Type}

def onMemory {α : Type} (act : Act M α) : Act (Watched M) α :=
  act.within (·.memory) (fun memory watched => { watched with memory })

instance (priority := low) [ImageMemory M] : ImageMemory (Watched M) where
  read addr := do
    modify fun watched => { watched with reads := watched.reads ++ [addr] }
    onMemory (ImageMemory.read addr)
  copy dest src length := onMemory (ImageMemory.copy dest src length)

instance [ReadableMemory M] : ReadableMemory (Watched M) where
  toImageMemory := inferInstance
  view watched := ReadableMemory.view watched.memory
  noted addr watched :=
    { memory := ReadableMemory.noted addr watched.memory, reads := watched.reads ++ [addr] }
  read_eq addr watched :=
    (Act.bind_ok rfl).trans (Act.within_ok (ReadableMemory.read_eq addr watched.memory))
  view_noted addr watched := ReadableMemory.view_noted addr watched.memory

/-- The addresses that an act reads from a memory. -/
def readsOf {α : Type} (memory : M) (act : Act (Watched M) α) : List UInt32 :=
  (Act.reached (act.run ⟨memory, []⟩)).reads

theorem readsOf_of_ok {α : Type} {act : Act (Watched M) α} {memory : M} {a : α}
    {watched : Watched M} (h : act.run ⟨memory, []⟩ = .ok a watched) :
    readsOf memory act = watched.reads := by
  rw [readsOf, h]
  rfl

theorem reads_within {α : Type} (act : Act M α) (watched : Watched M) :
    (Act.reached ((onMemory act).run watched)).reads = watched.reads := by
  rw [onMemory, Act.reached_within]

section Noted

variable [ReadableMemory M]

theorem notedAll_eq (addrs : List UInt32) (watched : Watched M) :
    notedAll addrs watched = ⟨notedAll addrs watched.memory, watched.reads ++ addrs⟩ := by
  induction addrs generalizing watched with
  | nil => rw [notedAll_nil, notedAll_nil, List.append_nil]
  | cons addr addrs ih =>
      rw [notedAll_cons, ih, notedAll_cons]
      change (⟨_, watched.reads ++ [addr] ++ addrs⟩ : Watched M) = _
      rw [List.append_assoc, List.singleton_append]
      rfl

theorem readsOf_of_notedAll {α : Type} {act : Act (Watched M) α} {memory : M} {a : α}
    {addrs : List UInt32} (h : act.run ⟨memory, []⟩ = .ok a (notedAll addrs ⟨memory, []⟩)) :
    readsOf memory act = addrs := by
  rw [readsOf_of_ok h, notedAll_eq, List.nil_append]

theorem readsOf_read (addr : UInt32) (memory : M) :
    readsOf memory (ImageMemory.read addr) = [addr] :=
  readsOf_of_notedAll (ReadableMemory.read_eq addr (⟨memory, []⟩ : Watched M))

theorem readsOf_scan (memory : M) :
    readsOf memory Scan.perform =
      pairAddresses 0 ((Scan.ofView (ReadableMemory.view memory)).lastTested + 1) :=
  readsOf_of_notedAll (Scan.perform_run (⟨memory, []⟩ : Watched M))

theorem readsOf_landing (plan : Plan) (stub : Stub) (memory : M) :
    readsOf memory (plan.landing stub) = plan.probed (ReadableMemory.view memory) stub :=
  readsOf_of_notedAll (plan.landing_run stub (⟨memory, []⟩ : Watched M))

end Noted

theorem readsOf_perform [ImageMemory M] (plan : Plan) (memory : M) :
    readsOf memory plan.perform = [] := reads_within _ _

end Watched

end FirstStage
