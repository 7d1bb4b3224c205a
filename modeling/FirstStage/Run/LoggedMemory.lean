import FirstStage.Run.Log

/-! # A memory with its log

Scanning and copying are noted in the log: the scan after it was made, the copy before a byte
moves, so that the entry of a copy that faults is there.
-/

namespace FirstStage

structure LoggedMemory (M : Type) where
  memory : M
  log : Log := []

namespace LoggedMemory

variable {M : Type}

def onMemory {α : Type} (act : Act M α) : Act (LoggedMemory M) α :=
  act.within (·.memory) (fun memory logged => { logged with memory })

def note (entry : LogEntry) : Act (LoggedMemory M) Unit :=
  modify fun logged => { logged with log := logged.log ++ [entry] }

variable [ImageMemory M]

def scan : Act (LoggedMemory M) Scan := do
  let scan ← onMemory Scan.perform
  note (.scan scan)
  return scan

def copy (plan : Plan) : Act (LoggedMemory M) Unit := do
  note (.copy plan)
  onMemory plan.perform

def landing (plan : Plan) (stub : Stub) : Act (LoggedMemory M) (Except LandingError UInt32) :=
  onMemory (plan.landing stub)

end LoggedMemory

end FirstStage
