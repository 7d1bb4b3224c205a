import FirstStage.Output.Display
import FirstStage.Run.LoggedMemory
import FirstStage.Run.Report

/-! # The run of the stage

A rig is a memory with its log, a display, the jumps made so far and the trace. A run announces
its argument, surveys the image, shows the bounds, makes the copy, checks the stub, calls it and
enters the second stage. What called code does to the rig before it comes back is a parameter.
-/

namespace FirstStage

inductive Jump where
  | stub (addr : UInt32)
  | stage2 (offset : UInt32)
  deriving DecidableEq

structure Rig (M D : Type) extends LoggedMemory M where
  display : D
  jumps : List Jump := []
  trace : Trace := .empty

/-- What the code behind a jump does before it returns. -/
abbrev Processor (M D : Type) : Type := Jump → Act (Rig M D) Unit

/-- Called code that does nothing. -/
def Processor.inert {M D : Type} : Processor M D := fun _ => pure ()

namespace Rig

variable {M D : Type}

/-- A rig before its run. -/
def fresh (memory : M) (display : D) : Rig M D := { memory, display }

def onLogged {α : Type} (act : Act (LoggedMemory M) α) : Act (Rig M D) α :=
  act.within Rig.toLoggedMemory (fun logged rig => { rig with toLoggedMemory := logged })

def onDisplay {α : Type} (act : Act D α) : Act (Rig M D) α :=
  act.within Rig.display (fun display rig => { rig with display })

def note (entry : LogEntry) : Act (Rig M D) Unit := onLogged (LoggedMemory.note entry)

def enter (state : State) : Act (Rig M D) Unit := do
  note (.state state)
  modify fun rig => { rig with trace := rig.trace.push state }

/-- A jump is recorded and then made. -/
def jump (processor : Processor M D) (target : Jump) : Act (Rig M D) Unit := do
  modify fun rig => { rig with jumps := rig.jumps ++ [target] }
  processor target

section Phases

variable [ImageMemory M] [Display D]

def say (text : String) : Act (Rig M D) Unit := onDisplay (modify (Display.text (utf8 text)))

def sayDecimal (num : UInt32) : Act (Rig M D) Unit := onDisplay (Display.decimal num)

def announce (argument : UInt32) : Act (Rig M D) Unit := do
  enter .entered
  enter .showingArgument
  sayDecimal argument
  note (.entryArgument argument)

def survey : Act (Rig M D) Scan := do
  enter .scanning
  let scan ← onLogged LoggedMemory.scan
  if scan.ranOut then
    enter .ranOut
    say exhaustedRemark
  else
    enter .endFound
  return scan

def showBounds (scan : Scan) : Act (Rig M D) Unit := do
  enter .showingBounds
  say "S: "
  sayDecimal scan.start
  say "  E: "
  sayDecimal scan.stop
  say "  "

/-- Comes to rest; the report gets the whole trace. -/
def rest (report : Report) : Act (Rig M D) Report := do
  enter .idle
  return { report with trace := (← get).trace }

def refuse (report : Report) (refusal : Refusal) : Act (Rig M D) Report := do
  note (.refusal refusal)
  say refusal.token
  rest { report with refusal? := some refusal }

/-- Makes the copy and checks where the stub has landed. -/
def relocate (plan : Plan) (stub : Stub) : Act (Rig M D) (Except LandingError UInt32) := do
  enter .relocating
  onLogged (LoggedMemory.copy plan)
  enter .selfTesting
  onLogged (LoggedMemory.landing plan stub)

/-- Calls the relocated stub and enters the second stage. -/
def handOver (processor : Processor M D) (stub : Stub) : Act (Rig M D) Unit := do
  jump processor (.stub (stub.shiftedBy Layout.payloadShift))
  enter .handingOver
  jump processor (.stage2 Layout.payloadShift)
  note .returned

/-- Only the strict mode lets a bad landing keep it from the jump. -/
def transfer (processor : Processor M D) (mode : Mode) (stub : Stub) (report : Report)
    (plan : Plan) : Act (Rig M D) Report := do
  let landing ← relocate plan stub
  let report := { report with plan? := some plan, landing? := some landing }
  match landing, mode with
  | .error error, .strict => refuse report (.landing error)
  | .error error, .lenient => do
      note (.warning error)
      handOver processor stub
      rest report
  | .ok _, _ => do
      handOver processor stub
      rest report

def run (processor : Processor M D) (mode : Mode) (stub : Stub) (argument : UInt32) :
    Act (Rig M D) Report := do
  announce argument
  let scan ← survey
  showBounds scan
  let report : Report := { argument, scan, trace := (← get).trace }
  match mode.plan scan with
  | .error refusal => refuse report refusal
  | .ok plan => transfer processor mode stub report plan

end Phases

end Rig

end FirstStage
