import FirstStage.Proofs.Framing.Enclosure
import FirstStage.Proofs.Image.Windowed
import FirstStage.Proofs.Run.Called
import FirstStage.Proofs.Run.Faults

/-! # Runs on the machine's memory

A run on the window of the machine is the run on an image of its size and bytes, up to the call of
the stub, and it reaches nothing outside the window. The exception is the copy of bounds in the
wrong order, which leaves the window. No image has room for it, and what becomes of the window is
then up to the rest of the machine.
-/

namespace FirstStage

open Surroundings

variable {σ : Type} [Surroundings σ]

namespace Course

variable {mode : Mode} {stub : Stub} {scan : Scan} {plan : Plan} {window : Window σ} {ram : Ram}

end Course

namespace Rig

variable {D D' : Type} [Display D] [Display D'] {display : D} {display' : D'}
variable {processor : Processor (Window σ) D} {processor' : Processor Ram D'}
variable {mode : Mode} {stub : Stub} {scan : Scan} {window : Window σ} {ram : Ram}

namespace AgreesUpToCall

variable {result : EStateM.Result Fault (Rig (Window σ) D) Report}
variable {result' : EStateM.Result Fault (Rig Ram D') Report}

end AgreesUpToCall

/-- A payload that is the self test, in an image of the size of the window. -/
def selfTesting : Enclosure where
  before := []
  openLow := 0x21
  openHigh := 0x73
  opens := by decide
  body := Machine.selfTestCode
  closeLow := 0xBE
  closeHigh := 0xEF
  closes := by decide
  behind := List.replicate (Window.span - 13) 0

end Rig

end FirstStage
