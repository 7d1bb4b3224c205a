import FirstStage.Proofs.Image.Alike
import FirstStage.Proofs.Run.StrictDecision

/-! # The strict mode beside the lenient mode

Both modes run alike up to the plan, and a strict run that is not refused goes on as the lenient
run does. A refused run has stopped early, and it shows nothing more but the token of its refusal.
-/

namespace FirstStage

namespace Rig

variable {M D : Type} [Display D]

variable [ReadableMemory M]

end Rig

end FirstStage
