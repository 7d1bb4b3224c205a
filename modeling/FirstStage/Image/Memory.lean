import FirstStage.Fault

/-! # Image memory

The loaded image, addressed by words from its base. Scanning, relocation and the check of a stub
know a memory only by these two acts.
-/

namespace FirstStage

class ImageMemory (M : Type) where
  read : (addr : UInt32) → Act M UInt8
  /-- Copies forward, lowest address first. -/
  copy : (dest src length : UInt32) → Act M Unit

/-- A memory in which every address can be read and reading leaves the bytes alone. A read may
still be noted in the memory. -/
class ReadableMemory (M : Type) extends ImageMemory M where
  view : M → UInt32 → UInt8
  noted : UInt32 → M → M
  read_eq : ∀ addr memory, (read addr).run memory = .ok (view memory addr) (noted addr memory)
  view_noted : ∀ addr memory, view (noted addr memory) = view memory

end FirstStage
