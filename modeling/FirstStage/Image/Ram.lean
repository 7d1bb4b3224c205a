import FirstStage.Bytes.Forward
import FirstStage.Image.Memory

/-! # An image in an array

Addresses past the array read as zero, and a copy that would leave the array is refused. The image
notes how far it has been read.
-/

namespace FirstStage

structure Ram where
  bytes : Bytes
  /-- The highest address read plus one, held at the largest word. -/
  extent : UInt32 := 0
  deriving DecidableEq

namespace Ram

def blank (size : Nat) : Ram := { bytes := Array.replicate size 0 }

/-- The least word above `addr`, or `addr` itself when it is the largest. -/
def nextWord (addr : UInt32) : UInt32 := if addr = 0xFFFFFFFF then addr else addr + 1

def note (addr : UInt32) (ram : Ram) : Ram :=
  if ram.extent < nextWord addr then { ram with extent := nextWord addr } else ram

def view (ram : Ram) (addr : UInt32) : UInt8 := ram.bytes.byteAt addr.toNat

@[simp]
theorem bytes_note (addr : UInt32) (ram : Ram) : (ram.note addr).bytes = ram.bytes := by
  unfold note
  split <;> rfl

/-- Runs an act on the bytes alone; the extent does not move. -/
def onBytes {α : Type} (act : Act Bytes α) : Act Ram α :=
  act.within (·.bytes) (fun bytes ram => { ram with bytes })

def place (offset : Nat) (new : List UInt8) : Act Ram Unit := onBytes (Bytes.place offset new)

/-- Bytes looked at from outside the machine. -/
def raw (offset length : Nat) : Act Ram (List UInt8) := onBytes (Bytes.slice offset length)

/-- Both ranges of the copy lie inside the image. -/
def Holds (ram : Ram) (dest src length : UInt32) : Prop :=
  ram.bytes.Fits src.toNat length.toNat ∧ ram.bytes.Fits dest.toNat length.toNat

instance (ram : Ram) (dest src length : UInt32) : Decidable (ram.Holds dest src length) :=
  inferInstanceAs (Decidable (_ ∧ _))

def copy (dest src length : UInt32) : Act Ram Unit := fun ram =>
  if ram.Holds dest src length then
    .ok () { ram with bytes := ram.bytes.copyForward dest.toNat src.toNat length.toNat }
  else .error .copyOutside ram

instance : ReadableMemory Ram where
  read addr := fun ram => .ok (ram.view addr) (ram.note addr)
  copy := copy
  view := view
  noted := note
  read_eq _ _ := rfl
  view_noted addr ram := by
    funext a
    simp only [view, bytes_note]

end Ram

end FirstStage
