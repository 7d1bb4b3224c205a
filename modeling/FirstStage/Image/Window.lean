import FirstStage.Bytes.Forward
import FirstStage.Image.Memory

/-! # A window on physical memory

The machine's low memory as far as it is mapped. Nothing in it refuses an address. A copy moves one
byte after another, lowest address first, and what an address outside the window leads to is up to
the rest of the machine, which is a parameter.
-/

namespace FirstStage

namespace Window

/-- The size of the machine's window. -/
def span : Nat := 0x30000

/-- Both ranges of a copy lie inside the window. -/
def Inside (dest src length : UInt32) : Prop :=
  src.toNat + length.toNat ≤ span ∧ dest.toNat + length.toNat ≤ span

instance (dest src length : UInt32) : Decidable (Inside dest src length) :=
  inferInstanceAs (Decidable (_ ∧ _))

end Window

/-- The rest of a machine, with a state of its own. A machine may be watched from outside, and then
`approach` is what the watch makes of a copy that is about to begin. It minds no copy that stays
inside the window. -/
class Surroundings (σ : Type) where
  approach : (dest src length : UInt32) → Act σ Unit
  read : (addr : Nat) → Act σ UInt8
  write : (addr : Nat) → (value : UInt8) → Act σ Unit
  approach_of_inside : ∀ {dest src length : UInt32}, Window.Inside dest src length →
    ∀ rest, (approach dest src length).run rest = .ok () rest

namespace Surroundings

variable (σ : Type) [Surroundings σ]

/-- A copy that would leave the window is stopped before its first byte. -/
def Guarded : Prop :=
  ∀ {dest src length : UInt32}, ¬ Window.Inside dest src length →
    ∀ rest : σ, (approach dest src length).run rest = .error .windowLeft rest

end Surroundings

structure Window (σ : Type) where
  bytes : Bytes
  outside : σ

namespace Window

section Window

variable {σ α : Type}

def zeroed (outside : σ) : Window σ := ⟨Array.replicate span 0, outside⟩

def onBytes (act : Act Bytes α) : Act (Window σ) α :=
  act.within (·.bytes) (fun bytes window => { window with bytes })

def onOutside (act : Act σ α) : Act (Window σ) α :=
  act.within (·.outside) (fun outside window => { window with outside })

def place (offset : Nat) (new : List UInt8) : Act (Window σ) Unit :=
  onBytes (Bytes.place offset new)

variable [Surroundings σ]

def load (addr : Nat) : Act (Window σ) UInt8 := fun window =>
  if h : addr < window.bytes.size then .ok window.bytes[addr] window
  else onOutside (Surroundings.read addr) window

def store (addr : Nat) (value : UInt8) : Act (Window σ) Unit := fun window =>
  if addr < window.bytes.size then
    .ok () { window with bytes := window.bytes.setIfInBounds addr value }
  else onOutside (Surroundings.write addr value) window

def moveByte (dest src : Nat) : Act (Window σ) Unit := do
  let value ← load src
  store dest value

/-- The bytes of a copy from the `i`th on, while there are some left. -/
def moveFrom (dest src i : Nat) : (left : Nat) → Act (Window σ) Unit
  | 0 => pure ()
  | left + 1 => do
      -- Addresses are numbers here. A copy is past the window long before a word would wrap.
      moveByte (dest + i) (src + i)
      moveFrom dest src (i + 1) left

def copy (dest src length : UInt32) : Act (Window σ) Unit := do
  onOutside (Surroundings.approach dest src length)
  moveFrom dest.toNat src.toNat 0 length.toNat

instance : ImageMemory (Window σ) := ⟨fun addr => load addr.toNat, copy⟩

end Window

end Window

/-- The rest of a machine that is watched: nothing gets past the window, and a copy that would is
not begun. -/
structure Fence where

namespace Fence

instance : Surroundings Fence where
  approach dest src length :=
    if Window.Inside dest src length then pure () else throw .windowLeft
  read _ := throw .windowLeft
  write _ _ := throw .windowLeft
  approach_of_inside h rest := congrArg (EStateM.run · rest) (if_pos h)

theorem guarded : Surroundings.Guarded Fence := fun h rest =>
  congrArg (EStateM.run · rest) (if_neg h)

end Fence

namespace Wall

instance : Surroundings Wall where
  approach _ _ _ := pure ()
  read _ := throw .windowLeft
  write _ _ := throw .windowLeft
  approach_of_inside _ _ := rfl

end Wall

end FirstStage
