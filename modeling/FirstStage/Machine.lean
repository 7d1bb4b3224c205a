import FirstStage.Image.Window
import FirstStage.Output.Screen
import FirstStage.Run.Rig

/-! # The machine

The stage on physical memory and the text screen. Calling an address runs the code found there;
the only code that the machine runs is a single store to the screen, followed by a return.
-/

namespace FirstStage

/-- One byte stored at an absolute address. -/
structure StoreCode where
  address : UInt32
  value : UInt8
  deriving DecidableEq

namespace StoreCode

def length : Nat := 9

/-- The number spelled by four bytes, the lowest first. -/
def littleEndian (b0 b1 b2 b3 : UInt8) : UInt32 :=
  b0.toUInt32 ||| b1.toUInt32 <<< 8 ||| b2.toUInt32 <<< 16 ||| b3.toUInt32 <<< 24

/-- `mov byte ptr [address], value` and `ret`. -/
def decode? : List UInt8 → Option StoreCode
  | [0xC6, 0x04, 0x25, b0, b1, b2, b3, value, 0xC3] => some ⟨littleEndian b0 b1 b2 b3, value⟩
  | _ => none

end StoreCode

/-- Stores at a physical address, if that address is on the screen. -/
def Screen.store? (code : StoreCode) (screen : Screen) : Option Screen :=
  let address := code.address.toNat
  if Layout.screenBase ≤ address ∧ address < Layout.screenBase + screen.vram.size then
    some { screen with
      vram := screen.vram.setIfInBounds (address - Layout.screenBase) code.value }
  else none

abbrev Machine : Type := Rig (Window Fence) Screen

namespace Machine

/-- The cells of the screen memory. -/
def screenCells : Nat := 0x4000

/-- Zeroed memory behind a fence, and a screen of grey blanks. -/
def start : Machine := Rig.fresh (.zeroed ⟨⟩) (Screen.filled screenCells 0x20 0x07)

variable {σ : Type}

/-- The screen after the code at an address has run, if there is code. -/
def called? (machine : Rig (Window σ) Screen) (addr : UInt32) : Option Screen := do
  let bytes := machine.memory.bytes.extract addr.toNat (addr.toNat + StoreCode.length)
  let code ← StoreCode.decode? bytes.toList
  machine.display.store? code

/-- Real jumps. The second stage returns at once. -/
def direct : Processor (Window σ) Screen
  | .stub addr => do
      let machine ← get
      match called? machine addr with
      | some display => set { machine with display }
      | none => throw .notCode
  | .stage2 _ => pure ()

def selfTest : Act Machine Unit := Rig.onDisplay (modify Screen.selfTest)

end Machine

/-- The right to use physical memory, given out once. -/
structure Capability where
  taken : Bool := false

/-- Whether the right was given, and the capability after that. -/
def Capability.take (capability : Capability) : Bool × Capability :=
  (!capability.taken, { taken := true })

/-- What the processor does when it is parked. -/
inductive ParkEvent where
  | maskInterrupts
  | halt
  deriving DecidableEq

/-- Interrupts are masked once, and all that follows is halting. -/
def park : (time : Nat) → ParkEvent
  | 0 => .maskInterrupts
  | _ + 1 => .halt

end FirstStage
