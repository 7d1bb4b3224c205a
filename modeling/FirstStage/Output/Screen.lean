import FirstStage.Output.Display

/-! # The text screen

Cells of a character and an attribute. The cursor moves on before each character, so the first one
lands in cell 1; cell 0 belongs to the self test, and attributes are never written. Nothing wraps
at the end of the screen.
-/

namespace FirstStage

structure Screen where
  vram : Bytes
  /-- Characters put so far, which is the cell of the latest. -/
  written : Nat := 0
  deriving DecidableEq

namespace Screen

def filled (cells : Nat) (character attr : UInt8) : Screen :=
  { vram := ((List.replicate cells [character, attr]).flatten).toArray }

def character? (screen : Screen) (cell : Nat) : Option UInt8 :=
  screen.vram[Layout.cellSize * cell]?

def attr? (screen : Screen) (cell : Nat) : Option UInt8 :=
  screen.vram[Layout.cellSize * cell + 1]?

def setCharacter (cell : Nat) (value : UInt8) (screen : Screen) : Screen :=
  { screen with vram := screen.vram.setIfInBounds (Layout.cellSize * cell) value }

@[simp]
theorem size_setCharacter (cell : Nat) (value : UInt8) (screen : Screen) :
    (screen.setCharacter cell value).vram.size = screen.vram.size :=
  Array.size_setIfInBounds

def put (value : UInt8) (screen : Screen) : Screen :=
  { screen.setCharacter (screen.written + 1) value with written := screen.written + 1 }

instance : Display Screen := ⟨put⟩

/-- The sign that the self test leaves in cell 0. -/
def selfTestSign : UInt8 := 0x71

/-- What the self test does, from whichever copy it runs. -/
def selfTest (screen : Screen) : Screen := screen.setCharacter 0 selfTestSign

end Screen

end FirstStage
