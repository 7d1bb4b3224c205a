/-! # Layout

The numbers agreed with whoever builds the boot image. The payload is linked to run
`payloadShift` above the place where it is loaded, and both of its markers begin at or below
`lastMarkerOffset`.
-/

namespace FirstStage.Layout

/-- How far up a payload is moved. -/
def payloadShift : UInt32 := 0x10000

/-- The last offset at which a marker may begin. -/
def lastMarkerOffset : Nat := 0xFFFF

/-- Physical address of the first byte of the colour text screen. -/
def screenBase : Nat := 0xB8000

/-- A cell is a character byte and an attribute byte. -/
def cellSize : Nat := 2

/-- Room for the ten digits of the largest word, a terminator and one byte of slack. -/
def decimalFieldSize : Nat := 12

/-- How many bytes of a stub are compared with its relocated copy, at most. -/
def probeLimit : Nat := 16

/-- The tested offsets end below the lowest address that a copy can write. -/
theorem lastMarkerOffset_lt_payloadShift : lastMarkerOffset < payloadShift.toNat := by decide

end FirstStage.Layout
