/-! # Markers

A payload carries no length. Two markers of two bytes frame it, and each is accepted in either
byte order.
-/

namespace FirstStage

structure Marker where
  first : UInt8
  second : UInt8
  deriving DecidableEq

namespace Marker

/-- The first two bytes of a payload. -/
def opening : Marker := ⟨0x21, 0x73⟩

/-- The two bytes that follow a payload. -/
def closing : Marker := ⟨0xBE, 0xEF⟩

def bytes (marker : Marker) : List UInt8 := [marker.first, marker.second]

def swapped (marker : Marker) : Marker := ⟨marker.second, marker.first⟩

/-- Two neighbouring bytes, the lower address first, are the marker or the swapped marker. -/
def Accepts (marker : Marker) (low high : UInt8) : Prop :=
  (low = marker.first ∧ high = marker.second) ∨ (low = marker.second ∧ high = marker.first)

instance (marker : Marker) (low high : UInt8) : Decidable (marker.Accepts low high) :=
  inferInstanceAs (Decidable (_ ∨ _))

theorem accepts_swapped_iff {marker : Marker} {low high : UInt8} :
    marker.swapped.Accepts low high ↔ marker.Accepts low high := Or.comm

theorem accepts_iff_bytes {marker : Marker} {low high : UInt8} :
    marker.Accepts low high ↔ [low, high] = marker.bytes ∨ [low, high] = marker.swapped.bytes := by
  simp [Accepts, bytes, swapped]

end Marker

end FirstStage
