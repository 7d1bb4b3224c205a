import FirstStage.Output.Display

/-! # A transcript of bounded size

It keeps the first `capacity` characters and counts all of them.
-/

namespace FirstStage

structure Transcript where
  capacity : Nat
  kept : Bytes := #[]
  written : Nat := 0
  deriving DecidableEq

namespace Transcript

def ofCapacity (capacity : Nat) : Transcript := { capacity }

def put (value : UInt8) (transcript : Transcript) : Transcript :=
  { transcript with
    kept := if transcript.written < transcript.capacity then transcript.kept.push value
      else transcript.kept
    written := transcript.written + 1 }

instance : Display Transcript := ⟨put⟩

end Transcript

end FirstStage
