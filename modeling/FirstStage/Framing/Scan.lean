import FirstStage.Framing.Flags
import FirstStage.Framing.Marker
import FirstStage.Framing.Payload
import FirstStage.Image.Memory
import FirstStage.Layout

/-! # The scan

A scan walks the offsets upward from zero. A later start marker replaces an earlier one, and the
first end marker ends the walk. A missing marker leaves its bound at zero, and the flags tell such
a bound from one that was found; `Scan.payload` accepts only bounds that were both found.
-/

namespace FirstStage

/-- The markers that a walk met: the last start marker and the end marker that ended the walk. -/
structure Sighting where
  start? : Option UInt32
  stop? : Option UInt32
  deriving DecidableEq

namespace Sighting

def start (seen : Sighting) : UInt32 := seen.start?.getD 0

def stop (seen : Sighting) : UInt32 := seen.stop?.getD 0

/-- What is to be noticed about a walk. -/
def shows (seen : Sighting) : Flag → Bool
  | .startSeen => seen.start?.isSome
  | .endSeen => seen.stop?.isSome
  | .ranOut => seen.stop?.isNone
  | .noStart => seen.stop?.isSome && seen.start?.isNone
  | .inverted => seen.stop < seen.start

end Sighting

structure Scan where
  start : UInt32
  stop : UInt32
  flags : Flags
  deriving DecidableEq

inductive ScanError where
  | noEnd
  | noStart
  | noBytes (start stop : UInt32)
  deriving DecidableEq

/-- Shown when the offsets ran out, both as a remark and as the token of the refusal. -/
def exhaustedRemark : String := "Poop"

namespace ScanError

def token : ScanError → String
  | .noEnd => exhaustedRemark
  | .noStart => "NoS"
  | .noBytes _ _ => "Bad"

def message : ScanError → String
  | .noEnd =>
      "no end sentinel within " ++ Numeral.hex Layout.lastMarkerOffset ++ " bytes"
  | .noStart => "end sentinel without start sentinel"
  | .noBytes start stop =>
      "payload bounds inverted or empty: start=" ++ Numeral.decimal start.toNat ++ " end=" ++
        Numeral.decimal stop.toNat

end ScanError

section Walk

variable {M : Type} [ImageMemory M]

/-- Tests `count` offsets from `i` on, with the latest start marker met before `i`. An offset is
tested for the start marker first. -/
def Sighting.searchFrom (i : UInt32) (start? : Option UInt32) : (count : Nat) → Act M Sighting
  | 0 => return ⟨start?, none⟩
  | count + 1 => do
      let low ← ImageMemory.read i
      let high ← ImageMemory.read (i + 1)
      let latest? := if Marker.opening.Accepts low high then some i else start?
      if Marker.closing.Accepts low high then return ⟨latest?, some i⟩
      else searchFrom (i + 1) latest? count

/-- Tests every offset up to the bound. The pair at the last one reaches a byte past it. -/
def Sighting.search : Act M Sighting := Sighting.searchFrom 0 none (Layout.lastMarkerOffset + 1)

end Walk

namespace Scan

def ofSighting (seen : Sighting) : Scan :=
  { start := seen.start, stop := seen.stop, flags := Flags.ofPred seen.shows }

theorem mem_flags_ofSighting {seen : Sighting} {flag : Flag} :
    flag ∈ (ofSighting seen).flags ↔ seen.shows flag = true := Flags.mem_ofPred

def perform {M : Type} [ImageMemory M] : Act M Scan := ofSighting <$> Sighting.search

/-- The offsets ran out before an end marker was met. -/
def ranOut (scan : Scan) : Bool := decide (.ranOut ∈ scan.flags)

theorem ranOut_ofSighting (seen : Sighting) : (ofSighting seen).ranOut = seen.stop?.isNone := by
  simp only [ranOut, mem_flags_ofSighting, Sighting.shows, Bool.decide_eq_true]

/-- The first objection wins: no end, no start, no bytes between them. -/
def payload (scan : Scan) : Except ScanError Payload :=
  if .ranOut ∈ scan.flags then .error .noEnd
  else if .noStart ∈ scan.flags then .error .noStart
  else if scan.stop ≤ scan.start then .error (.noBytes scan.start scan.stop)
  else .ok ⟨scan.start, scan.stop⟩

end Scan

end FirstStage
