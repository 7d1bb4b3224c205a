import FirstStage.Numeral

/-! # Flags of a scan

What a scan noticed, one bit for each observation in a byte. A byte may also hold bits that name
no observation; they are kept and shown as a number.
-/

namespace FirstStage

inductive Flag where
  | startSeen
  | endSeen
  /-- The offsets ran out before an end marker was met. -/
  | ranOut
  /-- An end marker was met with no start marker before it. -/
  | noStart
  /-- The end lies below the start. -/
  | inverted
  deriving DecidableEq

namespace Flag

/-- In bit order. -/
def all : List Flag := [.startSeen, .endSeen, .ranOut, .noStart, .inverted]

def mask : Flag → UInt8
  | .startSeen => 0x01
  | .endSeen => 0x02
  | .ranOut => 0x04
  | .noStart => 0x08
  | .inverted => 0x10

def name : Flag → String
  | .startSeen => "START_SEEN"
  | .endSeen => "END_SEEN"
  | .ranOut => "BOUND_HIT"
  | .noStart => "NO_START"
  | .inverted => "INVERTED"

end Flag

structure Flags where
  bits : UInt8
  deriving DecidableEq

namespace Flags

def empty : Flags := ⟨0⟩

/-- The bits that name an observation. -/
def known : Flags := ⟨0x1F⟩

def union (f g : Flags) : Flags := ⟨f.bits ||| g.bits⟩

/-- Every bit of `g` is a bit of `f`. -/
def contains (f g : Flags) : Bool := f.bits &&& g.bits == g.bits

def single (flag : Flag) : Flags := ⟨flag.mask⟩

instance : Membership Flag Flags := ⟨fun f flag => f.contains (single flag) = true⟩

instance (f : Flags) (flag : Flag) : Decidable (flag ∈ f) :=
  inferInstanceAs (Decidable (f.contains (single flag) = true))

/-- The flags that satisfy a condition, and no other bit. -/
def ofPred (p : Flag → Bool) : Flags :=
  (Flag.all.filter p).foldl (fun f flag => f.union (single flag)) empty

theorem mem_ofPred {p : Flag → Bool} {flag : Flag} : flag ∈ ofPred p ↔ p flag = true := by
  cases h0 : p .startSeen <;> cases h1 : p .endSeen <;> cases h2 : p .ranOut <;>
    cases h3 : p .noStart <;> cases h4 : p .inverted <;>
    cases flag <;> simp only [ofPred, Flag.all, List.filter, *] <;> decide

def truncated (f : Flags) : Flags := ⟨f.bits &&& known.bits⟩

/-- The bits that name no observation. -/
def leftover (f : Flags) : UInt8 := f.bits &&& ~~~known.bits

/-- Every bit names an observation. -/
def isKnown (f : Flags) : Bool := f.leftover == 0

theorem isKnown_ofPred (p : Flag → Bool) : (ofPred p).isKnown = true := by
  cases h0 : p .startSeen <;> cases h1 : p .endSeen <;> cases h2 : p .ranOut <;>
    cases h3 : p .noStart <;> cases h4 : p .inverted <;>
    simp only [ofPred, Flag.all, List.filter, *] <;> decide

def names (f : Flags) : List String := (Flag.all.filter (· ∈ f)).map Flag.name

/-- The names in bit order and then the leftover bits as one number; zero is shown as a number. -/
def text (f : Flags) : String :=
  let leftover := if f.isKnown then [] else [Numeral.hex f.leftover.toNat]
  let shown := if f = empty then [Numeral.hex 0] else f.names ++ leftover
  "ScanFlags(" ++ " | ".intercalate shown ++ ")"

end Flags

end FirstStage
