/-! # States of the stage and their trace

The stage passes from entry through diagnosis, scan, copy and self test to the handoff, and comes
to rest in `idle` when it gets control back or refuses to go on. A trace records the states in the
order in which they were entered; no path is longer than its capacity.
-/

namespace FirstStage

inductive State where
  | entered
  | showingArgument
  | scanning
  | endFound
  | ranOut
  | showingBounds
  | relocating
  | selfTesting
  | handingOver
  | idle
  deriving DecidableEq

namespace State

def all : List State :=
  [entered, showingArgument, scanning, endFound, ranOut, showingBounds, relocating,
    selfTesting, handingOver, idle]

def name : State → String
  | entered => "Entered"
  | showingArgument => "DiagnosticAddr"
  | scanning => "Scanning"
  | endFound => "ScanFound"
  | ranOut => "ScanBoundHit"
  | showingBounds => "DiagnosticBounds"
  | relocating => "Relocating"
  | selfTesting => "SelfTestJump"
  | handingOver => "Handoff"
  | idle => "Idle"

theorem mem_all (state : State) : state ∈ all := by cases state <;> decide

end State

structure Trace where
  states : List State
  deriving DecidableEq

namespace Trace

def capacity : Nat := 10

def empty : Trace := ⟨[]⟩

/-- A full trace stays as it is. -/
def push (trace : Trace) (state : State) : Trace :=
  if trace.states.length < capacity then ⟨trace.states ++ [state]⟩ else trace

def last? (trace : Trace) : Option State := trace.states.getLast?

instance : Membership State Trace := ⟨fun trace state => state ∈ trace.states⟩

instance (trace : Trace) (state : State) : Decidable (state ∈ trace) :=
  inferInstanceAs (Decidable (state ∈ trace.states))

/-- The states that were not entered. -/
def missing (trace : Trace) : List State := State.all.filter (· ∉ trace)

end Trace

end FirstStage
