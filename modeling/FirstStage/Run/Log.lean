import FirstStage.Output.Uart
import FirstStage.Run.Refusal
import FirstStage.Run.State

/-! # The log

Each step of the stage leaves an entry. On the console an entry is one line.
-/

namespace FirstStage

inductive LogEntry where
  | state (state : State)
  | entryArgument (argument : UInt32)
  | scan (scan : Scan)
  | copy (plan : Plan)
  | warning (error : LandingError)
  | refusal (refusal : Refusal)
  | returned
  deriving DecidableEq

namespace LogEntry

def line : LogEntry → String
  | .state reached => "[stage] " ++ reached.name
  | .entryArgument argument => "[stage] entry argument " ++ Numeral.hex argument.toNat
  | .scan found =>
      "[scan] start=" ++ Numeral.decimal found.start.toNat ++ " end=" ++
        Numeral.decimal found.stop.toNat ++ " flags=" ++ found.flags.text
  | .copy plan =>
      "[reloc] " ++ Numeral.hex plan.src.toNat ++ " -> " ++ Numeral.hex plan.dest.toNat ++ " (" ++
        Numeral.decimal plan.length.toNat ++ " bytes)"
  | .warning error => "[stage] warning: " ++ error.message
  | .refusal reason => "[stage] refusing to continue: " ++ reason.message
  | .returned => "[stage] stage 2 returned"

/-- The bytes of an entry on the console. -/
def wire (entry : LogEntry) : List UInt8 := Uart.wire (utf8 (entry.line ++ "\n"))

end LogEntry

abbrev Log : Type := List LogEntry

def Log.wire (log : Log) : List UInt8 := log.flatMap LogEntry.wire

end FirstStage
