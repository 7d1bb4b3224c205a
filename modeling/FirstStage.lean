import FirstStage.Bytes.Forward
import FirstStage.Bytes.Range
import FirstStage.Bytes.Terminated
import FirstStage.Decimal.Field
import FirstStage.Decimal.Render
import FirstStage.Fault
import FirstStage.Framing.Flags
import FirstStage.Framing.Marker
import FirstStage.Framing.Payload
import FirstStage.Framing.Scan
import FirstStage.Image.Flawed
import FirstStage.Image.Memory
import FirstStage.Image.Ram
import FirstStage.Image.Window
import FirstStage.Layout
import FirstStage.Machine
import FirstStage.Numeral
import FirstStage.Output.Display
import FirstStage.Output.Screen
import FirstStage.Output.Transcript
import FirstStage.Output.Uart
import FirstStage.Relocation.Landing
import FirstStage.Relocation.Plan
import FirstStage.Run.ImageStep
import FirstStage.Run.Log
import FirstStage.Run.LoggedMemory
import FirstStage.Run.Refusal
import FirstStage.Run.Report
import FirstStage.Run.Rig
import FirstStage.Run.State
import FirstStage.Utf8
import FirstStage.Proofs.Framing.Bounds
import FirstStage.Proofs.Bytes.Copied
import FirstStage.Proofs.Relocation.Ranges
import FirstStage.Proofs.Relocation.Payload
import FirstStage.Proofs.Decimal.Digits
import FirstStage.Proofs.Run.Phases
import FirstStage.Proofs.Run.Course
import FirstStage.Proofs.Run.Outcome
import FirstStage.Proofs.Run.Returned
import FirstStage.Proofs.Run.StrictDecision
import FirstStage.Proofs.Image.Framing
import FirstStage.Proofs.Relocation.Settled
import FirstStage.Proofs.Relocation.Rescan
import FirstStage.Proofs.Run.SecondRun
import FirstStage.Proofs.Run.VerifiedJump
import FirstStage.Proofs.Bytes.Overwritten
import FirstStage.Proofs.Framing.Seams
import FirstStage.Proofs.Framing.Enclosure
import FirstStage.Proofs.Relocation.Reported
import FirstStage.Proofs.Image.Alike
import FirstStage.Proofs.Image.Recorded
import FirstStage.Proofs.Run.MemoryEffect
import FirstStage.Proofs.Run.Faults
import FirstStage.Proofs.Run.Refinement
import FirstStage.Proofs.Run.Consistency
import FirstStage.Proofs.Decimal.Numerals
import FirstStage.Proofs.Framing.Reach
import FirstStage.Proofs.Output.Kept
import FirstStage.Proofs.Run.Line
import FirstStage.Proofs.Run.Independence
import FirstStage.Proofs.Image.Windowed
import FirstStage.Proofs.Run.Hardware
import FirstStage.Proofs.Image.Copy
import FirstStage.Proofs.Relocation.Guarded
import FirstStage.Proofs.Image.Footprint
import FirstStage.Proofs.Output.Stream
import FirstStage.Proofs.Output.Lines
import FirstStage.Proofs.Run.LogLines
import FirstStage.Proofs.Run.Console
import FirstStage.Proofs.Image.Watched
import FirstStage.Proofs.Relocation.Probe
import FirstStage.Proofs.Relocation.StrayByte
import FirstStage.Proofs.Run.ImageHistory
import FirstStage.Proofs.Relocation.Membership
import FirstStage.Proofs.Output.Polled
import FirstStage.Proofs.Bytes.Terminated
import FirstStage.Proofs.Decimal.Canonical
import FirstStage.Proofs.Decimal.Cut
import FirstStage.Proofs.Run.Called
