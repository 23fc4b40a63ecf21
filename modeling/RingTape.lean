import RingTape.Execution.Highlight
import RingTape.Main
import RingTape.Proofs.Execution.Comments
import RingTape.Proofs.Execution.Concatenation
import RingTape.Proofs.Execution.Ending
import RingTape.Proofs.Execution.Observers
import RingTape.Proofs.Execution.Operations
import RingTape.Proofs.Execution.Structured
import RingTape.Proofs.Execution.TraceTable
import RingTape.Proofs.Command.Primitive
import RingTape.Proofs.Command.History
import RingTape.Proofs.Execution.Parallel
import RingTape.Proofs.Execution.Rotation
import RingTape.Proofs.Execution.Extension
import RingTape.Proofs.Execution.FirstUse
import RingTape.Proofs.Execution.LoopEvents
import RingTape.Proofs.Execution.ByteMachine
import RingTape.Proofs.Channel.Segments
import RingTape.Proofs.Execution.Alignment
import RingTape.Proofs.Command.Inverse
import RingTape.Proofs.Program.Insertion
import RingTape.Proofs.Program.Matching
import RingTape.Proofs.Channel.Numerals
import RingTape.Proofs.Execution.Cancelling
import RingTape.Proofs.Execution.ReadBack
import RingTape.Proofs.Settings.Layers
import RingTape.Proofs.Session.Calls
import RingTape.Proofs.Execution.Tally
import RingTape.Proofs.Execution.Countdown
import RingTape.Proofs.Command.Input
import RingTape.Proofs.Execution.Report
import RingTape.Proofs.Tape.Window
import RingTape.Proofs.Channel.Room
import RingTape.Proofs.CommandLine.Outcome
import RingTape.Proofs.Program.Highlighting
