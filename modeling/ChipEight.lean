import ChipEight.Main
import ChipEight.Screen.Scripted
import ChipEight.Proofs.Link.Moves
import ChipEight.Proofs.Link.Ledger
import ChipEight.Proofs.Link.Screening
import ChipEight.Proofs.Screen.Mirror
import ChipEight.Proofs.Screen.Attended
import ChipEight.Proofs.Machine.Call
import ChipEight.Proofs.Screen.Agreement
import ChipEight.Proofs.Machine.Edges
import ChipEight.Proofs.Frame.Parity
import ChipEight.Proofs.Frame.Views
import ChipEight.Proofs.Machine.Flag
import ChipEight.Proofs.Machine.Command
import ChipEight.Proofs.Machine.WellFormed
import ChipEight.Proofs.Machine.Running
import ChipEight.Proofs.Machine.Lockstep
import ChipEight.Proofs.Ram.History
import ChipEight.Proofs.Screen.Console
import ChipEight.Proofs.Machine.Faults
import ChipEight.Proofs.Screen.Screenfuls
import ChipEight.Proofs.Program.Ending
import ChipEight.Proofs.Program.Terminal
import ChipEight.Proofs.Text.Assembly
import ChipEight.Proofs.Text.Messages
import ChipEight.Proofs.Program.Tracing
import ChipEight.Proofs.Machine.Failed
import ChipEight.Proofs.Machine.Compositing
import ChipEight.Proofs.Machine.Verdict
import ChipEight.Proofs.Machine.Looping
import ChipEight.Proofs.Machine.Straight
import ChipEight.Proofs.Machine.Stranded
import ChipEight.Proofs.Canvas.Tiling
import ChipEight.Proofs.Canvas.Scale
import ChipEight.Proofs.Link.Closing
import ChipEight.Proofs.Link.Retries
import ChipEight.Proofs.Canvas.Clipping
import ChipEight.Proofs.Machine.Guarded
