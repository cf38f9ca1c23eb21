import ChipEight.Instruction.Chart
import ChipEight.Monitor.Request
import ChipEight.Main
import ChipEight.Proofs.Checked.Validity
import ChipEight.Proofs.Engine.Subroutine
import ChipEight.Proofs.Player.Run
import ChipEight.Proofs.Engine.Footprint
import ChipEight.Proofs.Engine.Dispatch
import ChipEight.Proofs.Engine.History
import ChipEight.Proofs.Engine.Picture
import ChipEight.Proofs.Engine.Tracing
import ChipEight.Proofs.Engine.Alike
import ChipEight.Proofs.Engine.Randomness
import ChipEight.Proofs.Player.Pacing
import ChipEight.Proofs.Engine.Keys
import ChipEight.Proofs.Stack.Ring
import ChipEight.Proofs.Engine.Waiting
import ChipEight.Proofs.Engine.Blit
import ChipEight.Proofs.Engine.Arithmetic
import ChipEight.Proofs.Engine.Dump
import ChipEight.Proofs.Engine.Redraw
import ChipEight.Proofs.Engine.Timers
import ChipEight.Proofs.Memory.LastValue
import ChipEight.Proofs.Screen.Cells
import ChipEight.Proofs.Screen.Faithful
import ChipEight.Proofs.Checked.Failure
import ChipEight.Proofs.Checked.Lines
import ChipEight.Proofs.Machine.Text
import ChipEight.Proofs.Keyboard.Latch
import ChipEight.Proofs.Framebuffer.CellList
import ChipEight.Proofs.Engine.Skips
import ChipEight.Proofs.Engine.Digits
import ChipEight.Proofs.Options.Occurrences
import ChipEight.Proofs.Checked.Decoding
