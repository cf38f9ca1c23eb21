import ChipEight.Player.Run
import ChipEight.Player.Terminal
import ChipEight.Screen.Surface

/-!
# The command line

Runs a program in the terminal: turns are read from standard input, and the display is printed
whenever it is shown. `DEBUG` turns tracing on.
-/

namespace ChipEight

/-- The program at a path. -/
def readProgram (path : String) : IO (Except ReadError Rom) := do
  try
    let bytes ← IO.FS.readBinFile path
    return .ok ⟨path, bytes.toList.map fun b => BitVec.ofNat 8 b.toNat⟩
  catch
    | .inappropriateType _ code _ =>
      let kind : FileError :=
        if code.toNat = FileError.isDirectory.number then .isDirectory else .notDirectory
      return .error (.system kind path)
    | .invalidArgument _ _ _ => return .error (.system .nameTooLong path)
    | _ => return .error (.system .notFound path)

/-- Takes turns from standard input until the session ends. -/
partial def playLines (tracing : Bool) (delay : Setting Int) (s : Session Surface Random.Twister) : IO Ending := do
  let line ← (← IO.getStdin).getLine
  let turn := if line.isEmpty then some .leaving else Turn.ofLine? line
  match turn with
  | none => playLines tracing delay s
  | some turn =>
    let (next, progress, trace) := s.turn tracing delay turn
    IO.print (Player.listing trace)
    if next.flips ≠ s.flips then IO.print next.engine.machine.display.picture
    match progress with
    | .goesOn => playLines tracing delay next
    | .left => return .normal
    | .crashed c => return Player.endingOf tracing next.engine.machine (some c)

/-- Runs with options, and tells how the run ends. -/
def runOptions (tracing : Bool) (o : Options) : IO Ending := do
  match Player.seedOf (← IO.monoNanosNow) o.seed with
  | .error ending => return ending
  | .ok seed =>
    let rom ← match o.file with
      | .blank => pure (.error .blankPath)
      | .value path => readProgram path
    let opening := Player.start Surface (Random.Twister.ofSeed seed) tracing o.scale rom
    IO.print opening.output
    match opening.session with
    | .error ending => return ending
    | .ok session => playLines tracing o.delay session

end ChipEight

open ChipEight in
def main (arguments : List String) : IO UInt32 := do
  let tracing := match ← IO.getEnv "DEBUG" with
    | some level => 1 ≤ (Text.integer? level).getD 0
    | none => false
  match Options.parse arguments with
  | .error n =>
    IO.print n.output
    IO.eprint n.complaint
    return n.status.toUInt32
  | .ok o =>
    match ← runOptions tracing o with
    | .normal => return 0
    | ending =>
      IO.eprintln ending.message
      return 1
