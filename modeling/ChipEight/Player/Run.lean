import ChipEight.Loading
import ChipEight.Options.Parse
import ChipEight.Player.Session
import ChipEight.Random.Twister

/-!
# Running the program

From the command line to the end of the session: read the options, build a machine, load the program
into it, open the screen, and play. Each of these can end the run.

A session that breaks off ends with a dump of the machine; while tracing it ends with the cause.
-/

namespace ChipEight

inductive Ending where
  | normal
  | noOptions (n : NoOptions)
  /-- The seed was left blank. -/
  | blankSeed
  /-- The system does not open the program. -/
  | unreadable (e : FileError) (path : String)
  /-- There can be no file of this name. -/
  | badPath (e : ReadError)
  | noScreen (e : ScreenError)
  /-- The session broke off, and the machine is dumped. -/
  | dumped (m : Machine)
  /-- The session broke off, and the cause is reported. -/
  | crashed (c : Crash)

def Ending.message : Ending → String
  | .normal => ""
  | .noOptions n => Text.decimal n.status
  | .blankSeed =>
    "The only supported seed types are: None,\nint, float, str, bytes, and bytearray."
  | .unreadable e path =>
    "Cannot load the ROM at path " ++ path ++ ": " ++ (ReadError.system e path).message
  | .badPath e => e.message
  | .noScreen e => e.message
  | .dumped m => "********** THE EMULATOR CRASHED WITH THE FOLLOWING STATE\n" ++ m.text
  | .crashed c => c.message

/-- The start of a run: a machine, what was printed, and the session or the reason why there is none. -/
structure Opening (σ ρ : Type) where
  machine : Machine
  output : String
  session : Except Ending (Session σ ρ)
  /-- The title of the window: the name of the program's file. -/
  caption : String := ""

/-- What a run leaves behind. -/
structure Report (σ ρ : Type) where
  ending : Ending
  output : String := ""
  complaint : String := ""
  machine : Option Machine := none
  session : Option (Session σ ρ) := none
  caption : String := ""

namespace Player
variable {ρ : Type} (σ : Type) [Canvas σ]

/-- Opens the screen on a window of the system `σ`. -/
def openScreen : Setting Int → Except ScreenError (Screen σ)
  | .blank => .error .badSize
  | .value scale => Screen.create 64 32 scale Screen.defaultBackground Screen.defaultForeground

def openRom (files : FileTree) : Setting String → Except ReadError Rom
  | .blank => .error .blankPath
  | .value path => files.readRom path

/-- Loads the program that was read, and opens the screen. -/
def start (source : ρ) (tracing : Bool) (scale : Setting Int) (rom : Except ReadError Rom) :
    Opening σ ρ :=
  let machine := Machine.fresh
  match rom with
  | .error (.system e path) => { machine, output := "", session := .error (.unreadable e path) }
  | .error e => { machine, output := "", session := .error (.badPath e) }
  | .ok rom =>
    let (memory, output) := machine.memory.loadRom tracing rom
    let machine := { machine with memory }
    match openScreen σ scale with
    | .error e => { machine, output, session := .error (.noScreen e) }
    | .ok screen =>
      { machine, output, session := .ok (.start ⟨machine, source⟩ screen)
        caption := FileTree.baseName rom.path }

def endingOf (tracing : Bool) (m : Machine) : Option Crash → Ending
  | none => .normal
  | some c => if tracing then .crashed c else .dumped m

def listing (trace : List TraceLine) : String := String.join (trace.map fun l => l.text ++ "\n")

/-- Runs with the given options and source of random values on a program that was read. -/
def runWith [RandomSource ρ] (source : ρ) (tracing : Bool) (o : Options) (rom : Except ReadError Rom)
    (turns : List Turn) : Report σ ρ :=
  let opening := start σ source tracing o.scale rom
  match opening.session with
  | .error ending => { ending, output := opening.output, machine := some opening.machine }
  | .ok session =>
    let (session, crash, trace) := session.play tracing o.delay turns
    { ending := endingOf tracing session.engine.machine crash
      output := opening.output ++ listing trace
      machine := some session.engine.machine
      session := some session
      caption := opening.caption }

/-- The seed of the random values: the spare one, if the options name none. -/
def seedOf (spare : Int) : Option (Setting Int) → Except Ending Int
  | none => .ok spare
  | some (.value seed) => .ok seed
  | some .blank => .error .blankSeed

/-- Runs a command line. `spareSeed` seeds the random values if the command line does not. -/
def run (spareSeed : Int) (tracing : Bool) (files : FileTree) (arguments : List String)
    (turns : List Turn) : Report σ Random.Twister :=
  match Options.parse arguments with
  | .error n => { ending := .noOptions n, output := n.output, complaint := n.complaint }
  | .ok o =>
    match seedOf spareSeed o.seed with
    | .error ending => { ending }
    | .ok seed => runWith σ (.ofSeed seed) tracing o (openRom files o.file) turns

end Player
end ChipEight
