import ChipEight.Engine
import ChipEight.Keyboard
import ChipEight.Options.Basic
import ChipEight.Screen.Basic

/-!
# The paced loop

A session runs an engine in turns. In each turn some time passes and the events of that time are
latched. Then, unless one of them asked to leave, a cycle is run if enough time has passed since the
last one, and the display is shown if the cycle drew on it.

The screen is painted first and then flipped: `shown` is what the user sees.
-/

namespace ChipEight

/-- What the event queue hands over: some events, or a failure to fetch them. -/
inductive Batch where
  | events (events : List Event)
  | failure (reason : String)
deriving DecidableEq, Repr

/-- The milliseconds that pass before a turn, and its events. -/
structure Turn where
  tick : Int
  batch : Batch
deriving DecidableEq, Repr

def Turn.leaving : Turn := ⟨0, .events [.quit]⟩

inductive Crash where
  | events (reason : String)
  /-- There was no random value. -/
  | random (e : RandomError)
  | screen (e : ScreenError)
  /-- The delay to wait for was left blank. -/
  | blankDelay
deriving DecidableEq, Repr

def Crash.message : Crash → String
  | .events reason => reason
  | .random e => e.reason
  | .screen e => e.message
  | .blankDelay => "'>=' not supported between instances of 'int' and 'list'"

inductive Progress where
  | goesOn
  | left
  | crashed (c : Crash)
deriving DecidableEq, Repr

structure Session (σ ρ : Type) where
  engine : Engine ρ
  screen : Screen σ
  /-- The screen as it was at the last flip. -/
  shown : Screen σ
  /-- The milliseconds since the last cycle. -/
  elapsed : Int
  /-- The completed cycles. -/
  cycles : Nat
  flips : Nat
  ticks : Nat

namespace Session
variable {σ ρ : Type}

/-- The most turns in a second. -/
def turnsPerSecond : Nat := 1000

/-- A session whose empty screen has been shown. -/
def start (engine : Engine ρ) (screen : Screen σ) : Session σ ρ where
  engine
  screen
  shown := screen
  elapsed := 0
  cycles := 0
  flips := 1
  ticks := 0

def latch (s : Session σ ρ) (events : List Event) : Session σ ρ :=
  { s with engine := s.engine.mapMachine fun m =>
      { m with keypad := Keyboard.latchAll m.keypad events } }

def pass (s : Session σ ρ) (milliseconds : Int) : Session σ ρ :=
  { s with elapsed := s.elapsed + milliseconds, ticks := s.ticks + 1 }

variable [Canvas σ]

/-- Shows the display if the last cycle drew on it. -/
def refresh (s : Session σ ρ) : Session σ ρ × Option ScreenError :=
  if s.engine.machine.drawn then
    match s.screen.render s.engine.machine.display with
    | (screen, none) => ({ s with screen, shown := screen, flips := s.flips + 1 }, none)
    | (screen, some e) => ({ s with screen }, some e)
  else (s, none)

variable [RandomSource ρ]

/-- Runs a cycle and shows what it drew. -/
def step (tracing : Bool) (s : Session σ ρ) : Session σ ρ × Progress × List TraceLine :=
  let out := s.engine.cycle tracing
  let s := { s with engine := out.engine, elapsed := 0 }
  match out.fault with
  | some e => (s, .crashed (.random e), out.trace)
  | none =>
    match { s with cycles := s.cycles + 1 }.refresh with
    | (s, none) => (s, .goesOn, out.trace)
    | (s, some e) => (s, .crashed (.screen e), out.trace)

def turn (tracing : Bool) (delay : Setting Int) (s : Session σ ρ) (t : Turn) :
    Session σ ρ × Progress × List TraceLine :=
  let s := s.pass t.tick
  match t.batch with
  | .failure reason => (s, .crashed (.events reason), [])
  | .events events =>
    let s := s.latch events
    if events.any Keyboard.leaves then (s, .left, [])
    else match delay with
      | .blank => (s, .crashed .blankDelay, [])
      | .value delay => if s.elapsed < delay then (s, .goesOn, []) else s.step tracing

/-- Takes turns until one of them is the last. After the given ones the user leaves. -/
def play (tracing : Bool) (delay : Setting Int) :
    List Turn → Session σ ρ → Session σ ρ × Option Crash × List TraceLine
  | [], s => ((s.turn tracing delay .leaving).1, none, [])
  | t :: rest, s =>
    match s.turn tracing delay t with
    | (s, .left, trace) => (s, none, trace)
    | (s, .crashed c, trace) => (s, some c, trace)
    | (s, .goesOn, trace) =>
      let (s, crash, later) := play tracing delay rest s
      (s, crash, trace ++ later)

end Session
end ChipEight
