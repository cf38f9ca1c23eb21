import ChipEight.Engine
import ChipEight.Monitor.Status

/-!
# The monitor

What an operator can ask of an engine: load and store bytes, press keys, set registers, run cycles,
enter instructions at the program counter, execute single ones, and look at the machine. A request
that fails leaves the engine as it was when it failed, and the next one goes on from there.
-/

namespace ChipEight

/-- Values for some of the registers. -/
structure Assignment where
  registers : List (Nibble × Byte)
  pc : Option Address
  index : Option Word
  delay : Option Byte
  sound : Option Byte
deriving DecidableEq, Repr

def Machine.assign (m : Machine) (a : Assignment) : Machine :=
  { m with
    registers := a.registers.foldl (fun t (x, b) => t.set x b) m.registers
    pc := a.pc.getD m.pc
    index := a.index.getD m.index
    delay := a.delay.getD m.delay
    sound := a.sound.getD m.sound }

inductive Request where
  | load (program : List Byte)
  /-- Writes bytes from an address on, which is taken modulo 4096. -/
  | store (address : Int) (bytes : List Byte)
  | cycles (n : Nat)
  /-- Writes each word at the program counter and runs a cycle on it. -/
  | enter (words : List Word)
  /-- Executes an instruction that is not in memory: nothing is fetched and no timer ticks. -/
  | execute (opcode : Int)
  /-- Shows the word at the program counter. -/
  | fetch
  /-- Sets a key, which is taken modulo 16. -/
  | setKey (key : Int) (down : Bool)
  | releaseAll
  | assign (a : Assignment)
  /-- Shows the machine as text. -/
  | describe
deriving DecidableEq, Repr

inductive Shown where
  | word (w : Word)
  | text (s : String)
deriving DecidableEq, Repr

structure Reply (ρ : Type) where
  engine : Engine ρ
  shown : Option Shown
  /-- The status after each completed cycle. -/
  statuses : List Status
  trace : List TraceLine
  fault : Option RandomError

/-- The reply with what one more cycle, completed before, reports. The status comes first, so that it is
taken at once and no machine is kept for it. -/
@[noinline] def Reply.preceded {ρ : Type} (status : Status) (trace : List TraceLine) (r : Reply ρ) :
    Reply ρ :=
  { r with statuses := status :: r.statuses, trace := trace ++ r.trace }

namespace Engine
variable {ρ : Type}

/-- The reply to a request that only changes the machine. -/
def changed (e : Engine ρ) (f : Machine → Machine) : Reply ρ :=
  ⟨e.mapMachine f, none, [], [], none⟩

/-- The reply to a request that only looks at the machine. -/
def showing (e : Engine ρ) (s : Shown) : Reply ρ := ⟨e, some s, [], [], none⟩

variable [RandomSource ρ]

/-- Makes each change to the machine and runs a cycle after it, up to the first cycle that fails. -/
def cyclesAfter (tracing : Bool) : List (Machine → Machine) → Engine ρ → Reply ρ
  | [], e => ⟨e, none, [], [], none⟩
  | f :: rest, e =>
    match (e.mapMachine f).cycle tracing with
    | ⟨e, some fault, trace⟩ => ⟨e, none, [], trace, some fault⟩
    | ⟨e, none, trace⟩ => .preceded e.machine.status trace (cyclesAfter tracing rest e)

/-- Runs `n` cycles, up to the first one that fails. -/
def cycles (tracing : Bool) (n : Nat) : Engine ρ → Reply ρ :=
  cyclesAfter tracing (List.replicate n id)

def enterWord (w : Word) (m : Machine) : Machine :=
  { m with memory := m.memory.store m.pc [w.high, w.low] }

def answer (tracing : Bool) (e : Engine ρ) : Request → Reply ρ
  | .load program => e.changed fun m => { m with memory := m.memory.load program }
  | .store address bytes => e.changed fun m =>
      { m with memory := m.memory.store (.ofInt address) bytes }
  | .cycles n => e.cycles tracing n
  | .enter words => cyclesAfter tracing (words.map enterWord) e
  | .execute opcode =>
    let out := e.execute tracing (.ofWord (.ofInt opcode))
    ⟨out.engine, none, [], out.trace, out.fault⟩
  | .fetch => e.showing (.word e.machine.fetch)
  | .setKey key down => e.changed fun m => { m with keypad := m.keypad.set (.ofInt key) down }
  | .releaseAll => e.changed fun m => { m with keypad := .released }
  | .assign a => e.changed fun m => m.assign a
  | .describe => e.showing (.text e.machine.text)

/-- The replies to a list of requests, each answered by the engine that the one before left. -/
def answerAll (tracing : Bool) (e : Engine ρ) : List Request → List (Reply ρ)
  | [] => []
  | r :: rest =>
    let reply := e.answer tracing r
    reply :: answerAll tracing reply.engine rest

/-- The engine that a list of requests leaves. -/
def afterAll (tracing : Bool) (e : Engine ρ) (requests : List Request) : Engine ρ :=
  requests.foldl (fun e r => (e.answer tracing r).engine) e

end Engine
end ChipEight
