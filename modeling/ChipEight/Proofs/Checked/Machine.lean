import ChipEight.Proofs.Engine.Schedule
import Mathlib.Data.Int.Bitwise

/-!
# The checked machine

The machine on unbounded integers and lists. Nothing keeps a value in its range but the masks that the operations
apply, at just the places where they apply them, and each access to a list is checked. An operation that faults
leaves the state as it was when it faulted.
-/

namespace ChipEight.Checked

/-- Why an operation breaks off. -/
inductive Fault where
  /-- There is no such place in a list. A negative index is refused as well, though it could count from the end. -/
  | index
  /-- The value stored in memory is no byte. -/
  | byte
  | random (e : RandomError)

structure State (ρ : Type) where
  memory : List Int
  slots : List Int
  pointer : Int
  /-- A cell is zero or 32 ones. -/
  cells : List Int
  keys : List Bool
  registers : List Int
  pc : Int
  index : Int
  delay : Int
  sound : Int
  drawn : Bool
  source : ρ

def State.fresh {ρ : Type} (source : ρ) : State ρ where
  memory := fontGlyphs.map (fun b => (b.toNat : Int)) ++ List.replicate (4096 - fontGlyphs.length) 0
  slots := List.replicate 16 0
  pointer := 0
  cells := List.replicate (64 * 32) 0
  keys := List.replicate 16 false
  registers := List.replicate 16 0
  pc := 0x200
  index := 0
  delay := 0
  sound := 0
  drawn := false
  source

abbrev Routine (ρ : Type) : Type → Type := EStateM Fault (State ρ)

@[ext] structure Operands where
  opcode : Int
  kind : Int
  x : Int
  y : Int
  n : Int
  nnn : Int
  kk : Int

def decode (opcode : Int) : Operands :=
  let opcode := opcode.land 0xffff
  { opcode
    kind := opcode.land 0xf000 >>> 12
    x := opcode.land 0x0f00 >>> 8
    y := opcode.land 0x00f0 >>> 4
    n := opcode.land 0x000f
    nnn := opcode.land 0x0fff
    kk := opcode.land 0x00ff }

variable {ρ : Type}

/-! ### Lists -/

def item {α : Type} (l : List α) : Int → Routine ρ α
  | .ofNat n =>
    match l[n]? with
    | some a => pure a
    | none => throw .index
  | .negSucc _ => throw .index

def replaced {α : Type} (l : List α) (a : α) : Int → Routine ρ (List α)
  | .ofNat n => if n < l.length then pure (l.set n a) else throw .index
  | .negSucc _ => throw .index

/-! ### Parts of the machine -/

def register (x : Int) : Routine ρ Int := do item (← get).registers x

def setRegister (x value : Int) : Routine ρ Unit := do
  let registers ← replaced (← get).registers value x
  modify ({ · with registers })

def readByte (address : Int) : Routine ρ Int := do item (← get).memory (address.land 0xfff)

def writeByte (address value : Int) : Routine ρ Unit := do
  let byte := value.land 0xff
  if 0 ≤ byte ∧ byte ≤ 255 then
    let memory ← replaced (← get).memory byte (address.land 0xfff)
    modify ({ · with memory })
  else throw .byte

def readWord (address : Int) : Routine ρ Int := do
  let high ← readByte address
  let low ← readByte (address + 1)
  pure ((high <<< 8).lor low)

def writeBytes : List Int → Int → Routine ρ Unit
  | [], _ => pure ()
  | byte :: bytes, address => do
    writeByte address byte
    writeBytes bytes (address + 1)

def push (address : Int) : Routine ρ Unit := do
  modify fun s => { s with pointer := (s.pointer + 1) % 16 }
  let slots ← replaced (← get).slots address (← get).pointer
  modify ({ · with slots })

def pop : Routine ρ Int := do
  let address ← item (← get).slots (← get).pointer
  modify fun s => { s with pointer := (s.pointer - 1) % 16 }
  pure address

def key (k : Int) : Routine ρ Bool := do item (← get).keys (k.land 0xf)

def setKey (k : Int) (down : Bool) : Routine ρ Unit := do
  let keys ← replaced (← get).keys down (k.land 0xf)
  modify ({ · with keys })

def firstKey? : List Nat → Routine ρ (Option Int)
  | [] => pure none
  | k :: rest => do
    if ← item (← get).keys k then pure (some k) else firstKey? rest

/-- Flips a cell, and says whether that turned a lit one off. The cell is found by its number alone. -/
def toggle (x y : Int) : Routine ρ Bool := do
  let cell ← item (← get).cells (y * 64 + x)
  let cells ← replaced (← get).cells (cell.xor 0xffffffff) (y * 64 + x)
  modify ({ · with cells })
  pure (cell = 0xffffffff)

def skip : Routine ρ Unit := modify fun s => { s with pc := (s.pc + 2).land 0xfff }

def tick : Routine ρ Unit := modify fun s => { s with
  delay := if s.delay > 0 then s.delay - 1 else s.delay
  sound := if s.sound > 0 then s.sound - 1 else s.sound }

/-! ### Handlers -/

abbrev Handler (ρ : Type) : Type := Operands → Routine ρ Unit

namespace Handler

def unknown : Handler ρ := fun _ => pure ()

def clearScreen : Handler ρ := fun _ => modify ({ · with cells := List.replicate (64 * 32) 0, drawn := true })

def ret : Handler ρ := fun _ => do
  let pc ← pop
  modify ({ · with pc })

def jump : Handler ρ := fun i => modify ({ · with pc := i.nnn })

def call : Handler ρ := fun i => do
  push (← get).pc
  modify ({ · with pc := i.nnn })

def jumpPlus : Handler ρ := fun i => do
  let v ← register 0
  modify ({ · with pc := (i.nnn + v).land 0xfff })

def skipIf (condition : Bool) : Routine ρ Unit := if condition then skip else pure ()

def skipIfEqual : Handler ρ := fun i => do skipIf ((← register i.x) = i.kk)

def skipUnlessEqual : Handler ρ := fun i => do skipIf ((← register i.x) ≠ i.kk)

def skipIfSame : Handler ρ := fun i => do skipIf ((← register i.x) = (← register i.y))

def skipUnlessSame : Handler ρ := fun i => do skipIf ((← register i.x) ≠ (← register i.y))

def setConstant : Handler ρ := fun i => setRegister i.x i.kk

def addConstant : Handler ρ := fun i => do setRegister i.x (((← register i.x) + i.kk).land 0xff)

def copy : Handler ρ := fun i => do setRegister i.x (← register i.y)

def combine (f : Int → Int → Int) : Handler ρ := fun i => do setRegister i.x (f (← register i.x) (← register i.y))

def setWithFlag (x value flag : Int) : Routine ρ Unit := do
  setRegister x value
  setRegister 0xf flag

def add : Handler ρ := fun i => do
  let total := (← register i.x) + (← register i.y)
  setWithFlag i.x (total.land 0xff) (if total > 0xff then 1 else 0)

def subtract : Handler ρ := fun i => do
  let a ← register i.x
  let b ← register i.y
  setWithFlag i.x ((a - b).land 0xff) (if a ≥ b then 1 else 0)

def subtractFrom : Handler ρ := fun i => do
  let a ← register i.x
  let b ← register i.y
  setWithFlag i.x ((b - a).land 0xff) (if b ≥ a then 1 else 0)

def shiftRight : Handler ρ := fun i => do
  let a ← register i.x
  setWithFlag i.x (a >>> 1) (a.land 1)

def shiftLeft : Handler ρ := fun i => do
  let a ← register i.x
  setWithFlag i.x ((a <<< 1).land 0xff) (a.land 0x80 >>> 7)

/-- The next random value, of any size and sign. -/
def nextValue [RandomSource ρ] : Routine ρ Int := do
  match RandomSource.draw (← get).source with
  | (.ok value, source) =>
    modify ({ · with source })
    pure value
  | (.error e, source) =>
    modify ({ · with source })
    throw (.random e)

def random [RandomSource ρ] : Handler ρ := fun i => do setRegister i.x ((← nextValue).land i.kk)

/-- Draws a row of a sprite, from column to column up to the right edge. -/
def drawRow (bits x y : Int) : List Nat → Bool → Routine ρ Bool
  | [], collision => pure collision
  | column :: columns, collision =>
    if x + column ≥ 64 then pure collision
    else if bits.land ((0x80 : Int) >>> column) ≠ 0 then do
      let erased ← toggle (x + column) y
      drawRow bits x y columns (collision || erased)
    else drawRow bits x y columns collision

def drawRows (x y : Int) : List Nat → Bool → Routine ρ Bool
  | [], collision => pure collision
  | row :: rows, collision =>
    if y + row ≥ 32 then pure collision
    else do
      let bits ← readByte ((← get).index + row)
      let collision ← drawRow bits x (y + row) (List.range 8) collision
      drawRows x y rows collision

def draw : Handler ρ := fun i => do
  let x := (← register i.x) % 64
  let y := (← register i.y) % 64
  let collision ← drawRows x y (List.range i.n.toNat) false
  setRegister 0xf (if collision then 1 else 0)
  modify ({ · with drawn := true })

def skipIfDown : Handler ρ := fun i => do skipIf (← key ((← register i.x).land 0xf))

def skipUnlessDown : Handler ρ := fun i => do skipIf (!(← key ((← register i.x).land 0xf)))

def waitKey : Handler ρ := fun i => do
  match ← firstKey? (List.range 16) with
  | none => modify fun s => { s with pc := (s.pc - 2).land 0xfff }
  | some k => setRegister i.x k

def readDelay : Handler ρ := fun i => do setRegister i.x (← get).delay

def setDelay : Handler ρ := fun i => do
  let delay ← register i.x
  modify ({ · with delay })

def setSound : Handler ρ := fun i => do
  let sound ← register i.x
  modify ({ · with sound })

def setIndex : Handler ρ := fun i => modify ({ · with index := i.nnn })

def addIndex : Handler ρ := fun i => do
  let v ← register i.x
  modify fun s => { s with index := (s.index + v).land 0xffff }

def glyph : Handler ρ := fun i => do
  let v ← register i.x
  modify ({ · with index := v * 5 })

def storeDigits : Handler ρ := fun i => do
  let v ← register i.x
  writeByte (← get).index (v / 100)
  writeByte ((← get).index + 1) (v / 10 % 10)
  writeByte ((← get).index + 2) (v % 10)

/-- Stores some registers, each at its distance from the index. -/
def storeEach : List Nat → Routine ρ Unit
  | [] => pure ()
  | x :: rest => do
    writeByte ((← get).index + x) (← register x)
    storeEach rest

def storeRegisters : Handler ρ := fun i => storeEach (List.range (i.x.toNat + 1))

def loadEach : List Nat → Routine ρ Unit
  | [] => pure ()
  | x :: rest => do
    setRegister x (← readByte ((← get).index + x))
    loadEach rest

def loadRegisters : Handler ρ := fun i => loadEach (List.range (i.x.toNat + 1))

end Handler

/-! ### Dispatch -/

/-- The methods that handle instructions, and the one that passes over a word that names none. -/
inductive Method where
  | unknown
  | clearScreen
  | ret
  | jump
  | call
  | jumpPlus
  | skipIfEqual
  | skipUnlessEqual
  | skipIfSame
  | skipUnlessSame
  | setConstant
  | addConstant
  | copy
  | or
  | and
  | xor
  | add
  | subtract
  | subtractFrom
  | shiftRight
  | shiftLeft
  | random
  | draw
  | skipIfDown
  | skipUnlessDown
  | waitKey
  | readDelay
  | setDelay
  | setSound
  | setIndex
  | addIndex
  | glyph
  | storeDigits
  | storeRegisters
  | loadRegisters
deriving DecidableEq, Repr

/-- The kinds of words that have a table of their own. -/
inductive Family where
  | system
  | arithmetic
  | key
  | device
deriving DecidableEq, Repr

/-- A table with methods at some of its places. -/
def tableOf (size : Nat) (rows : List (Nat × Method)) : List Method :=
  rows.foldr (fun row table => table.set row.1 row.2) (List.replicate size .unknown)

namespace Family

def rows : Family → List (Nat × Method)
  | .system => [(0xe0, .clearScreen), (0xee, .ret)]
  | .arithmetic =>
    [(0x0, .copy), (0x1, .or), (0x2, .and), (0x3, .xor), (0x4, .add), (0x5, .subtract), (0x6, .shiftRight),
      (0x7, .subtractFrom), (0xe, .shiftLeft)]
  | .key => [(0x9e, .skipIfDown), (0xa1, .skipUnlessDown)]
  | .device =>
    [(0x07, .readDelay), (0x0a, .waitKey), (0x15, .setDelay), (0x18, .setSound), (0x1e, .addIndex), (0x29, .glyph),
      (0x33, .storeDigits), (0x55, .storeRegisters), (0x65, .loadRegisters)]

def size : Family → Nat
  | .arithmetic => 0x10
  | .system | .key | .device => 0x100

def table (f : Family) : List Method := tableOf f.size f.rows

/-- The operand that gives the place in the table. -/
def place (i : Operands) : Family → Int
  | .arithmetic => i.n
  | .system | .key | .device => i.kk

end Family

/-- An entry of the primary table: a method, or what forwards to the table of a family. -/
inductive Entry where
  | method (m : Method)
  | forward (f : Family)

/-- The entries by the kind of the opcode. -/
def primary : List Entry :=
  [.forward .system, .method .jump, .method .call, .method .skipIfEqual, .method .skipUnlessEqual,
    .method .skipIfSame, .method .setConstant, .method .addConstant, .forward .arithmetic, .method .skipUnlessSame,
    .method .setIndex, .method .jumpPlus, .method .random, .method .draw, .forward .key, .forward .device]

/-- The method that the operands lead to, through the table of a family if there is one. -/
def lookup (i : Operands) : Routine ρ Method := do
  match ← item primary i.kind with
  | .method m => pure m
  | .forward f => item f.table (f.place i)

variable [RandomSource ρ]

def Method.handler : Method → Handler ρ
  | .unknown => Handler.unknown
  | .clearScreen => Handler.clearScreen
  | .ret => Handler.ret
  | .jump => Handler.jump
  | .call => Handler.call
  | .jumpPlus => Handler.jumpPlus
  | .skipIfEqual => Handler.skipIfEqual
  | .skipUnlessEqual => Handler.skipUnlessEqual
  | .skipIfSame => Handler.skipIfSame
  | .skipUnlessSame => Handler.skipUnlessSame
  | .setConstant => Handler.setConstant
  | .addConstant => Handler.addConstant
  | .copy => Handler.copy
  | .or => Handler.combine Int.lor
  | .and => Handler.combine Int.land
  | .xor => Handler.combine Int.xor
  | .add => Handler.add
  | .subtract => Handler.subtract
  | .subtractFrom => Handler.subtractFrom
  | .shiftRight => Handler.shiftRight
  | .shiftLeft => Handler.shiftLeft
  | .random => Handler.random
  | .draw => Handler.draw
  | .skipIfDown => Handler.skipIfDown
  | .skipUnlessDown => Handler.skipUnlessDown
  | .waitKey => Handler.waitKey
  | .readDelay => Handler.readDelay
  | .setDelay => Handler.setDelay
  | .setSound => Handler.setSound
  | .setIndex => Handler.setIndex
  | .addIndex => Handler.addIndex
  | .glyph => Handler.glyph
  | .storeDigits => Handler.storeDigits
  | .storeRegisters => Handler.storeRegisters
  | .loadRegisters => Handler.loadRegisters

def Entry.handler : Entry → Handler ρ
  | .method m => m.handler
  | .forward f => fun i => do (← item f.table (f.place i)).handler i

/-! ### Operations -/

/-- Executes an opcode that is not fetched from memory. -/
def execute (opcode : Int) : Routine ρ Unit := do
  let i := decode opcode
  (← item primary i.kind).handler i

def cycle : Routine ρ Unit := do
  modify ({ · with drawn := false })
  let opcode ← readWord (← get).pc
  skip
  execute opcode
  tick

/-- What is done to the machine from outside: an action of a schedule, or the execution of an opcode of any size. -/
inductive Operation where
  | act (a : Action)
  | execute (opcode : Int)
deriving DecidableEq, Repr

def Operation.request : Operation → Request
  | .act a => a.request
  | .execute opcode => .execute opcode

def perform : Operation → Routine ρ Unit
  | .act .cycle => cycle
  | .act (.write address value) => writeByte address value
  | .act (.load program) => writeBytes (program.map fun b => (b.toNat : Int)) 0x200
  | .act (.setKey k down) => setKey k down
  | .act .releaseAll => modify ({ · with keys := List.replicate 16 false })
  | .execute opcode => execute opcode

/-- The state after some operations. Those that fault leave their state to the next ones. -/
def State.after (s : State ρ) (operations : List Operation) : State ρ :=
  operations.foldl (fun s o =>
    match (perform o).run s with
    | .ok _ s' => s'
    | .error _ s' => s') s

end ChipEight.Checked
