import ChipEight.Instruction.Basic
import ChipEight.Machine.Basic

/-!
# What instructions do

`Machine.execute` is the effect of one instruction on the machine. Its program counter already
points behind the instruction. A random value is handed in by the caller.
-/

namespace ChipEight.Machine

def setRegister (m : Machine) (x : Nibble) (b : Byte) : Machine :=
  { m with registers := m.registers.set x b }

/-- Writes a result and then the flag, which wins if both go to the flag register. -/
def setWithFlag (m : Machine) (x : Nibble) (b : Byte) (flag : Bool) : Machine :=
  (m.setRegister x b).setRegister flagRegister (if flag then 1 else 0)

/-- Passes over the next instruction on a condition. -/
def skipIf (m : Machine) (condition : Bool) : Machine :=
  if condition then { m with pc := m.pc + 2 } else m

/-- The address that the index register points to. -/
def indexAddress (m : Machine) : Address := m.index.setWidth 12

/-- Draws the sprite at the index at the place that two registers give, modulo 64. The flag tells of
a collision. -/
def drawSprite (m : Machine) (x y rows : Nibble) : Machine :=
  let sprite := m.memory.slice m.indexAddress rows.toNat
  let (display, erased) :=
    m.display.draw (m.registers[x].toNat % 64) (m.registers[y].toNat % 64) sprite
  { m.setRegister flagRegister (if erased then 1 else 0) with display, drawn := true }

/-- Takes the least key that is down, or else steps back to wait for one. -/
def waitKey (m : Machine) (x : Nibble) : Machine :=
  match m.keypad.first? with
  | some key => m.setRegister x (key.setWidth 8)
  | none => { m with pc := m.pc - 2 }

def digits (b : Byte) : List Byte := [b / 100, b / 10 % 10, b % 10]

/-- The registers from the first to `last`. -/
def registersUpTo (m : Machine) (last : Nibble) : List Byte :=
  m.registers.toList.take (last.toNat + 1)

def storeAtIndex (m : Machine) (bytes : List Byte) : Machine :=
  { m with memory := m.memory.store m.indexAddress bytes }

/-- Loads the registers from the first to `last` from the bytes at the index. -/
def loadRegisters (m : Machine) (last : Nibble) : Machine :=
  { m with registers := .ofFn fun i =>
      if i ≤ last then m.memory[m.indexAddress + i.setWidth 12] else m.registers[i] }

/-- The effect of an instruction. `value` is the random value, for the one that needs it. -/
def execute (m : Machine) (value : Int) : Instruction → Machine
  | .clearScreen => { m with display := m.display.clear, drawn := true }
  | .ret =>
    let (target, stack) := m.stack.pop
    { m with pc := target, stack }
  | .jump target => { m with pc := target }
  | .call target => { m with stack := m.stack.push m.pc, pc := target }
  | .skipIfEqual x k => m.skipIf (m.registers[x] = k)
  | .skipUnlessEqual x k => m.skipIf (m.registers[x] ≠ k)
  | .skipIfSame x y => m.skipIf (m.registers[x] = m.registers[y])
  | .skipUnlessSame x y => m.skipIf (m.registers[x] ≠ m.registers[y])
  | .setConstant x k => m.setRegister x k
  | .addConstant x k => m.setRegister x (m.registers[x] + k)
  | .copy x y => m.setRegister x m.registers[y]
  | .or x y => m.setRegister x (m.registers[x] ||| m.registers[y])
  | .and x y => m.setRegister x (m.registers[x] &&& m.registers[y])
  | .xor x y => m.setRegister x (m.registers[x] ^^^ m.registers[y])
  | .add x y =>
    let a := m.registers[x]
    let b := m.registers[y]
    m.setWithFlag x (a + b) (255 < a.toNat + b.toNat)
  | .subtract x y =>
    let a := m.registers[x]
    let b := m.registers[y]
    m.setWithFlag x (a - b) (b ≤ a)
  | .subtractFrom x y =>
    let a := m.registers[x]
    let b := m.registers[y]
    m.setWithFlag x (b - a) (a ≤ b)
  | .shiftRight x =>
    let a := m.registers[x]
    m.setWithFlag x (a >>> 1) (a.getLsbD 0)
  | .shiftLeft x =>
    let a := m.registers[x]
    m.setWithFlag x (a <<< 1) (a.getLsbD 7)
  | .setIndex address => { m with index := address.setWidth 16 }
  | .jumpPlus base => { m with pc := base + m.registers[(0 : Nibble)].setWidth 12 }
  | .random x mask => m.setRegister x (Byte.ofInt value &&& mask)
  | .draw x y rows => m.drawSprite x y rows
  | .skipIfDown x => m.skipIf (m.keypad.isDown (m.registers[x].setWidth 4))
  | .skipUnlessDown x => m.skipIf (!m.keypad.isDown (m.registers[x].setWidth 4))
  | .readDelay x => m.setRegister x m.delay
  | .waitKey x => m.waitKey x
  | .setDelay x => { m with delay := m.registers[x] }
  | .setSound x => { m with sound := m.registers[x] }
  | .addIndex x => { m with index := m.index + m.registers[x].setWidth 16 }
  | .glyph x => { m with index := m.registers[x].setWidth 16 * BitVec.ofNat 16 glyphSize }
  | .storeDigits x => m.storeAtIndex (digits m.registers[x])
  | .storeRegisters last => m.storeAtIndex (m.registersUpTo last)
  | .loadRegisters last => m.loadRegisters last
  | .unknown _ => m

def fetch (m : Machine) : Word := m.memory.word m.pc

/-- The program counter moves behind the fetched word, and nothing is drawn yet. -/
def advance (m : Machine) : Machine := { m with drawn := false, pc := m.pc + 2 }

/-- One step of a timer, which stops at zero. -/
def countDown (timer : Byte) : Byte := if timer = 0 then 0 else timer - 1

def tick (m : Machine) : Machine := { m with delay := countDown m.delay, sound := countDown m.sound }

end ChipEight.Machine
