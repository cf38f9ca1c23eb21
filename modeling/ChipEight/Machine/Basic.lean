import ChipEight.Framebuffer
import ChipEight.Keypad
import ChipEight.Memory
import ChipEight.Stack

/-!
# The machine's state

Everything that an instruction reads or writes, and its text.
-/

namespace ChipEight

structure Machine where
  memory : Memory
  /-- The addresses that calls return to. -/
  stack : Stack Address
  display : Display
  keypad : Keypad
  registers : Table 4 Byte
  /-- The address of the next instruction. -/
  pc : Address
  /-- The register that points into memory. It is wider than an address. -/
  index : Word
  delay : Byte
  sound : Byte
  /-- Whether the last instruction may have changed the display. -/
  drawn : Bool
deriving DecidableEq

/-- The register that receives carries, borrows and collisions. -/
def flagRegister : Nibble := 0xf

namespace Machine

/-- The machine before any program is loaded. -/
def fresh : Machine where
  memory := .initial
  stack := .filled 0
  display := .blank 64 32
  keypad := .released
  registers := .replicate 4 0
  pc := programStart
  index := 0
  delay := 0
  sound := 0
  drawn := false

/-- The state as four lines of text. Memory and display are left out. -/
def text (m : Machine) : String :=
  String.intercalate "\n"
    [String.intercalate " | "
      ["PC_REGISTER:0x" ++ Text.hex 3 m.pc.toNat,
       "IDX_REGISTER:0x" ++ Text.hex 3 m.index.toNat,
       "VARIABLE_REGISTERS:" ++ Text.bracketed (m.registers.toList.map fun b => Text.decimal b.toNat)],
     "DELAY_TIMER:" ++ Text.decimal m.delay.toNat ++ " | SOUND_TIMER:" ++ Text.decimal m.sound.toNat,
     "STACK:" ++ m.stack.text fun a => a.toNat,
     "DRAW: " ++ (if m.drawn then "True" else "False") ++ " | KEYPAD:" ++ m.keypad.text]

end Machine
end ChipEight
