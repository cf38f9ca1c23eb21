import ChipEight.Word

/-!
# Instructions

The 34 operations with the operands that each of them reads, and the words that name none.
`Instruction.ofWord` decodes in two steps: the leading nibble gives the operation or one of four
families, and in a family the last nibble or byte selects the operation.
-/

namespace ChipEight

/-- An instruction. `x` and `y` are registers and `k` is a constant. -/
inductive Instruction where
  | clearScreen
  | ret
  | jump (target : Address)
  | call (target : Address)
  | skipIfEqual (x : Nibble) (k : Byte)
  | skipUnlessEqual (x : Nibble) (k : Byte)
  | skipIfSame (x y : Nibble)
  | setConstant (x : Nibble) (k : Byte)
  | addConstant (x : Nibble) (k : Byte)
  | copy (x y : Nibble)
  | or (x y : Nibble)
  | and (x y : Nibble)
  | xor (x y : Nibble)
  | add (x y : Nibble)
  | subtract (x y : Nibble)
  | shiftRight (x : Nibble)
  | subtractFrom (x y : Nibble)
  | shiftLeft (x : Nibble)
  | skipUnlessSame (x y : Nibble)
  | setIndex (address : Address)
  | jumpPlus (base : Address)
  | random (x : Nibble) (mask : Byte)
  | draw (x y rows : Nibble)
  | skipIfDown (x : Nibble)
  | skipUnlessDown (x : Nibble)
  | readDelay (x : Nibble)
  | waitKey (x : Nibble)
  | setDelay (x : Nibble)
  | setSound (x : Nibble)
  | addIndex (x : Nibble)
  | glyph (x : Nibble)
  | storeDigits (x : Nibble)
  | storeRegisters (last : Nibble)
  | loadRegisters (last : Nibble)
  | unknown (word : Word)
deriving DecidableEq, Repr

namespace Instruction

/-- The words `0___`, by their last byte. -/
def ofSystemWord (w : Word) : Instruction :=
  match w.kk with
  | 0xe0#8 => .clearScreen
  | 0xee#8 => .ret
  | _ => .unknown w

/-- The words `8xy_`, by their last nibble. -/
def ofArithmeticWord (w : Word) : Instruction :=
  match w.n with
  | 0x0#4 => .copy w.x w.y
  | 0x1#4 => .or w.x w.y
  | 0x2#4 => .and w.x w.y
  | 0x3#4 => .xor w.x w.y
  | 0x4#4 => .add w.x w.y
  | 0x5#4 => .subtract w.x w.y
  | 0x6#4 => .shiftRight w.x
  | 0x7#4 => .subtractFrom w.x w.y
  | 0xe#4 => .shiftLeft w.x
  | _ => .unknown w

/-- The words `Ex__`, by their last byte. -/
def ofKeyWord (w : Word) : Instruction :=
  match w.kk with
  | 0x9e#8 => .skipIfDown w.x
  | 0xa1#8 => .skipUnlessDown w.x
  | _ => .unknown w

/-- The words `Fx__`, by their last byte. -/
def ofDeviceWord (w : Word) : Instruction :=
  match w.kk with
  | 0x07#8 => .readDelay w.x
  | 0x0a#8 => .waitKey w.x
  | 0x15#8 => .setDelay w.x
  | 0x18#8 => .setSound w.x
  | 0x1e#8 => .addIndex w.x
  | 0x29#8 => .glyph w.x
  | 0x33#8 => .storeDigits w.x
  | 0x55#8 => .storeRegisters w.x
  | 0x65#8 => .loadRegisters w.x
  | _ => .unknown w

/-- The instruction a word stands for. -/
def ofWord (w : Word) : Instruction :=
  match w.kind with
  | 0x0#4 => ofSystemWord w
  | 0x1#4 => .jump w.nnn
  | 0x2#4 => .call w.nnn
  | 0x3#4 => .skipIfEqual w.x w.kk
  | 0x4#4 => .skipUnlessEqual w.x w.kk
  | 0x5#4 => .skipIfSame w.x w.y
  | 0x6#4 => .setConstant w.x w.kk
  | 0x7#4 => .addConstant w.x w.kk
  | 0x8#4 => ofArithmeticWord w
  | 0x9#4 => .skipUnlessSame w.x w.y
  | 0xa#4 => .setIndex w.nnn
  | 0xb#4 => .jumpPlus w.nnn
  | 0xc#4 => .random w.x w.kk
  | 0xd#4 => .draw w.x w.y w.n
  | 0xe#4 => ofKeyWord w
  | _ => ofDeviceWord w

end Instruction
end ChipEight
