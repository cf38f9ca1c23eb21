import ChipEight.Instruction.Basic
import ChipEight.Text.Numeral

/-!
# Listings

The assembly text of an instruction and the line that reports its execution. Registers and sprite
heights are decimal, addresses and constants hexadecimal.
-/

namespace ChipEight

namespace Instruction

def text : Instruction → String
  | .clearScreen => "CLS"
  | .ret => "RET"
  | .jump a => "JP " ++ address a
  | .call a => "CALL " ++ address a
  | .skipIfEqual x k => binary "SE" (register x) (constant k)
  | .skipUnlessEqual x k => binary "SNE" (register x) (constant k)
  | .skipIfSame x y => binary "SE" (register x) (register y)
  | .setConstant x k => binary "LD" (register x) (constant k)
  | .addConstant x k => binary "ADD" (register x) (constant k)
  | .copy x y => binary "LD" (register x) (register y)
  | .or x y => binary "OR" (register x) (register y)
  | .and x y => binary "AND" (register x) (register y)
  | .xor x y => binary "XOR" (register x) (register y)
  | .add x y => binary "ADD" (register x) (register y)
  | .subtract x y => binary "SUB" (register x) (register y)
  | .shiftRight x => "SHR " ++ register x
  | .subtractFrom x y => binary "SUBN" (register x) (register y)
  | .shiftLeft x => "SHL " ++ register x
  | .skipUnlessSame x y => binary "SNE" (register x) (register y)
  | .setIndex a => binary "LD" "I" (address a)
  | .jumpPlus a => binary "JP" "V0" (address a)
  | .random x k => binary "RND" (register x) (constant k)
  | .draw x y n => binary "DRW" (register x) (register y) ++ ", " ++ Text.decimal n.toNat
  | .skipIfDown x => "SKP " ++ register x
  | .skipUnlessDown x => "SKNP " ++ register x
  | .readDelay x => binary "LD" (register x) "DT"
  | .waitKey x => binary "LD" (register x) "K"
  | .setDelay x => binary "LD" "DT" (register x)
  | .setSound x => binary "LD" "ST" (register x)
  | .addIndex x => binary "ADD" "I" (register x)
  | .glyph x => binary "LD" "F" (register x)
  | .storeDigits x => binary "LD" "B" (register x)
  | .storeRegisters x => binary "LD" "[I]" (register x)
  | .loadRegisters x => binary "LD" (register x) "[I]"
  | .unknown w => "UNKNOWN 0x" ++ Text.hex 4 w.toNat
where
  register (x : Nibble) : String := "V" ++ Text.decimal x.toNat
  constant (k : Byte) : String := "0x" ++ Text.hex 2 k.toNat
  address (a : Address) : String := "0x" ++ Text.hex 3 a.toNat
  binary (mnemonic left right : String) : String := mnemonic ++ " " ++ left ++ ", " ++ right

end Instruction

/-- An executed instruction and the address it was fetched from. -/
structure TraceLine where
  address : Address
  instruction : Instruction
deriving DecidableEq, Repr

def TraceLine.text (l : TraceLine) : String :=
  "mem_addr: 0x" ++ Text.hex 4 l.address.toNat ++ "    instruction: " ++ l.instruction.text

end ChipEight
