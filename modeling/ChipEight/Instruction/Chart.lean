import ChipEight.Instruction.Basic

/-!
# The opcode chart

One row for each operation: the bits of a word that name it, and how its operands are read. Looking
a word up in the chart is a second way to decode it, beside the nested `Instruction.ofWord`.
-/

namespace ChipEight

/-- A row of the chart: the words that agree with `value` in the bits of `mask`. -/
structure Pattern where
  mask : Word
  value : Word
  instruction : Word → Instruction

namespace Pattern

def Matches (p : Pattern) (w : Word) : Prop := w &&& p.mask = p.value

instance (p : Pattern) (w : Word) : Decidable (p.Matches w) := inferInstanceAs (Decidable (_ = _))

end Pattern

namespace Instruction

/-- The chart. No word matches two of its rows. -/
def chart : List Pattern :=
  [⟨0xf0ff, 0x00e0, fun _ => .clearScreen⟩,
   ⟨0xf0ff, 0x00ee, fun _ => .ret⟩,
   ⟨0xf000, 0x1000, fun w => .jump w.nnn⟩,
   ⟨0xf000, 0x2000, fun w => .call w.nnn⟩,
   ⟨0xf000, 0x3000, fun w => .skipIfEqual w.x w.kk⟩,
   ⟨0xf000, 0x4000, fun w => .skipUnlessEqual w.x w.kk⟩,
   ⟨0xf000, 0x5000, fun w => .skipIfSame w.x w.y⟩,
   ⟨0xf000, 0x6000, fun w => .setConstant w.x w.kk⟩,
   ⟨0xf000, 0x7000, fun w => .addConstant w.x w.kk⟩,
   ⟨0xf00f, 0x8000, fun w => .copy w.x w.y⟩,
   ⟨0xf00f, 0x8001, fun w => .or w.x w.y⟩,
   ⟨0xf00f, 0x8002, fun w => .and w.x w.y⟩,
   ⟨0xf00f, 0x8003, fun w => .xor w.x w.y⟩,
   ⟨0xf00f, 0x8004, fun w => .add w.x w.y⟩,
   ⟨0xf00f, 0x8005, fun w => .subtract w.x w.y⟩,
   ⟨0xf00f, 0x8006, fun w => .shiftRight w.x⟩,
   ⟨0xf00f, 0x8007, fun w => .subtractFrom w.x w.y⟩,
   ⟨0xf00f, 0x800e, fun w => .shiftLeft w.x⟩,
   ⟨0xf000, 0x9000, fun w => .skipUnlessSame w.x w.y⟩,
   ⟨0xf000, 0xa000, fun w => .setIndex w.nnn⟩,
   ⟨0xf000, 0xb000, fun w => .jumpPlus w.nnn⟩,
   ⟨0xf000, 0xc000, fun w => .random w.x w.kk⟩,
   ⟨0xf000, 0xd000, fun w => .draw w.x w.y w.n⟩,
   ⟨0xf0ff, 0xe09e, fun w => .skipIfDown w.x⟩,
   ⟨0xf0ff, 0xe0a1, fun w => .skipUnlessDown w.x⟩,
   ⟨0xf0ff, 0xf007, fun w => .readDelay w.x⟩,
   ⟨0xf0ff, 0xf00a, fun w => .waitKey w.x⟩,
   ⟨0xf0ff, 0xf015, fun w => .setDelay w.x⟩,
   ⟨0xf0ff, 0xf018, fun w => .setSound w.x⟩,
   ⟨0xf0ff, 0xf01e, fun w => .addIndex w.x⟩,
   ⟨0xf0ff, 0xf029, fun w => .glyph w.x⟩,
   ⟨0xf0ff, 0xf033, fun w => .storeDigits w.x⟩,
   ⟨0xf0ff, 0xf055, fun w => .storeRegisters w.x⟩,
   ⟨0xf0ff, 0xf065, fun w => .loadRegisters w.x⟩]

/-- The instruction of the first row that a word matches; a word without a row is unknown. -/
def lookup (w : Word) : Instruction :=
  match chart.find? fun p => p.Matches w with
  | some p => p.instruction w
  | none => .unknown w

end Instruction
end ChipEight
