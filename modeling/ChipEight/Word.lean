/-!
# Machine words and their fields

The widths of the machine: nibbles, bytes, 12-bit addresses and 16-bit words. `Fields.ofWord` splits
a word into its overlapping fields; every word splits, and the fields put it together again
(`Fields.nibbles_append`).
-/

namespace ChipEight

abbrev Nibble := BitVec 4
abbrev Byte := BitVec 8
abbrev Address := BitVec 12
abbrev Word := BitVec 16

/-- The low four bits of an integer. -/
def Nibble.ofInt (i : Int) : Nibble := BitVec.ofInt 4 i

/-- The low eight bits of an integer. -/
def Byte.ofInt (i : Int) : Byte := BitVec.ofInt 8 i

/-- The low twelve bits of an integer. -/
def Address.ofInt (i : Int) : Address := BitVec.ofInt 12 i

namespace Word

/-- The low sixteen bits of an integer. -/
def ofInt (i : Int) : Word := BitVec.ofInt 16 i

/-- The most significant nibble, which names the family of an instruction. -/
def kind (w : Word) : Nibble := w.extractLsb' 12 4

/-- The register operand in bits 8 to 11. -/
def x (w : Word) : Nibble := w.extractLsb' 8 4

/-- The register operand in bits 4 to 7. -/
def y (w : Word) : Nibble := w.extractLsb' 4 4

/-- The least significant nibble. -/
def n (w : Word) : Nibble := w.extractLsb' 0 4

/-- The address in the low 12 bits. -/
def nnn (w : Word) : Address := w.extractLsb' 0 12

/-- The constant in the low byte. -/
def kk (w : Word) : Byte := w.extractLsb' 0 8

def high (w : Word) : Byte := w.extractLsb' 8 8

def low (w : Word) : Byte := w.kk

/-- The word of two bytes, the more significant one first. -/
def ofBytes (high low : Byte) : Word := high ++ low

theorem ofBytes_high_low (w : Word) : ofBytes w.high w.low = w := by
  unfold ofBytes high low kk
  ext i hi
  simp only [BitVec.getElem_append, BitVec.getElem_extractLsb']
  split
  · rw [Nat.zero_add]
    exact BitVec.getLsbD_eq_getElem hi
  · rw [show 8 + (i - 8) = i by omega]
    exact BitVec.getLsbD_eq_getElem hi

end Word

/-- A word and its fields. -/
structure Fields where
  opcode : Word
  kind : Nibble
  x : Nibble
  y : Nibble
  n : Nibble
  nnn : Address
  kk : Byte
deriving DecidableEq, Repr

namespace Fields

def ofWord (w : Word) : Fields := ⟨w, w.kind, w.x, w.y, w.n, w.nnn, w.kk⟩

/-- The fields of the low 16 bits of an integer. -/
def ofInt (opcode : Int) : Fields := ofWord (Word.ofInt opcode)

theorem nibbles_append (w : Word) : w.kind ++ w.x ++ w.y ++ w.n = w := by
  unfold Word.kind Word.x Word.y Word.n
  ext i hi
  simp only [BitVec.getElem_append, BitVec.getElem_extractLsb']
  split
  · rw [Nat.zero_add]
    exact BitVec.getLsbD_eq_getElem hi
  · split
    · rw [show 4 + (i - 4) = i by omega]
      exact BitVec.getLsbD_eq_getElem hi
    · split
      · rw [show 8 + (i - 4 - 4) = i by omega]
        exact BitVec.getLsbD_eq_getElem hi
      · rw [show 12 + (i - 4 - 4 - 4) = i by omega]
        exact BitVec.getLsbD_eq_getElem hi

end Fields
end ChipEight
