import ChipEight.Proofs.Checked.Parts
import ChipEight.Proofs.Memory.LastValue

/-!
# Decoding

An integer of any size and sign is decoded by its low 16 bits. These are spelled by four hexadecimal digits, and the
constant and the address overlap with the digits that make them up (`decode_spells`). The four digits tell all the rest
(`Spells.digits_eq_iff`), so only the bits above the word are lost. A word written as two bytes, at whatever address,
is read back (`Memory.word_writeWord`) and decoded to the fields that it had.
-/

namespace ChipEight

namespace Word

theorem toNat_ofInt (i : Int) : ((Word.ofInt i).toNat : Int) = i % 65536 := natCast_toNat_ofInt i

theorem ofInt_eq_iff {i j : Int} : Word.ofInt i = Word.ofInt j ↔ i % 65536 = j % 65536 := ofInt_eq_ofInt_iff

theorem ofInt_emod (i : Int) : Word.ofInt (i % 65536) = Word.ofInt i :=
  ofInt_eq_iff.2 (Int.emod_emod_of_dvd i (Int.dvd_refl 65536))

/-! ### The bytes of an integer -/

theorem high_ofInt (i : Int) : (Word.ofInt i).high = Byte.ofInt (i >>> (8 : Nat)) := by
  have hhigh : (Word.ofInt i).high.toNat = (Word.ofInt i).toNat / 256 % 256 := toNat_field _ 8 8
  have hshift : i >>> (8 : Nat) = i / 256 := Int.shiftRight_eq_div_pow i 8
  refine BitVec.eq_of_toNat_eq (Int.ofNat_inj.1 ?_)
  rw [hhigh, hshift, Byte.toNat_ofInt, Int.natCast_emod, Int.natCast_ediv, toNat_ofInt]
  omega

theorem low_ofInt (i : Int) : (Word.ofInt i).low = Byte.ofInt (i.land 0xff) := by
  have hlow : (Word.ofInt i).low.toNat = (Word.ofInt i).toNat / 1 % 256 := toNat_field _ 0 8
  have hmask : i.land 0xff = i % 256 := (land_0xff i).trans (Byte.toNat_ofInt i)
  refine BitVec.eq_of_toNat_eq (Int.ofNat_inj.1 ?_)
  rw [hlow, hmask, Byte.toNat_ofInt, Nat.div_one, Int.natCast_emod, toNat_ofInt]
  omega

end Word

theorem Fields.ofInt_eq_iff {i j : Int} : Fields.ofInt i = Fields.ofInt j ↔ i % 65536 = j % 65536 :=
  ⟨fun h => Word.ofInt_eq_iff.1 (congrArg Fields.opcode h),
    fun h => congrArg Fields.ofWord (Word.ofInt_eq_iff.2 h)⟩

namespace Memory

/-- Writes the two bytes of a word, the more significant one first. -/
def writeWord (m : Memory) (address word : Int) : Memory :=
  (m.write address (word >>> (8 : Nat))).write (address + 1) (word.land 0xff)

variable (m : Memory) (address word : Int)

theorem writeWord_eq_store : m.writeWord address word =
    m.store (.ofInt address) [(Word.ofInt word).high, (Word.ofInt word).low] := by
  rw [writeWord, write, write, ← Word.high_ofInt, ← Word.low_ofInt, Address.ofInt_add_one]
  rfl

theorem word_writeWord : (m.writeWord address word).word (.ofInt address) = .ofInt word := by
  rw [writeWord_eq_store, word_store]

theorem toNat_word_writeWord : (((m.writeWord address word).word (.ofInt address)).toNat : Int) = word % 65536 := by
  rw [word_writeWord, Word.toNat_ofInt]

end Memory

namespace Checked

namespace Operands

/-- The fields as integers. -/
def ofFields (f : Fields) : Operands :=
  ⟨f.opcode.toNat, f.kind.toNat, f.x.toNat, f.y.toNat, f.n.toNat, f.nnn.toNat, f.kk.toNat⟩

/-- The fields that do not overlap, the most significant one first. -/
def digits (i : Operands) : List Int := [i.kind, i.x, i.y, i.n]

/-- The digits of the operands spell the word, the address and the constant. -/
structure Spells (i : Operands) (word : Int) : Prop where
  opcode : i.opcode = word
  word : 4096 * i.kind + i.nnn = word
  address : i.nnn = 256 * i.x + i.kk
  constant : i.kk = 16 * i.y + i.n
  kind : 0 ≤ i.kind ∧ i.kind ≤ 15
  x : 0 ≤ i.x ∧ i.x ≤ 15
  y : 0 ≤ i.y ∧ i.y ≤ 15
  n : 0 ≤ i.n ∧ i.n ≤ 15

variable {i j : Operands} {v w : Int}

/-- There is one way to spell a word. -/
theorem Spells.eq (h : i.Spells w) (h' : j.Spells w) : i = j := by
  obtain ⟨hopcode, hword, haddress, hconstant, hkind, hx, hy, hn⟩ := h
  obtain ⟨hopcode', hword', haddress', hconstant', hkind', hx', hy', hn'⟩ := h'
  ext <;> omega

theorem Spells.digits_eq_iff (h : i.Spells v) (h' : j.Spells w) : i.digits = j.digits ↔ v = w := by
  constructor
  · intro heq
    simp only [digits, List.cons.injEq] at heq
    obtain ⟨hkind, hx, hy, hn, -⟩ := heq
    rw [← h.word, ← h'.word, h.address, h'.address, h.constant, h'.constant, hkind, hx, hy, hn]
  · rintro rfl
    rw [h.eq h']

theorem ofWord_spells (w : Word) : (Operands.ofWord w).Spells w.toNat := by
  have hw := w.isLt
  have hkind : w.kind.toNat = w.toNat / 2 ^ 12 % 2 ^ 4 := toNat_field w 12 4
  have hx : w.x.toNat = w.toNat / 2 ^ 8 % 2 ^ 4 := toNat_field w 8 4
  have hy : w.y.toNat = w.toNat / 2 ^ 4 % 2 ^ 4 := toNat_field w 4 4
  have hn : w.n.toNat = w.toNat / 2 ^ 0 % 2 ^ 4 := toNat_field w 0 4
  have hnnn : w.nnn.toNat = w.toNat / 2 ^ 0 % 2 ^ 12 := toNat_field w 0 12
  have hkk : w.kk.toNat = w.toNat / 2 ^ 0 % 2 ^ 8 := toNat_field w 0 8
  constructor <;> simp only [ofWord] <;> omega

end Operands

theorem decode_spells (opcode : Int) : (decode opcode).Spells (opcode % 65536) := by
  rw [decode_eq, ← Word.toNat_ofInt]
  exact Operands.ofWord_spells _

theorem decode_emod (opcode : Int) : decode (opcode % 65536) = decode opcode := by
  rw [decode_eq, decode_eq, Word.ofInt_emod]

variable {ρ : Type}

def writeWord (address word : Int) : Routine ρ Unit := do
  writeByte address (word >>> (8 : Nat))
  writeByte (address + 1) (word.land 0xff)

theorem writeWord_checked {source : ρ} {m : Machine} (address word : Int) :
    Yields (writeWord address word) (m.checked source) ()
      ({ m with memory := m.memory.writeWord address word }.checked source) :=
  (writeByte_checked address (word >>> (8 : Nat))).bind (writeByte_checked (address + 1) (word.land 0xff))

/-- Masks and shifts take the same fields out of an integer as out of its low 16 bits. The digits spell the larger
fields and the word, so that no two words have the same digits. The two bytes of a word may be written anywhere, also
round the end of memory: what is read back there is decoded to the fields of the word. -/
theorem decoding_loses_nothing :
    (∀ o : Int, decode o = .ofFields (.ofInt o) ∧ decode o = decode (o % 65536) ∧
      (decode o).Spells (o % 65536)) ∧
    (∀ o o' : Int, (Fields.ofInt o = Fields.ofInt o' ↔ o % 65536 = o' % 65536) ∧
      ((decode o).digits = (decode o').digits ↔ o % 65536 = o' % 65536)) ∧
    (∀ (m : Memory) (a o : Int),
      Fields.ofInt ((m.writeWord a o).word (.ofInt a)).toNat = Fields.ofInt o) ∧
    ∀ (m : Machine) (source : ρ) (a o : Int),
      Yields (do writeWord a o; pure (decode (← readWord a))) (m.checked source) (decode o)
        ({ m with memory := m.memory.writeWord a o }.checked source) := by
  refine ⟨fun o => ⟨decode_eq o, (decode_emod o).symm, decode_spells o⟩,
    fun o o' => ⟨Fields.ofInt_eq_iff, (decode_spells o).digits_eq_iff (decode_spells o')⟩, fun m a o => ?_,
    fun m source a o => ?_⟩
  · rw [m.toNat_word_writeWord, Fields.ofInt, Word.ofInt_emod]
    rfl
  · refine (writeWord_checked a o).bind ((readWord_ofInt a).bind ?_)
    rw [Memory.toNat_word_writeWord, decode_emod]
    exact .pure _ _

end Checked
end ChipEight
