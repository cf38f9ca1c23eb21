import ChipEight.Word
import Mathlib.Data.Int.Bitwise

/-!
# Words as integers

Masks, shifts and bitwise operations on unbounded integers, told by the words that the integers stand for. Masking an
integer of any size and sign takes its low bits (`land_ones`), so that it gives a word (`land_word`). The low bits are a
remainder (`natCast_toNat_ofInt`), and the fields of a word are quotients and remainders (`toNat_field`).
-/

namespace ChipEight

variable {w : Nat}

theorem testBit_toNat_ofInt (i : Int) (k : Nat) :
    (BitVec.ofInt w i).toNat.testBit k = (decide (k < w) && i.testBit k) := by
  cases i with
  | ofNat a =>
    rw [show BitVec.ofInt w (Int.ofNat a) = BitVec.ofNat w a from BitVec.ofInt_natCast w a, BitVec.toNat_ofNat,
      Nat.testBit_mod_two_pow]
    rfl
  | negSucc a =>
    rw [BitVec.ofInt_negSucc_eq_not_ofNat, BitVec.testBit_toNat, BitVec.getLsbD_not, BitVec.getLsbD_ofNat]
    show _ = (decide (k < w) && !a.testBit k)
    cases decide (k < w) <;> rfl

/-- An integer and a number of at most `w` bits have only low bits in common. -/
theorem land_natCast (i : Int) {m : Nat} (h : m < 2 ^ w) : i.land m = ((BitVec.ofInt w i).toNat &&& m : Nat) := by
  have hm {k : Nat} (hk : m.testBit k = true) : k < w :=
    Nat.lt_of_not_le fun hle => by
      rw [Nat.testBit_lt_two_pow (Nat.lt_of_lt_of_le h (Nat.pow_le_pow_right (by decide) hle))] at hk
      cases hk
  have hbits (k : Nat) : ((BitVec.ofInt w i).toNat &&& m).testBit k = (m.testBit k && i.testBit k) := by
    rw [Nat.testBit_and, testBit_toNat_ofInt, Bool.and_comm]
    cases hk : m.testBit k with
    | false => rfl
    | true => rw [decide_eq_true (hm hk), Bool.true_and]
  cases i with
  | ofNat a =>
    show ((a &&& m : Nat) : Int) = _
    refine congrArg _ (Nat.eq_of_testBit_eq fun k => ?_)
    rw [hbits, Nat.testBit_and, Bool.and_comm]
    rfl
  | negSucc a =>
    show ((Nat.ldiff m a : Nat) : Int) = _
    refine congrArg _ (Nat.eq_of_testBit_eq fun k => ?_)
    rw [hbits, Nat.testBit_ldiff]
    rfl

theorem land_word (i : Int) (b : BitVec w) : i.land b.toNat = (BitVec.ofInt w i &&& b).toNat := by
  rw [land_natCast i b.isLt, BitVec.toNat_and]

/-- Masking with `w` ones. -/
theorem land_ones (i : Int) {m : Int} (h : m = ((2 ^ w - 1 : Nat) : Int)) : i.land m = (BitVec.ofInt w i).toNat := by
  rw [h, land_natCast i (Nat.sub_one_lt (Nat.two_pow_pos w).ne'), Nat.and_two_pow_sub_one_eq_mod,
    Nat.mod_eq_of_lt (BitVec.isLt _)]

theorem land_0xf (i : Int) : i.land 0xf = (BitVec.ofInt 4 i).toNat := land_ones i rfl
theorem land_0xff (i : Int) : i.land 0xff = (BitVec.ofInt 8 i).toNat := land_ones i rfl
theorem land_0xfff (i : Int) : i.land 0xfff = (BitVec.ofInt 12 i).toNat := land_ones i rfl
theorem land_0xffff (i : Int) : i.land 0xffff = (BitVec.ofInt 16 i).toNat := land_ones i rfl

theorem ofInt_toNat (b : BitVec w) (v : Nat) : BitVec.ofInt v b.toNat = b.setWidth v := by
  rw [BitVec.ofInt_natCast, BitVec.ofNat_toNat]

theorem Word.ofInt_natCast_toNat (w : Word) : Word.ofInt w.toNat = w := by
  rw [Word.ofInt, ofInt_toNat, BitVec.setWidth_eq]

theorem ofInt_sub (i j : Int) : BitVec.ofInt w (i - j) = BitVec.ofInt w i - BitVec.ofInt w j := by
  rw [Int.sub_eq_add_neg, BitVec.ofInt_add, BitVec.ofInt_neg, BitVec.sub_eq_add_neg]

theorem natCast_toNat_ofInt (i : Int) : ((BitVec.ofInt w i).toNat : Int) = i % ((2 ^ w : Nat) : Int) := by
  rw [BitVec.toNat_ofInt]
  exact Int.toNat_of_nonneg (Int.emod_nonneg _ (Int.natCast_ne_zero.2 (Nat.two_pow_pos w).ne'))

theorem ofInt_eq_ofInt_iff {i j : Int} :
    BitVec.ofInt w i = BitVec.ofInt w j ↔ i % ((2 ^ w : Nat) : Int) = j % ((2 ^ w : Nat) : Int) := by
  rw [← natCast_toNat_ofInt, ← natCast_toNat_ofInt, Int.ofNat_inj, BitVec.toNat_inj]

/-- A field of a word in the bits from `start` on, taken out by a division and a remainder. -/
theorem toNat_field (a : BitVec w) (start length : Nat) :
    (a.extractLsb' start length).toNat = a.toNat / 2 ^ start % 2 ^ length := by
  rw [BitVec.extractLsb'_toNat, Nat.shiftRight_eq_div_pow]

/-- A field of a word in the bits from `start` on, taken out by a mask and a shift. -/
theorem land_shiftRight (a : BitVec w) (start length : Nat) :
    ((a.toNat &&& (2 ^ length - 1) <<< start) >>> start) = (a.extractLsb' start length).toNat := by
  rw [Nat.shiftRight_and_distrib, Nat.shiftLeft_shiftRight, Nat.and_two_pow_sub_one_eq_mod,
    BitVec.extractLsb'_toNat]

end ChipEight
