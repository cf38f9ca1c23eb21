/-!
# Integers of the system

The system works with integers of 32 and 64 bits with a sign. An integer that is handed to it is either
taken as it is, and refused if it does not fit (`exact32`), or cut down to its low 32 bits, and refused
only if it does not fit into 64 (`low32?`). Within 32 bits the two agree.
-/

namespace ChipEight.NativeInteger

def Fits32 (i : Int) : Prop := -0x80000000 ≤ i ∧ i < 0x80000000

def Fits64 (i : Int) : Prop := -0x8000000000000000 ≤ i ∧ i < 0x8000000000000000

instance (i : Int) : Decidable (Fits32 i) := inferInstanceAs (Decidable (_ ∧ _))

instance (i : Int) : Decidable (Fits64 i) := inferInstanceAs (Decidable (_ ∧ _))

/-- Why an integer is not one of 32 bits. -/
inductive RangeError where
  | beyond64
  | above32
  | below32
deriving DecidableEq, Repr

def RangeError.message : RangeError → String
  | .beyond64 => "Python int too large to convert to C long"
  | .above32 => "signed integer is greater than maximum"
  | .below32 => "signed integer is less than minimum"

/-- The integer itself, if it has 32 bits. -/
def exact32 (i : Int) : Except RangeError Int :=
  if Fits32 i then .ok i
  else if Fits64 i then .error (if 0 ≤ i then .above32 else .below32)
  else .error .beyond64

/-- The low 32 bits, read with a sign, of an integer of 64 bits. -/
def low32? (i : Int) : Option Int :=
  if Fits64 i then some (BitVec.ofInt 32 i).toInt else none

theorem Fits32.fits64 {i : Int} (h : Fits32 i) : Fits64 i := by
  obtain ⟨h, h'⟩ := h
  exact ⟨by omega, by omega⟩

theorem exact32_of_fits {i : Int} (h : Fits32 i) : exact32 i = .ok i := if_pos h

theorem low32?_of_fits {i : Int} (h : Fits32 i) : low32? i = some i := by
  obtain ⟨h₁, h₂⟩ := id h
  rw [low32?, if_pos h.fits64, BitVec.toInt_ofInt, Int.bmod_eq_of_le (by omega) (by omega)]

end ChipEight.NativeInteger
