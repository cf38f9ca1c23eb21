import ChipEight.Framebuffer
import Mathlib.Data.Int.Bitwise

/-!
# Cells as integers

The values of a framebuffer's cells as one list (`integers`). A cell is zero or 32 ones (`eq_of_mem_integers`), and to
flip it is to flip all 32 bits of its value (`set_integers`).
-/

namespace ChipEight.Framebuffer
variable {width height : Int}

def cellInteger (lit : Bool) : Int := (cellValue lit).toNat

/-- The values of the cells in order. -/
@[irreducible] def integers (f : Framebuffer width height) : List Int :=
  (List.range (cellCount width height)).map fun n => cellInteger (f.cells.getLsbD n)

theorem xor_cellInteger (lit : Bool) : (cellInteger lit).xor 0xffffffff = cellInteger (!lit) := by
  cases lit <;> decide

theorem decide_cellInteger (lit : Bool) : decide (cellInteger lit = 0xffffffff) = lit := by
  cases lit <;> rfl

variable (f : Framebuffer width height)

theorem length_integers : f.integers.length = cellCount width height := by
  rw [integers, List.length_map, List.length_range]

theorem getElem_integers {n : Nat} (h : n < f.integers.length) :
    f.integers[n] = cellInteger (f.cells.getLsbD n) := by
  simp only [integers, List.getElem_map, List.getElem_range]

theorem getElem?_integers {n : Nat} (h : n < cellCount width height) :
    f.integers[n]? = some (cellInteger (f.cells.getLsbD n)) := by
  rw [List.getElem?_eq_getElem (f.length_integers ▸ h), getElem_integers]

theorem eq_of_mem_integers {c : Int} (h : c ∈ f.integers) : c = 0 ∨ c = 0xffffffff := by
  obtain ⟨n, hn, rfl⟩ := List.getElem_of_mem h
  rw [getElem_integers]
  cases f.cells.getLsbD n
  · exact .inl rfl
  · exact .inr rfl

theorem integers_blank (width height : Int) :
    (blank width height).integers = List.replicate (cellCount width height) 0 :=
  List.ext_getElem (by rw [List.length_replicate, length_integers]) fun n _ _ => by
    rw [List.getElem_replicate, getElem_integers, getLsbD_blank]
    rfl

theorem set_integers {n : Nat} (h : n < cellCount width height) :
    f.integers.set n ((cellInteger (f.cells.getLsbD n)).xor 0xffffffff) =
      (f.flip (ofCells width height [n])).integers := by
  rw [xor_cellInteger]
  refine List.ext_getElem (by rw [List.length_set, length_integers, length_integers]) fun k _ _ => ?_
  rw [List.getElem_set, getElem_integers, getElem_integers, getLsbD_flip, getLsbD_ofCells]
  by_cases hk : n = k
  · simp [← hk, h]
  · rw [if_neg hk, decide_eq_false fun hmem => hk (List.mem_singleton.1 hmem).symm, Bool.and_false, Bool.xor_false]

end ChipEight.Framebuffer
