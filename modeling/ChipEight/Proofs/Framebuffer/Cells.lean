import ChipEight.Framebuffer

/-!
# Cells by their places

On the grid the cell at `(x, y)` is bit `y * width + x`. `isLit` reads this bit (`isLit_natCast`), the rows list
it (`getElem?_rowCells`), and the lit cells are the places where it is set (`mem_litCells`). Two framebuffers meet
if there is a place where both have it set (`meets_iff`).
-/

namespace ChipEight.Framebuffer
variable {width height : Int} (f : Framebuffer width height)

theorem cell_lt {w h x y : Nat} (hx : x < w) (hy : y < h) : y * w + x < w * h :=
  calc y * w + x < y * w + w := by omega
    _ = (y + 1) * w := by rw [Nat.add_mul, Nat.one_mul]
    _ ≤ h * w := Nat.mul_le_mul_right w hy
    _ = w * h := Nat.mul_comm ..

theorem place_inj {w x₁ y₁ x₂ y₂ : Nat} (h₁ : x₁ < w) (h₂ : x₂ < w) (h : y₁ * w + x₁ = y₂ * w + x₂) :
    x₁ = x₂ ∧ y₁ = y₂ := by
  have hrow (x y : Nat) (hx : x < w) : (y * w + x) / w = y := by
    rw [Nat.add_comm, Nat.add_mul_div_right _ _ (Nat.zero_lt_of_lt hx), Nat.div_eq_of_lt hx, Nat.zero_add]
  obtain rfl : y₁ = y₂ := by rw [← hrow x₁ y₁ h₁, h, hrow x₂ y₂ h₂]
  exact ⟨Nat.add_left_cancel h, rfl⟩

theorem ext_places {f g : Framebuffer width height} (h : ∀ x y, x < width.toNat → y < height.toNat →
    f.cells.getLsbD (y * width.toNat + x) = g.cells.getLsbD (y * width.toNat + x)) : f = g := by
  refine ext (BitVec.eq_of_getLsbD_eq fun n hn => ?_)
  have hw : 0 < width.toNat := Nat.pos_of_mul_pos_right (Nat.zero_lt_of_lt hn)
  have hplace := h (n % width.toNat) (n / width.toNat) (Nat.mod_lt n hw) (Nat.div_lt_of_lt_mul hn)
  rwa [Nat.div_add_mod'] at hplace

theorem meets_iff {f g : Framebuffer width height} : f.meets g = true ↔ ∃ x y, x < width.toNat ∧ y < height.toNat ∧
    f.cells.getLsbD (y * width.toNat + x) = true ∧ g.cells.getLsbD (y * width.toNat + x) = true := by
  rw [meets, decide_eq_true_iff]
  constructor
  · intro h
    refine Classical.byContradiction fun hno => h ?_
    have hblank : (⟨f.cells &&& g.cells⟩ : Framebuffer width height) = blank width height := by
      refine ext_places fun x y hx hy => ?_
      rw [getLsbD_blank, BitVec.getLsbD_and]
      exact Bool.eq_false_iff.2 fun hboth => hno ⟨x, y, hx, hy, Bool.and_eq_true_iff.1 hboth⟩
    exact congrArg cells hblank
  · rintro ⟨x, y, -, -, hf, hg⟩ h
    have hbit := congrArg (·.getLsbD (y * width.toNat + x)) h
    simp [hf, hg] at hbit

theorem index_natCast {x y : Nat} (hx : x < width.toNat) (hy : y < height.toNat) :
    f.index x y = .ok (y * width.toNat + x) := by
  have hlt := cell_lt hx hy
  have hw : (width.toNat : Int) = width := Int.toNat_of_nonneg (by omega)
  have hn : (y : Int) * width + x = (y * width.toNat + x : Nat) := by
    rw [Int.natCast_add, Int.natCast_mul, hw]
  simp only [index, hn, count]
  rw [if_neg (Int.not_lt.2 (Int.natCast_nonneg _)), if_pos ⟨Int.natCast_nonneg _, Int.ofNat_lt.2 hlt⟩,
    Int.toNat_natCast]

theorem isLit_natCast {x y : Nat} (hx : x < width.toNat) (hy : y < height.toNat) :
    f.isLit x y = .ok (f.cells.getLsbD (y * width.toNat + x)) := by
  rw [isLit, f.index_natCast hx hy]
  rfl

theorem getElem?_rowCells {x : Nat} (y : Nat) (hx : x < width.toNat) :
    (f.rowCells y)[x]? = some (f.cells.getLsbD (y * width.toNat + x)) := by
  rw [rowCells, List.getElem?_map, List.getElem?_range hx, Option.map_some, row,
    BitVec.getLsbD_extractLsb', decide_eq_true hx, Bool.true_and]

theorem mem_litCells {x y : Nat} :
    (x, y) ∈ f.litCells ↔
      x < width.toNat ∧ y < height.toNat ∧ f.cells.getLsbD (y * width.toNat + x) = true := by
  have hrow (lit : Bool) : (f.rowCells y)[x]? = some lit ↔
      x < width.toNat ∧ f.cells.getLsbD (y * width.toNat + x) = lit := by
    by_cases hx : x < width.toNat
    · simp [f.getElem?_rowCells y hx, hx]
    · have hnone : (f.rowCells y)[x]? = none := List.getElem?_eq_none (by simpa [rowCells] using hx)
      simp [hnone, hx]
  simp only [litCells, rows, List.mem_flatMap, List.mem_filterMap, List.mem_zipIdx_iff_getElem?]
  constructor
  · rintro ⟨⟨row, y'⟩, hy, ⟨lit, x'⟩, hx, h⟩
    cases lit with
    | false => cases h
    | true =>
      obtain ⟨rfl, rfl⟩ : x' = x ∧ y' = y := by simpa using h
      simp only [List.getElem?_map, Option.map_eq_some_iff, List.getElem?_eq_some_iff, List.length_range,
        List.getElem_range] at hy
      obtain ⟨_, ⟨hy, rfl⟩, rfl⟩ := hy
      obtain ⟨hx, hlit⟩ := (hrow true).1 hx
      exact ⟨hx, hy, hlit⟩
  · rintro ⟨hx, hy, hlit⟩
    exact ⟨(f.rowCells y, y), by simp [hy], (true, x), (hrow true).2 ⟨hx, hlit⟩, rfl⟩

end ChipEight.Framebuffer
