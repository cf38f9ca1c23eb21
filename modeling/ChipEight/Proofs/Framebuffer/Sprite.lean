import ChipEight.Proofs.Framebuffer.Cells

/-!
# Sprites cell by cell

A sprite's cells, listed row by row (`spriteCells_eq_spriteFrom`), are all different (`pairwise_spriteFrom`). So drawing
the sprite at once is the same as flipping its cells in turn (`toggleEach_spriteCells`), and it turns a lit cell off
just if one of the flips does.
-/

namespace ChipEight.Framebuffer
variable {width height : Int}

/-- The numbers of the cells of row `y` under the set bits among some columns of a sprite's row. -/
def spriteRow (width height : Int) (x y : Nat) (bits : Byte) (columns : List Nat) : List Nat :=
  columns.filterMap fun column =>
    if bits.getMsbD column && x + column < width.toNat && y < height.toNat then
      some (y * width.toNat + (x + column))
    else none

/-- The numbers of the cells under the set bits of a sprite, row by row. -/
def spriteFrom (width height : Int) (x : Nat) : Nat → List Byte → List Nat
  | _, [] => []
  | y, bits :: sprite =>
    spriteRow width height x y bits (List.range 8) ++ spriteFrom width height x (y + 1) sprite

theorem spriteCells_eq_spriteFrom (x y : Nat) (sprite : List Byte) :
    spriteCells width height x y sprite = spriteFrom width height x y sprite := by
  suffices h : ∀ r, (sprite.zipIdx r).flatMap (fun row =>
      spriteRow width height x (y + row.2) row.1 (List.range 8)) = spriteFrom width height x (y + r) sprite from h 0
  induction sprite with
  | nil => intro r; rfl
  | cons bits sprite ih =>
    intro r
    rw [List.zipIdx_cons, List.flatMap_cons, ih (r + 1)]
    rfl

/-- A sprite covers a place just if the bit over it is set. -/
theorem mem_spriteCells {x y cx cy : Nat} {sprite : List Byte} (hx : cx < width.toNat) (hy : cy < height.toNat) :
    cy * width.toNat + cx ∈ spriteCells width height x y sprite ↔
      x ≤ cx ∧ y ≤ cy ∧ ∃ bits, sprite[cy - y]? = some bits ∧ bits.getMsbD (cx - x) = true := by
  simp only [spriteCells, List.mem_flatMap, List.mem_filterMap, List.mem_range, Prod.exists,
    List.mem_zipIdx_iff_getElem?, Option.ite_none_right_eq_some, Option.some.injEq, Bool.and_eq_true, decide_eq_true_eq]
  constructor
  · rintro ⟨bits, row, hbits, column, -, ⟨⟨hbit, hcolumn⟩, -⟩, hplace⟩
    obtain ⟨rfl, rfl⟩ := place_inj hcolumn hx hplace
    refine ⟨Nat.le_add_right .., Nat.le_add_right .., bits, ?_, ?_⟩
    · rwa [Nat.add_sub_cancel_left]
    · rwa [Nat.add_sub_cancel_left]
  · rintro ⟨hxle, hyle, bits, hbits, hbit⟩
    have hcolumn : cx - x < 8 := by
      rw [BitVec.getMsbD, Bool.and_eq_true, decide_eq_true_eq] at hbit
      exact hbit.1
    refine ⟨bits, cy - y, hbits, cx - x, hcolumn, ⟨⟨hbit, by omega⟩, by omega⟩, ?_⟩
    rw [Nat.add_sub_cancel' hxle, Nat.add_sub_cancel' hyle]

section
variable {x y n : Nat}

theorem mem_spriteRow {bits : Byte} {columns : List Nat} : n ∈ spriteRow width height x y bits columns ↔
    ∃ column ∈ columns, bits.getMsbD column = true ∧ x + column < width.toNat ∧ y < height.toNat ∧
      y * width.toNat + (x + column) = n := by
  simp [spriteRow, and_assoc]

theorem spriteRow_cons {bits : Byte} {column : Nat} {columns : List Nat} (hx : x + column < width.toNat)
    (hy : y < height.toNat) : spriteRow width height x y bits (column :: columns) =
      if bits.getMsbD column then
        (y * width.toNat + (x + column)) :: spriteRow width height x y bits columns
      else spriteRow width height x y bits columns := by
  have hon : (bits.getMsbD column && decide (x + column < width.toNat) && decide (y < height.toNat)) =
      bits.getMsbD column := by
    rw [decide_eq_true hx, decide_eq_true hy, Bool.and_true, Bool.and_true]
  rw [spriteRow, List.filterMap_cons, hon]
  cases bits.getMsbD column <;> rfl

theorem spriteRow_of_width_le {bits : Byte} {columns : List Nat} (h : ∀ c ∈ columns, width.toNat ≤ x + c) :
    spriteRow width height x y bits columns = [] :=
  List.eq_nil_iff_forall_not_mem.2 fun n hn => by
    obtain ⟨column, hc, -, hx, -, -⟩ := mem_spriteRow.1 hn
    have hle := h column hc
    omega

theorem le_of_mem_spriteFrom {sprite : List Byte} (h : n ∈ spriteFrom width height x y sprite) :
    y * width.toNat ≤ n := by
  induction sprite generalizing y with
  | nil => cases h
  | cons bits sprite ih =>
    rcases List.mem_append.1 h with h | h
    · obtain ⟨column, -, -, -, -, rfl⟩ := mem_spriteRow.1 h
      exact Nat.le_add_right _ _
    · exact Nat.le_trans (Nat.mul_le_mul_right _ (Nat.le_succ y)) (ih h)

theorem spriteFrom_of_height_le {sprite : List Byte} (h : height.toNat ≤ y) :
    spriteFrom width height x y sprite = [] := by
  induction sprite generalizing y with
  | nil => rfl
  | cons bits sprite ih =>
    have hrow : spriteRow width height x y bits (List.range 8) = [] :=
      List.eq_nil_iff_forall_not_mem.2 fun n hn => by
        obtain ⟨column, -, -, -, hy, -⟩ := mem_spriteRow.1 hn
        omega
    rw [spriteFrom, hrow, ih (Nat.le_succ_of_le h), List.nil_append]

/-- The cells of a sprite are listed in ascending order. -/
theorem pairwise_spriteFrom (sprite : List Byte) : (spriteFrom width height x y sprite).Pairwise (· < ·) := by
  induction sprite generalizing y with
  | nil => exact .nil
  | cons bits sprite ih =>
    refine List.pairwise_append.2 ⟨?_, ih, fun a ha b hb => ?_⟩
    · refine List.pairwise_filterMap.2 (List.pairwise_lt_range.imp fun hlt a ha b hb => ?_)
      simp only [Option.ite_none_right_eq_some, Option.some.injEq] at ha hb
      omega
    · obtain ⟨column, -, -, hx, -, rfl⟩ := mem_spriteRow.1 ha
      have hle := le_of_mem_spriteFrom hb
      rw [Nat.add_mul, Nat.one_mul] at hle
      omega

end

variable (f : Framebuffer width height)

theorem meets_ofCells (l : List Nat) : f.meets (ofCells width height l) = l.any f.cells.getLsbD := by
  have hzero (n : Nat) : (0 : BitVec (cellCount width height)).getLsbD n = false := BitVec.getLsbD_zero
  refine Bool.eq_iff_iff.2 ?_
  rw [List.any_eq_true, meets, decide_eq_true_iff]
  constructor
  · intro h
    refine Decidable.byContradiction fun hno => h (BitVec.eq_of_getLsbD_eq fun n hn => ?_)
    rw [BitVec.getLsbD_and, getLsbD_ofCells, hzero]
    by_cases hn : n ∈ l
    · rw [Bool.eq_false_iff.2 fun hlit => hno ⟨n, hn, hlit⟩, Bool.false_and]
    · rw [decide_eq_false hn, Bool.and_false, Bool.and_false]
  · rintro ⟨n, hn, hlit⟩ h
    have hbit := congrArg (·.getLsbD n) h
    simp only [BitVec.getLsbD_and, getLsbD_ofCells, hlit, hn, BitVec.lt_of_getLsbD hlit, hzero] at hbit
    cases hbit

/-- Flips cells in turn, and says whether that turned a lit one off. -/
def toggleEach (f : Framebuffer width height) : List Nat → Framebuffer width height × Bool
  | [] => (f, false)
  | n :: rest =>
    let toggled := (f.flip (ofCells width height [n])).toggleEach rest
    (toggled.1, f.cells.getLsbD n || toggled.2)

theorem toggleEach_append (l₁ l₂ : List Nat) : f.toggleEach (l₁ ++ l₂) =
    (((f.toggleEach l₁).1.toggleEach l₂).1, (f.toggleEach l₁).2 || ((f.toggleEach l₁).1.toggleEach l₂).2) := by
  induction l₁ generalizing f with
  | nil => rfl
  | cons n rest ih =>
    rw [List.cons_append, toggleEach, ih, toggleEach, Bool.or_assoc]

/-- Cells that are all different are flipped at once. -/
theorem toggleEach_of_nodup {l : List Nat} (h : l.Nodup) :
    f.toggleEach l = (f.flip (ofCells width height l), f.meets (ofCells width height l)) := by
  induction l generalizing f with
  | nil =>
    rw [meets_ofCells]
    exact Prod.ext (Framebuffer.ext (BitVec.xor_zero).symm) rfl
  | cons n rest ih =>
    obtain ⟨hn, hrest⟩ := List.nodup_cons.1 h
    have hsame {k : Nat} (hk : k ∈ rest) :
        (f.flip (ofCells width height [n])).cells.getLsbD k = f.cells.getLsbD k := by
      have hne : k ∉ [n] := fun hkn => hn (List.mem_singleton.1 hkn ▸ hk)
      rw [getLsbD_flip, getLsbD_ofCells, decide_eq_false hne, Bool.and_false, Bool.xor_false]
    have hany : rest.any (f.flip (ofCells width height [n])).cells.getLsbD = rest.any f.cells.getLsbD := by
      refine Bool.eq_iff_iff.2 ?_
      rw [List.any_eq_true, List.any_eq_true]
      exact exists_congr fun k => and_congr_right fun hk => by rw [hsame hk]
    rw [toggleEach, ih _ hrest, meets_ofCells, meets_ofCells, List.any_cons, hany]
    refine congrArg (·, _) (Framebuffer.ext (BitVec.eq_of_getLsbD_eq fun k hk => ?_))
    simp only [getLsbD_flip, getLsbD_ofCells, Bool.xor_assoc, List.mem_cons, List.not_mem_nil, or_false]
    by_cases hkn : k = n
    · simp [hkn, hn]
    · simp [hkn]

/-- Drawing a sprite flips its cells in turn. -/
theorem toggleEach_spriteCells (x y : Nat) (sprite : List Byte) :
    f.toggleEach (spriteFrom width height x y sprite) = f.draw x y sprite := by
  rw [toggleEach_of_nodup f ((pairwise_spriteFrom sprite).imp Nat.ne_of_lt), ← spriteCells_eq_spriteFrom]
  rfl

end ChipEight.Framebuffer
