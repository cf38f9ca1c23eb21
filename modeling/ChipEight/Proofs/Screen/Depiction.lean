import ChipEight.Proofs.Screen.Canvas
import ChipEight.Screen.Basic

/-!
# What a screen depicts

A screen depicts a grid of lit cells if each of its pixels has the colour of the cell in whose block it is
(`Screen.Depicts`). Clearing it depicts the empty grid, and painting a block changes this one cell, on the screen or
outside (`Depicts.writeCell`). On a window of the right size a cell is read as it is depicted, and one outside is not
read.
-/

namespace ChipEight

theorem Color.solid_of_alpha {c : Color} (h : c.alpha = 255) : c.solid = c := by
  cases c
  subst h
  rfl

theorem Int.mul_le_and_lt_iff {k : Int} (hk : 0 < k) {c p : Int} : c * k ≤ p ∧ p < c * k + k ↔ p / k = c := by
  have hnext : c * k + k = (c + 1) * k := by rw [Int.add_mul, Int.one_mul]
  rw [hnext, ← Int.le_ediv_iff_mul_le hk, ← Int.ediv_lt_iff_lt_mul hk]
  omega

theorem Rect.block_covers_iff {side : Int} (hside : 0 < side) {x y px py : Int} :
    (block side x y).covers px py = true ↔ x = px / side ∧ y = py / side := by
  rw [covers_iff, eq_comm, eq_comm (a := y), ← Int.mul_le_and_lt_iff hside, ← Int.mul_le_and_lt_iff hside, and_assoc]
  rfl

namespace Screen

theorem defaultBackground_alpha : defaultBackground.alpha = 255 := rfl

theorem default_contrast : defaultForeground.solid ≠ defaultBackground.solid := by decide

variable {σ : Type}

def color (s : Screen σ) (lit : Bool) : Color := (if lit then s.foreground else s.background).solid

/-- The blocks have pixels, and the colours of the cells can be told apart. -/
structure Legible (s : Screen σ) : Prop where
  scale_pos : 1 ≤ s.scale
  background : s.background.alpha = 255
  contrast : s.foreground.solid ≠ s.background.solid

theorem Legible.withSurface {s : Screen σ} (h : s.Legible) (surface : σ) : Legible { s with surface } :=
  ⟨h.scale_pos, h.background, h.contrast⟩

variable [Canvas σ] {rects : Rect → Prop} {s : Screen σ} {base : σ} {lit : Int → Int → Bool}

theorem create_eq_ok_iff {w h k : Int} {background foreground : Color} :
    create w h k background foreground = .ok s ↔ ∃ window, Canvas.openWindow (w * k) (h * k) = .ok window ∧
      (⟨w, h, k, background, foreground, Canvas.fill window background⟩ : Screen σ) = s := by
  rw [create]
  cases (Canvas.openWindow (w * k) (h * k) : Except ScreenError σ) <;> simp [Except.map]

/-- The surface has the pixels of `base`, and each has the colour of the cell in whose block it is. -/
def Depicts (s : Screen σ) (base : σ) (lit : Int → Int → Bool) : Prop :=
  ∀ px py : Int, Canvas.pixel s.surface px py =
    (Canvas.pixel base px py).map fun _ => s.color (lit (px / s.scale) (py / s.scale))

theorem Depicts.congr {lit' : Int → Int → Bool} (h : s.Depicts base lit) (hlit : ∀ x y, lit x y = lit' x y) :
    s.Depicts base lit' := by
  obtain rfl : lit = lit' := funext fun x => funext (hlit x)
  exact h

/-! ### Painting -/

theorem depicts_clear (h : Canvas.Exact σ rects) (s : Screen σ) : s.clear.Depicts s.surface fun _ _ => false :=
  h.pixel_fill s.surface s.background

/-- What a surface shows does not matter where all its pixels are painted over. -/
theorem Depicts.over {s' : Screen σ} {lit' : Int → Int → Bool} (h' : s'.Depicts s.surface lit')
    (h : s.Depicts base lit) : s'.Depicts base lit' := by
  intro px py
  rw [h', h]
  cases Canvas.pixel base px py <;> rfl

theorem Depicts.writeCell (hd : s.Depicts base lit) (h : Canvas.Exact σ rects) (hscale : 1 ≤ s.scale) {x y : Int}
    (hr : rects (.block s.scale x y)) (b : Bool) :
    ∃ surface, s.writeCell x y b = .ok { s with surface } ∧
      Depicts { s with surface } base fun x' y' => if x = x' ∧ y = y' then b else lit x' y' := by
  obtain ⟨surface, hpaint, hpixels⟩ := h.pixel_paint _ hr s.surface (if b then s.foreground else s.background)
  refine ⟨surface, ?_, fun px py => ?_⟩
  · rw [Screen.writeCell, hpaint]
    rfl
  · have hcovers : (Rect.block s.scale x y).covers px py = true ↔ x = px / s.scale ∧ y = py / s.scale :=
      Rect.block_covers_iff hscale
    show Canvas.pixel surface px py = _
    rw [hpixels, hd]
    by_cases hin : x = px / s.scale ∧ y = py / s.scale
    · simp only [if_pos (hcovers.2 hin), if_pos hin]
      cases Canvas.pixel base px py <;> rfl
    · simp only [if_neg (hin ∘ hcovers.1), if_neg hin]
      cases Canvas.pixel base px py <;> rfl

/-! ### Reading -/

/-- Every pixel of the block of a cell has the colour of the cell. -/
theorem Depicts.pixel (hd : s.Depicts base lit) (hscale : 1 ≤ s.scale) {x y px py : Int}
    (hpx : x * s.scale ≤ px ∧ px < (x + 1) * s.scale) (hpy : y * s.scale ≤ py ∧ py < (y + 1) * s.scale) :
    Canvas.pixel s.surface px py = (Canvas.pixel base px py).map fun _ => s.color (lit x y) := by
  rw [Int.add_mul, Int.one_mul, Int.mul_le_and_lt_iff hscale] at hpx hpy
  rw [hd, hpx, hpy]

/-- The blocks of a window of `n` cells have their pixels on it. -/
theorem axis_inside {k n c p : Int} (hk : 1 ≤ k) (hc : 0 ≤ c ∧ c < n) (hp : c * k ≤ p ∧ p < (c + 1) * k) :
    0 ≤ p ∧ p < n * k := by
  have hpos : 0 ≤ c * k := Int.mul_nonneg hc.1 (by omega)
  have hlast : (c + 1) * k ≤ n * k := Int.mul_le_mul_of_nonneg_right (by omega) (by omega)
  exact ⟨by omega, by omega⟩

theorem corner_in_block {k : Int} (hk : 1 ≤ k) (c : Int) : c * k ≤ c * k ∧ c * k < (c + 1) * k := by
  rw [Int.add_mul, Int.one_mul]
  exact ⟨by omega, by omega⟩

/-- A cell of the window is read as it is depicted. -/
theorem Depicts.readCell_inside {w h : Int} (hd : s.Depicts base lit) (hs : s.Legible)
    (hbase : Canvas.Sized base (w * s.scale) (h * s.scale)) {x y : Int} (hx : 0 ≤ x ∧ x < w) (hy : 0 ≤ y ∧ y < h) :
    s.readCell x y = .ok (lit x y) := by
  have hcx := corner_in_block hs.scale_pos x
  have hcy := corner_in_block hs.scale_pos y
  obtain ⟨c, hc⟩ := hbase.inside _ _ (axis_inside hs.scale_pos hx hcx) (axis_inside hs.scale_pos hy hcy)
  rw [readCell, hd.pixel hs.scale_pos hcx hcy, hc]
  show Except.ok (decide (s.color (lit x y) ≠ s.background)) = _
  rw [← Color.solid_of_alpha hs.background]
  cases lit x y with
  | true => exact congrArg Except.ok (decide_eq_true hs.contrast)
  | false => exact congrArg Except.ok (decide_eq_false fun hne => hne rfl)

/-- A cell outside is not read, for want of the pixel at its corner. -/
theorem Depicts.readCell_outside {w h : Int} (hd : s.Depicts base lit) (hscale : 1 ≤ s.scale)
    (hbase : Canvas.Sized base (w * s.scale) (h * s.scale)) {x y : Int}
    (hout : ¬(0 ≤ x ∧ x < w ∧ 0 ≤ y ∧ y < h)) :
    ∃ e, s.readCell x y = .error e ∧ Canvas.Missing (x * s.scale) (y * s.scale) e := by
  have hpos : 0 < s.scale := hscale
  obtain ⟨e, he, hmissing⟩ := hbase.outside (x * s.scale) (y * s.scale) fun ⟨hx₀, hx, hy₀, hy⟩ => hout
    ⟨Int.nonneg_of_mul_nonneg_left hx₀ hpos, Int.lt_of_mul_lt_mul_right hx (by omega),
      Int.nonneg_of_mul_nonneg_left hy₀ hpos, Int.lt_of_mul_lt_mul_right hy (by omega)⟩
  refine ⟨e, ?_, hmissing⟩
  rw [readCell, hd, he]
  rfl

end Screen
end ChipEight
