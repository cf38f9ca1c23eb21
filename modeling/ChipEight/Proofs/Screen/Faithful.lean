import ChipEight.Proofs.Framebuffer.Cells
import ChipEight.Proofs.Screen.Depiction
import Mathlib.Data.List.Basic

/-!
# Rendering cell by cell

Rendering a framebuffer, of whatever size, makes the screen depict it, whatever was shown before (`render_depicts`): a
cell of the screen is lit if the framebuffer has this cell and it is lit. So rendering again changes no pixel.
-/

namespace ChipEight

namespace Framebuffer
variable {width height : Int} (f : Framebuffer width height)

/-- The framebuffer has the cell, and it is lit. -/
def shows (x y : Int) : Bool := 0 ≤ x ∧ x < width ∧ 0 ≤ y ∧ y < height ∧ f.isLit x y = .ok true

theorem shows_natCast {x y : Nat} (hx : x < width.toNat) (hy : y < height.toNat) :
    f.shows x y = f.cells.getLsbD (y * width.toNat + x) := by
  rw [shows, f.isLit_natCast hx hy, Bool.eq_iff_iff, decide_eq_true_iff, Except.ok.injEq]
  exact ⟨fun h => h.2.2.2.2,
    fun h => ⟨Int.natCast_nonneg x, Int.lt_toNat.1 hx, Int.natCast_nonneg y, Int.lt_toNat.1 hy, h⟩⟩

theorem shows_iff (x y : Int) : f.shows x y = true ↔ ∃ c ∈ f.litCells, (c.1 : Int) = x ∧ (c.2 : Int) = y := by
  constructor
  · intro h
    obtain ⟨hx₀, hx, hy₀, hy, -⟩ := decide_eq_true_iff.1 h
    obtain ⟨x, rfl⟩ := Int.eq_ofNat_of_zero_le hx₀
    obtain ⟨y, rfl⟩ := Int.eq_ofNat_of_zero_le hy₀
    rw [← Int.lt_toNat] at hx hy
    exact ⟨(x, y), f.mem_litCells.2 ⟨hx, hy, f.shows_natCast hx hy ▸ h⟩, rfl, rfl⟩
  · rintro ⟨⟨x, y⟩, hc, rfl, rfl⟩
    obtain ⟨hx, hy, hlit⟩ := f.mem_litCells.1 hc
    exact (f.shows_natCast hx hy).trans hlit

theorem inGrid_of_mem_litCells {side : Int} {c : Nat × Nat} (hc : c ∈ f.litCells) :
    Rect.InGrid side width height (.block side c.1 c.2) := by
  obtain ⟨hx, hy, -⟩ := f.mem_litCells.1 hc
  exact ⟨c.1, c.2, Int.lt_toNat.1 hx, Int.lt_toNat.1 hy, rfl⟩

end Framebuffer

namespace Screen
variable {σ : Type} [Canvas σ] {s : Screen σ} {base : σ} {rects : Rect → Prop} {width height : Int}

theorem Depicts.light {lit : Int → Int → Bool} (hd : s.Depicts base lit) (h : Canvas.Exact σ rects)
    (hscale : 1 ≤ s.scale) {cells : List (Nat × Nat)} (hcells : ∀ c ∈ cells, rects (.block s.scale c.1 c.2)) :
    ∃ surface, s.light cells = ({ s with surface }, none) ∧ Depicts { s with surface } base fun x y =>
      lit x y || cells.any fun c => decide ((c.1 : Int) = x ∧ (c.2 : Int) = y) := by
  induction cells generalizing s lit with
  | nil => exact ⟨s.surface, rfl, by simpa using hd⟩
  | cons c rest ih =>
    obtain ⟨x, y⟩ := c
    obtain ⟨painted, hwrite, hpainted⟩ := hd.writeCell h hscale (hcells (x, y) List.mem_cons_self) true
    obtain ⟨surface, hlight, hdepicts⟩ := ih hpainted hscale fun c hc => hcells c (List.mem_cons_of_mem _ hc)
    refine ⟨surface, ?_, hdepicts.congr fun x' y' => ?_⟩
    · rw [Screen.light, hwrite]
      exact hlight
    · rw [List.any_cons]
      split
      next hin => simp [hin]
      next hout => simp [hout]

/-- After rendering the screen depicts the framebuffer, whatever its pixels showed before. -/
theorem render_depicts (s : Screen σ) (hscale : 1 ≤ s.scale) (f : Framebuffer width height)
    (h : Canvas.Exact σ (Rect.InGrid s.scale width height)) :
    ∃ surface, s.render f = ({ s with surface }, none) ∧ Depicts { s with surface } s.surface f.shows := by
  obtain ⟨surface, hlight, hdepicts⟩ :=
    (depicts_clear h s).light h hscale fun c hc => f.inGrid_of_mem_litCells hc
  refine ⟨surface, hlight, hdepicts.congr fun x y => ?_⟩
  rw [Bool.false_or, Bool.eq_iff_iff, f.shows_iff, List.any_eq_true]
  simp only [decide_eq_true_iff]

/-- Rendering a framebuffer of any size on a screen whose window has the size asked for, whatever it shows, gives the
block of each of its cells one colour: the foreground if the framebuffer has the cell and it is lit, the background
otherwise. The cells are read so, and rendering again changes no pixel. -/
theorem renders_cell_by_cell (s : Screen σ) (hscale : 1 ≤ s.scale) (hback : s.background.alpha = 255)
    (hfore : s.foreground.solid ≠ s.background.solid)
    (hsized : Canvas.Sized s.surface (s.width * s.scale) (s.height * s.scale)) (f : Framebuffer width height)
    (hexact : Canvas.Exact σ (Rect.InGrid s.scale width height)) :
    ∃ shown again, s.render f = ({ s with surface := shown }, none) ∧
      (∀ x y : Int, 0 ≤ x ∧ x < s.width → 0 ≤ y ∧ y < s.height →
        (∀ px py : Int, x * s.scale ≤ px ∧ px < (x + 1) * s.scale → y * s.scale ≤ py ∧ py < (y + 1) * s.scale →
          Canvas.pixel shown px py = .ok (if f.shows x y then s.foreground.solid else s.background.solid)) ∧
        ({ s with surface := shown } : Screen σ).readCell x y = .ok (f.shows x y)) ∧
      ({ s with surface := shown } : Screen σ).render f = ({ s with surface := again }, none) ∧
      ∀ px py, Canvas.pixel again px py = Canvas.pixel shown px py := by
  obtain ⟨shown, hrender, hdepicts⟩ := s.render_depicts hscale f hexact
  obtain ⟨again, hagain, hdepicts'⟩ := ({ s with surface := shown } : Screen σ).render_depicts hscale f hexact
  have hlegible : Legible { s with surface := shown } := ⟨hscale, hback, hfore⟩
  refine ⟨shown, again, hrender, fun x y hx hy => ⟨fun px py hpx hpy => ?_, ?_⟩, hagain, fun px py => ?_⟩
  · obtain ⟨old, hold⟩ := hsized.inside px py (axis_inside hscale hx hpx) (axis_inside hscale hy hpy)
    rw [hdepicts.pixel hscale hpx hpy, hold]
    exact congrArg Except.ok (apply_ite Color.solid ..)
  · exact hdepicts.readCell_inside hlegible hsized hx hy
  · exact ((hdepicts'.over hdepicts) px py).trans (hdepicts px py).symm

/-- A painted window of three by two blocks, and a framebuffer that is wider but has only one row. -/
theorem renders_cell_by_cell_of_another_size :
    let painted := Surface.paint (.filled 6 4 defaultBackground) ⟨0, 0, 5, 5⟩ defaultForeground
    let s : Screen Surface := ⟨3, 2, 2, defaultBackground, defaultForeground, painted⟩
    ∃ shown, s.render (Framebuffer.ofCells 5 1 [1, 4]) = ({ s with surface := shown }, none) ∧
      Canvas.pixel shown 3 1 = .ok defaultForeground ∧ Canvas.pixel shown 4 0 = .ok defaultBackground ∧
      ({ s with surface := shown } : Screen Surface).readCell 1 0 = .ok true ∧
      ({ s with surface := shown } : Screen Surface).readCell 1 1 = .ok false := by
  intro painted s
  have hexact : Canvas.Exact Surface (Rect.InGrid 2 5 1) :=
    Surface.exact_grid (by decide) (by decide) (by decide) (by decide)
  obtain ⟨shown, -, hrender, hcells, -⟩ := renders_cell_by_cell s (by decide) defaultBackground_alpha default_contrast
    (Surface.sized (by decide) (by decide)) (Framebuffer.ofCells 5 1 [1, 4]) hexact
  exact ⟨shown, hrender, (hcells 1 0 (by decide) (by decide)).1 3 1 (by decide) (by decide),
    (hcells 2 0 (by decide) (by decide)).1 4 0 (by decide) (by decide), (hcells 1 0 (by decide) (by decide)).2,
    (hcells 1 1 (by decide) (by decide)).2⟩

/-- The sides of a window are cut down to 32 bits, so one may open that has no room for its blocks. -/
theorem renders_beyond_32_bits :
    ((create 0x100000000 1 1 defaultBackground defaultForeground).bind fun s : Screen Surface =>
      (s.render (Framebuffer.blank 1 1)).1.readCell 1 0) = .error .noPixel ∧
    (Framebuffer.blank 1 1).shows 1 0 = false := by
  decide +kernel

end Screen
end ChipEight
