import ChipEight.Proofs.Screen.Faithful

/-!
# The window of the display

What stays as it is while displays are rendered on a screen one after the other (`Screen.Redraws`): the side of the
blocks, where the canvas refuses none of them, and that the screen depicts the latest display, where the canvas paints
exactly what is named (`Screen.Mirrors`).
-/

namespace ChipEight.Screen
variable {σ : Type} [Canvas σ] {side : Int} {s : Screen σ} {base : σ}

/-- On a screen that pictures a display any other one is rendered, and then pictured. -/
def Redraws (Picture : Screen σ → Display → Prop) : Prop :=
  ∀ s d d', Picture s d → ∃ s', s.render d' = (s', none) ∧ Picture s' d'

/-! ### Blocks that are not refused -/

theorem light_of_paints {rects : Rect → Prop} (h : Canvas.Paints σ rects) {cells : List (Nat × Nat)}
    (hcells : ∀ c ∈ cells, rects (.block s.scale c.1 c.2)) :
    ∃ surface, s.light cells = ({ s with surface }, none) := by
  induction cells generalizing s with
  | nil => exact ⟨s.surface, rfl⟩
  | cons c rest ih =>
    obtain ⟨x, y⟩ := c
    obtain ⟨painted, hpaint⟩ := h _ (hcells (x, y) List.mem_cons_self) s.surface s.foreground
    have hwrite : s.writeCell x y true = .ok { s with surface := painted } := congrArg (Except.map _) hpaint
    obtain ⟨surface, hlight⟩ := ih (s := { s with surface := painted }) fun c hc => hcells c (List.mem_cons_of_mem _ hc)
    refine ⟨surface, ?_⟩
    rw [light, hwrite]
    exact hlight

def HasBlocks (side : Int) (s : Screen σ) (_ : Display) : Prop := s.scale = side

theorem redraws_blocks (h : Canvas.Paints σ (Rect.InGrid side 64 32)) : Redraws (σ := σ) (HasBlocks side) := by
  rintro s d d' rfl
  obtain ⟨surface, hrender⟩ := light_of_paints (s := s.clear) h fun c hc => d'.inGrid_of_mem_litCells hc
  exact ⟨_, hrender, rfl⟩

/-! ### Blocks that are painted exactly -/

def cellColor (lit : Bool) : Color := if lit then defaultForeground else defaultBackground

/-- The surface has the pixels of `base`, and those in the block of a cell have the colour of the cell. -/
def Shows (s : Screen σ) (base : σ) (d : Display) : Prop :=
  ∀ x y : Nat, x < 64 → y < 32 → ∃ lit, d.isLit x y = .ok lit ∧
    ∀ px py : Int, x * s.scale ≤ px ∧ px < (x + 1) * s.scale → y * s.scale ≤ py ∧ py < (y + 1) * s.scale →
      Canvas.pixel s.surface px py = (Canvas.pixel base px py).map fun _ => cellColor lit

structure Mirrors (side : Int) (base : σ) (s : Screen σ) (d : Display) : Prop where
  scale : s.scale = side
  background : s.background = defaultBackground
  foreground : s.foreground = defaultForeground
  depicts : s.Depicts base d.shows

theorem Mirrors.shows {d : Display} (h : Mirrors side base s d) (h₁ : 1 ≤ side) : s.Shows base d := by
  have hscale : 1 ≤ s.scale := h.scale ▸ h₁
  refine fun x y hx hy => ⟨_, d.isLit_natCast hx hy, fun px py hpx hpy => ?_⟩
  rw [h.depicts.pixel hscale hpx hpy, d.shows_natCast hx hy, color, h.background, h.foreground]
  generalize d.cells.getLsbD _ = lit
  cases lit <;> rfl

theorem redraws_mirrors (h : Canvas.Exact σ (Rect.InGrid side 64 32)) (h₁ : 1 ≤ side) (base : σ) :
    Redraws (Mirrors side base) := by
  rintro s d d' ⟨rfl, hback, hfore, hdepicts⟩
  obtain ⟨surface, hrender, hdepicts'⟩ := s.render_depicts h₁ d' h
  exact ⟨_, hrender, rfl, hback, hfore, hdepicts'.over hdepicts⟩

/-! ### Opening -/

variable (hc : create 64 32 side defaultBackground defaultForeground = .ok s)
include hc

theorem create_hasBlocks (d : Display) : HasBlocks side s d := by
  obtain ⟨window, -, rfl⟩ := create_eq_ok_iff.1 hc
  rfl

/-- When the window has opened no cell is lit. -/
theorem create_mirrors (h : Canvas.Exact σ (Rect.InGrid side 64 32)) : Mirrors side s.surface s (.blank 64 32) := by
  obtain ⟨window, -, rfl⟩ := create_eq_ok_iff.1 hc
  refine ⟨rfl, rfl, rfl, fun px py => ?_⟩
  have hblank (x y : Int) : (Framebuffer.blank 64 32).shows x y = false := by
    rw [Bool.eq_false_iff, Ne, Framebuffer.shows_iff]
    rintro ⟨c, hc, -⟩
    simpa using (Framebuffer.mem_litCells _).1 hc
  rw [hblank]
  show Canvas.pixel (Canvas.fill window defaultBackground) px py = _
  rw [h.pixel_fill]
  cases Canvas.pixel window px py <;> rfl

end ChipEight.Screen
