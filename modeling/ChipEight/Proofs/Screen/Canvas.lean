import ChipEight.Screen.Surface

/-!
# The laws of a canvas

What is relied on of a system of windows: that it does not refuse the rectangles that are painted (`Canvas.Paints`),
that filling and painting change just the pixels that are named (`Canvas.Exact`), and that a window has the pixels of
its sides and no others (`Canvas.Sized`). Surfaces keep the laws as far as their coordinates have 32 bits
(`Surface.exact`, `Surface.sized`), and refuse no rectangle that is made of numbers of 64 bits.
-/

namespace ChipEight

namespace Canvas

section
variable (σ : Type) [Canvas σ] (rects : Rect → Prop)

/-- None of these rectangles is refused. -/
def Paints : Prop := ∀ r, rects r → ∀ (s : σ) (c : Color), ∃ s', paint s r c = .ok s'

/-- Filling, and painting one of these rectangles, gives just the pixels that are named the colour. They read back
opaque. -/
structure Exact : Prop where
  pixel_fill : ∀ (s : σ) (c : Color) (x y : Int), pixel (fill s c) x y = (pixel s x y).map fun _ => c.solid
  pixel_paint : ∀ r, rects r → ∀ (s : σ) (c : Color), ∃ s', paint s r c = .ok s' ∧
    ∀ x y, pixel s' x y = (pixel s x y).map fun old => if r.covers x y then c.solid else old

end

/-- Why a pixel is not read that there is not: if its coordinates have 32 bits, for want of it. -/
def Missing (x y : Int) (e : ScreenError) : Prop :=
  if NativeInteger.Fits32 x ∧ NativeInteger.Fits32 y then e = .noPixel else ∃ r, e = .badCoordinate r

variable {σ : Type} [Canvas σ] {rects : Rect → Prop}

/-- The pixels are those of a surface of this width and height. -/
structure Sized (s : σ) (width height : Int) : Prop where
  inside : ∀ x y, 0 ≤ x ∧ x < width → 0 ≤ y ∧ y < height → ∃ c, pixel s x y = .ok c
  outside : ∀ x y, ¬(0 ≤ x ∧ x < width ∧ 0 ≤ y ∧ y < height) → ∃ e, pixel s x y = .error e ∧ Missing x y e

theorem Exact.paints (h : Exact σ rects) : Paints σ rects := fun r hr s c =>
  let ⟨s', hs', _⟩ := h.pixel_paint r hr s c
  ⟨s', hs'⟩

end Canvas

/-! ### Surfaces -/

namespace NativeInteger

theorem exact32_of_not_fits {i : Int} (h : ¬Fits32 i) : ∃ e, exact32 i = .error e := by
  rw [exact32, if_neg h]
  split
  · exact ⟨_, rfl⟩
  · exact ⟨_, rfl⟩

theorem exists_low32?_iff {i : Int} : (∃ j, low32? i = some j) ↔ Fits64 i := by
  rw [low32?]
  by_cases h : Fits64 i <;> simp [h]

end NativeInteger

namespace Rect

/-- The sides and all four edges are numbers of 32 bits. -/
structure Fits32 (r : Rect) : Prop where
  left : NativeInteger.Fits32 r.left
  top : NativeInteger.Fits32 r.top
  width : NativeInteger.Fits32 r.width
  height : NativeInteger.Fits32 r.height
  right : NativeInteger.Fits32 (r.left + r.width)
  bottom : NativeInteger.Fits32 (r.top + r.height)

theorem Fits32.low32? {r : Rect} (h : r.Fits32) : r.low32? = some r := by
  simp only [Rect.low32?, NativeInteger.low32?_of_fits h.left, NativeInteger.low32?_of_fits h.top,
    NativeInteger.low32?_of_fits h.width, NativeInteger.low32?_of_fits h.height]
  rfl

theorem exists_low32? {r : Rect} (hleft : NativeInteger.Fits64 r.left) (htop : NativeInteger.Fits64 r.top)
    (hwidth : NativeInteger.Fits64 r.width) (hheight : NativeInteger.Fits64 r.height) :
    ∃ r', r.low32? = some r' := by
  obtain ⟨left, hl⟩ := NativeInteger.exists_low32?_iff.2 hleft
  obtain ⟨top, ht⟩ := NativeInteger.exists_low32?_iff.2 htop
  obtain ⟨width, hw⟩ := NativeInteger.exists_low32?_iff.2 hwidth
  obtain ⟨height, hh⟩ := NativeInteger.exists_low32?_iff.2 hheight
  refine ⟨⟨left, top, width, height⟩, ?_⟩
  simp only [low32?, hl, ht, hw, hh]
  rfl

/-- The block of one of the cells of a grid. -/
def InGrid (side width height : Int) (r : Rect) : Prop :=
  ∃ x y : Nat, (x : Int) < width ∧ (y : Int) < height ∧ r = block side x y

end Rect

namespace Surface
variable {s : Surface} {x y : Int}

theorem pixel?_inside (h : 0 ≤ x ∧ x < s.width ∧ 0 ≤ y ∧ y < s.height) : s.pixel? x y =
    some (((s.painted.find? fun entry => entry.1.covers x y).map Prod.snd).getD s.ground).solid :=
  if_pos h

theorem pixel?_outside (h : ¬(0 ≤ x ∧ x < s.width ∧ 0 ≤ y ∧ y < s.height)) : s.pixel? x y = none :=
  if_neg h

theorem pixel?_paint (s : Surface) (r : Rect) (c : Color) (x y : Int) : (s.paint r c).pixel? x y =
    (s.pixel? x y).map fun old => if r.covers x y then c.solid else old := by
  by_cases h : 0 ≤ x ∧ x < s.width ∧ 0 ≤ y ∧ y < s.height
  · rw [pixel?_inside h, pixel?_inside (s := s.paint r c) h, paint, List.find?_cons]
    cases r.covers x y <;> rfl
  · rw [pixel?_outside h, pixel?_outside (s := s.paint r c) h]
    rfl

theorem pixel?_fill (s : Surface) (c : Color) (x y : Int) :
    (s.fill c).pixel? x y = (s.pixel? x y).map fun _ => c.solid := by
  by_cases h : 0 ≤ x ∧ x < s.width ∧ 0 ≤ y ∧ y < s.height
  · rw [pixel?_inside h, pixel?_inside (s := s.fill c) h]
    rfl
  · rw [pixel?_outside h, pixel?_outside (s := s.fill c) h]
    rfl

theorem pixel_of_fits (hx : NativeInteger.Fits32 x) (hy : NativeInteger.Fits32 y) :
    Canvas.pixel s x y = (s.pixel? x y).elim (.error .noPixel) .ok := by
  simp only [Canvas.pixel, NativeInteger.exact32_of_fits hx, NativeInteger.exact32_of_fits hy]

/-- Coordinates that have no 32 bits are refused, whatever the surface. -/
theorem pixel_of_not_fits (h : ¬(NativeInteger.Fits32 x ∧ NativeInteger.Fits32 y)) :
    ∃ r, ∀ s : Surface, Canvas.pixel s x y = .error (.badCoordinate r) := by
  by_cases hx : NativeInteger.Fits32 x
  · obtain ⟨r, hr⟩ := NativeInteger.exact32_of_not_fits fun hy => h ⟨hx, hy⟩
    exact ⟨r, fun s => by simp only [Canvas.pixel, NativeInteger.exact32_of_fits hx, hr]⟩
  · obtain ⟨r, hr⟩ := NativeInteger.exact32_of_not_fits hx
    exact ⟨r, fun s => by simp only [Canvas.pixel, hr]⟩

theorem pixel_map {s' : Surface} {f : Color → Color} (h : s'.pixel? x y = (s.pixel? x y).map f) :
    Canvas.pixel s' x y = (Canvas.pixel s x y).map f := by
  by_cases hfits : NativeInteger.Fits32 x ∧ NativeInteger.Fits32 y
  · rw [pixel_of_fits hfits.1 hfits.2, pixel_of_fits hfits.1 hfits.2, h]
    cases s.pixel? x y <;> rfl
  · obtain ⟨r, hr⟩ := pixel_of_not_fits hfits
    rw [hr, hr]
    rfl

theorem exact {rects : Rect → Prop} (h : ∀ r, rects r → r.Fits32) : Canvas.Exact Surface rects where
  pixel_fill s c x y := pixel_map (pixel?_fill s c x y)
  pixel_paint r hr s c := by
    refine ⟨s.paint r c, ?_, fun x y => pixel_map (pixel?_paint s r c x y)⟩
    simp only [Canvas.paint, (h r hr).low32?]

theorem sized (hw : s.width ≤ 0x80000000) (hh : s.height ≤ 0x80000000) : Canvas.Sized s s.width s.height where
  inside x y hx hy := by
    have hfits {c : Int} {n : Nat} (hn : n ≤ 0x80000000) (hc : 0 ≤ c ∧ c < n) : NativeInteger.Fits32 c :=
      ⟨by omega, by omega⟩
    rw [pixel_of_fits (hfits hw hx) (hfits hh hy), pixel?_inside ⟨hx.1, hx.2, hy.1, hy.2⟩]
    exact ⟨_, rfl⟩
  outside x y hout := by
    by_cases hfits : NativeInteger.Fits32 x ∧ NativeInteger.Fits32 y
    · refine ⟨.noPixel, ?_, ?_⟩
      · rw [pixel_of_fits hfits.1 hfits.2, pixel?_outside hout]
        rfl
      · rw [Canvas.Missing, if_pos hfits]
    · obtain ⟨r, hr⟩ := pixel_of_not_fits hfits
      refine ⟨_, hr s, ?_⟩
      rw [Canvas.Missing, if_neg hfits]
      exact ⟨r, rfl⟩

theorem exact_grid {side width height : Int} (h₁ : 1 ≤ side) (hside : side < 0x80000000)
    (hw : width * side < 0x80000000) (hh : height * side < 0x80000000) :
    Canvas.Exact Surface (Rect.InGrid side width height) := by
  have hedges {c : Nat} {n : Int} (hn : n * side < 0x80000000) (hc : (c : Int) < n) :
      NativeInteger.Fits32 (c * side) ∧ NativeInteger.Fits32 (c * side + side) := by
    have hlow : 0 ≤ (c : Int) * side := Int.mul_nonneg (by omega) (by omega)
    have hnext : ((c : Int) + 1) * side ≤ n * side := Int.mul_le_mul_of_nonneg_right (by omega) (by omega)
    rw [Int.add_mul, Int.one_mul] at hnext
    exact ⟨⟨by omega, by omega⟩, ⟨by omega, by omega⟩⟩
  have hfits : NativeInteger.Fits32 side := ⟨by omega, hside⟩
  refine exact ?_
  rintro r ⟨x, y, hx, hy, rfl⟩
  obtain ⟨hleft, hright⟩ := hedges hw hx
  obtain ⟨htop, hbottom⟩ := hedges hh hy
  exact ⟨hleft, htop, hfits, hfits, hright, hbottom⟩

/-- Where the window of a display opens, none of the blocks of its cells is refused. -/
theorem paints_grid {side : Int} {window : Surface} (h₁ : 1 ≤ side)
    (h : Canvas.openWindow (64 * side) (32 * side) = .ok window) : Canvas.Paints Surface (Rect.InGrid side 64 32) := by
  have hwide : NativeInteger.Fits64 (64 * side) := by
    rw [← NativeInteger.exists_low32?_iff, ← Option.ne_none_iff_exists']
    intro hnone
    simp only [Canvas.openWindow, hnone] at h
    cases h
  obtain ⟨-, hlast⟩ := hwide
  have hcorner {c : Nat} (hc : (c : Int) < 64) : NativeInteger.Fits64 (c * side) := by
    have hlow : 0 ≤ (c : Int) * side := Int.mul_nonneg (by omega) (by omega)
    have hhigh : (c : Int) * side ≤ 64 * side := Int.mul_le_mul_of_nonneg_right (by omega) (by omega)
    exact ⟨by omega, by omega⟩
  rintro r ⟨x, y, hx, hy, rfl⟩ s c
  have hside : NativeInteger.Fits64 side := ⟨by omega, by omega⟩
  obtain ⟨r, hr⟩ := Rect.exists_low32? (r := .block side x y) (hcorner hx) (hcorner (by omega)) hside hside
  exact ⟨s.paint r c, by simp only [Canvas.paint, hr]⟩

end Surface
end ChipEight
