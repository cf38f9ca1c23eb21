import ChipEight.NativeInteger

/-!
# Canvases

The pixels that a screen is painted on are those of a window that some system opens. The system is a parameter: it
says which windows open, and what filling, painting and reading do (`Canvas`).
-/

namespace ChipEight

structure Color where
  red : BitVec 8
  green : BitVec 8
  blue : BitVec 8
  alpha : BitVec 8
deriving DecidableEq, Repr

/-- The colour without transparency. -/
def Color.solid (c : Color) : Color := { c with alpha := 255 }

/-- A rectangle. One without a positive width and height covers no pixel. -/
structure Rect where
  left : Int
  top : Int
  width : Int
  height : Int
deriving DecidableEq, Repr

namespace Rect

def covers (r : Rect) (x y : Int) : Bool :=
  r.left ≤ x && x < r.left + r.width && r.top ≤ y && y < r.top + r.height

/-- The block of a cell in a grid of square blocks. -/
def block (side x y : Int) : Rect := ⟨x * side, y * side, side, side⟩

theorem covers_iff {r : Rect} {x y : Int} : r.covers x y ↔
    r.left ≤ x ∧ x < r.left + r.width ∧ r.top ≤ y ∧ y < r.top + r.height := by
  simp only [covers, Bool.and_eq_true, decide_eq_true_eq, and_assoc]

end Rect

/-- Why there is no window, or why it is not read or painted. -/
inductive ScreenError where
  /-- A side of the window is not one that the system can take. -/
  | badSize
  | negativeSize
  /-- A side of the window is longer than the system allows. -/
  | tooLarge
  | noPixel
  /-- A coordinate of a pixel is no number of 32 bits. -/
  | badCoordinate (e : NativeInteger.RangeError)
  /-- A rectangle that is painted is not made of numbers that the system can take. -/
  | badRect
deriving DecidableEq, Repr

def ScreenError.message : ScreenError → String
  | .badSize => "size must be two numbers"
  | .negativeSize => "Cannot set negative sized display mode"
  | .tooLarge => "Window is too large."
  | .noPixel => "pixel index out of range"
  | .badCoordinate e => e.message
  | .badRect => "rect argument is invalid"

/-- A system of windows of pixels. -/
class Canvas (σ : Type) where
  /-- Opens a window of this width and height. -/
  openWindow (width height : Int) : Except ScreenError σ
  fill (s : σ) (c : Color) : σ
  paint (s : σ) (r : Rect) (c : Color) : Except ScreenError σ
  pixel (s : σ) (x y : Int) : Except ScreenError Color

end ChipEight
