import ChipEight.Screen.Canvas

/-!
# Surfaces

A surface of pixels that is filled and painted with rectangles. A pixel has the colour of the latest
rectangle that covers it, or else of the last fill; what lies outside is not painted. The surface
keeps no transparency, so every pixel reads back opaque.

Surfaces are a canvas. The system counts pixels in 32 bits: a pixel that is read must have such
coordinates; of the sides of a window and of a rectangle the low 32 bits are taken. The window that
opens has at least one pixel and at most 16384 pixels each way.
-/

namespace ChipEight

structure Surface where
  width : Nat
  height : Nat
  /-- The colour of the last fill. -/
  ground : Color
  /-- The rectangles painted since, the latest first. -/
  painted : List (Rect × Color)
deriving DecidableEq, Repr

/-- The rectangle as the system takes it. -/
def Rect.low32? (r : Rect) : Option Rect := do
  let left ← NativeInteger.low32? r.left
  let top ← NativeInteger.low32? r.top
  let width ← NativeInteger.low32? r.width
  let height ← NativeInteger.low32? r.height
  return ⟨left, top, width, height⟩

namespace Surface

def filled (width height : Nat) (c : Color) : Surface := ⟨width, height, c, []⟩

def fill (s : Surface) (c : Color) : Surface := { s with ground := c, painted := [] }

def paint (s : Surface) (r : Rect) (c : Color) : Surface := { s with painted := (r, c) :: s.painted }

/-- The colour of a pixel; there is none outside the surface. -/
def pixel? (s : Surface) (x y : Int) : Option Color :=
  if 0 ≤ x ∧ x < s.width ∧ 0 ≤ y ∧ y < s.height then
    some (((s.painted.find? fun entry => entry.1.covers x y).map Prod.snd).getD s.ground).solid
  else none

def maxSide : Int := 16384

/-- The sides of the desktop in pixels. -/
def desktop : Nat × Nat := (1024, 768)

/-- The sides of the window that opens for the sides asked for. It has at least one pixel each way;
without any extent it fills the desktop. -/
def windowSize (width height : Int) : Except ScreenError (Nat × Nat) :=
  if width < 0 ∨ height < 0 then .error .negativeSize
  else if width = 0 ∧ height = 0 then .ok desktop
  else if maxSide < width ∨ maxSide < height then .error .tooLarge
  else .ok (max 1 width.toNat, max 1 height.toNat)

instance : Canvas Surface where
  openWindow width height :=
    match NativeInteger.low32? width, NativeInteger.low32? height with
    | some width, some height =>
      (windowSize width height).map fun (width, height) => .filled width height ⟨0, 0, 0, 255⟩
    | _, _ => .error .badSize
  fill := fill
  paint s r c :=
    match r.low32? with
    | some r => .ok (s.paint r c)
    | none => .error .badRect
  pixel s x y :=
    match NativeInteger.exact32 x, NativeInteger.exact32 y with
    | .ok x, .ok y => (s.pixel? x y).elim (.error .noPixel) .ok
    | .error e, _ => .error (.badCoordinate e)
    | .ok _, .error e => .error (.badCoordinate e)

end Surface
end ChipEight
