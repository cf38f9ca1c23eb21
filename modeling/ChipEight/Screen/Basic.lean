import ChipEight.Framebuffer
import ChipEight.Screen.Canvas

/-!
# The screen

A window on which each cell of a grid is a square block of pixels. A cell is read at the corner of
its block: it is lit unless it has the background colour.
-/

namespace ChipEight

structure Screen (σ : Type) where
  width : Int
  height : Int
  /-- The side of a block. -/
  scale : Int
  background : Color
  foreground : Color
  surface : σ
deriving DecidableEq, Repr

namespace Screen

def defaultScale : Int := 15
def defaultBackground : Color := ⟨80, 69, 155, 255⟩
def defaultForeground : Color := ⟨136, 126, 203, 255⟩

variable {σ : Type} [Canvas σ]

def create (width height scale : Int) (background foreground : Color) :
    Except ScreenError (Screen σ) :=
  (Canvas.openWindow (width * scale) (height * scale)).map fun window =>
    { width, height, scale, background, foreground, surface := Canvas.fill window background }

def readCell (s : Screen σ) (x y : Int) : Except ScreenError Bool :=
  (Canvas.pixel s.surface (x * s.scale) (y * s.scale)).map fun c => decide (c ≠ s.background)

def writeCell (s : Screen σ) (x y : Int) (lit : Bool) : Except ScreenError (Screen σ) :=
  (Canvas.paint s.surface (.block s.scale x y) (if lit then s.foreground else s.background)).map
    fun surface => { s with surface }

def clear (s : Screen σ) : Screen σ := { s with surface := Canvas.fill s.surface s.background }

/-- Lights cells, up to the first one that is not painted. -/
def light (s : Screen σ) : List (Nat × Nat) → Screen σ × Option ScreenError
  | [] => (s, none)
  | (x, y) :: rest =>
    match s.writeCell x y true with
    | .ok s => light s rest
    | .error e => (s, some e)

/-- Shows a framebuffer, and nothing else. -/
def render {width height : Int} (s : Screen σ) (f : Framebuffer width height) :
    Screen σ × Option ScreenError :=
  s.clear.light f.litCells

end Screen
end ChipEight
