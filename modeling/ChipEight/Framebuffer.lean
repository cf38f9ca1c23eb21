import ChipEight.NativeInteger
import ChipEight.Word

/-!
# Framebuffers

A grid of one-bit cells, numbered row after row: the cell at `(x, y)` is number `y * width + x`. Cells
are looked up by number, so a coordinate beyond a row's end runs on into the next row, and a negative
number counts back from the last cell. Only a number outside the grid has no cell. A grid with a
negative side has no cells at all.

A sprite is drawn by toggling the cells under its set bits; the part that lies beyond the right or
the bottom edge is not drawn.
-/

namespace ChipEight

abbrev cellCount (width height : Int) : Nat := width.toNat * height.toNat

structure Framebuffer (width height : Int) where
  /-- The lit cells: bit `n` stands for cell number `n`. -/
  cells : BitVec (cellCount width height)
deriving DecidableEq

/-- The machine's display. -/
abbrev Display := Framebuffer 64 32

inductive CellError where
  | outside
  /-- The number does not even fit into 64 bits. -/
  | beyond64
deriving DecidableEq, Repr

def CellError.message : CellError → String
  | .outside => "list index out of range"
  | .beyond64 => "cannot fit 'int' into an index-sized integer"

inductive SizeError where
  /-- A side is no number of 64 bits. -/
  | beyond64
  | outOfMemory
deriving DecidableEq, Repr

def SizeError.message : SizeError → String
  | .beyond64 => CellError.beyond64.message
  | .outOfMemory => ""

namespace Framebuffer
variable {width height : Int}

@[ext] theorem ext {f g : Framebuffer width height} (h : f.cells = g.cells) : f = g := by
  cases f
  cases g
  exact congrArg mk h

def blank (width height : Int) : Framebuffer width height := ⟨0⟩

/-- The blank framebuffer of a size, if there is memory for so many cells. A row is made before the
rows are counted, so a row that is too long shows before a height that is no number of 64 bits. -/
def ofSize (memory : Nat) (width height : Int) : Except SizeError (Framebuffer width height) :=
  if ¬ NativeInteger.Fits64 width then .error .beyond64
  else if memory < width.toNat then .error .outOfMemory
  else if ¬ NativeInteger.Fits64 height then .error .beyond64
  else if memory < cellCount width height then .error .outOfMemory
  else .ok (blank width height)

def count (_ : Framebuffer width height) : Nat := cellCount width height

def index (f : Framebuffer width height) (x y : Int) : Except CellError Nat :=
  let n := y * width + x
  let i := if n < 0 then n + f.count else n
  if 0 ≤ i ∧ i < f.count then .ok i.toNat
  else .error (if NativeInteger.Fits64 n then .outside else .beyond64)

def isLit (f : Framebuffer width height) (x y : Int) : Except CellError Bool :=
  (f.index x y).map f.cells.getLsbD

/-- The value that stands for a cell in the display's memory: all ones if it is lit. -/
def cellValue (lit : Bool) : BitVec 32 := if lit then .allOnes 32 else 0

/-- The framebuffer in which just the cells of the given numbers are lit. -/
def ofCells (width height : Int) : List Nat → Framebuffer width height
  | [] => blank width height
  | n :: rest => ⟨(ofCells width height rest).cells ||| .twoPow _ n⟩

/-- Flips the cells that are lit in another framebuffer. -/
def flip (f mask : Framebuffer width height) : Framebuffer width height := ⟨f.cells ^^^ mask.cells⟩

def meets (f g : Framebuffer width height) : Bool := f.cells &&& g.cells ≠ 0

/-- Flips a cell, and says whether that turned a lit one off. -/
def toggle (f : Framebuffer width height) (x y : Int) :
    Except CellError (Framebuffer width height × Bool) :=
  (f.index x y).map fun n => (f.flip (ofCells width height [n]), f.cells.getLsbD n)

def toggleAll (f : Framebuffer width height) :
    List (Int × Int) → Except CellError (Framebuffer width height)
  | [] => .ok f
  | (x, y) :: rest => do
    let (f, _) ← f.toggle x y
    f.toggleAll rest

def clear (_ : Framebuffer width height) : Framebuffer width height := blank width height

/-- The numbers of the cells under the set bits of a sprite with its top left corner at `(x, y)`,
eight to a row, as far as they lie on the grid. -/
def spriteCells (width height : Int) (x y : Nat) (sprite : List Byte) : List Nat :=
  sprite.zipIdx.flatMap fun (bits, row) =>
    (List.range 8).filterMap fun column =>
      if bits.getMsbD column && x + column < width.toNat && y + row < height.toNat then
        some ((y + row) * width.toNat + (x + column))
      else none

/-- Draws a sprite, and says whether it turned a lit cell off. -/
def draw (f : Framebuffer width height) (x y : Nat) (sprite : List Byte) :
    Framebuffer width height × Bool :=
  let mask := ofCells width height (spriteCells width height x y sprite)
  (f.flip mask, f.meets mask)

/-- The cells of a row, the leftmost one as the lowest bit. -/
def row (f : Framebuffer width height) (y : Nat) : BitVec width.toNat :=
  f.cells.extractLsb' (y * width.toNat) width.toNat

/-- The cells of a row from its left end. -/
def rowCells (f : Framebuffer width height) (y : Nat) : List Bool :=
  let row := f.row y
  (List.range width.toNat).map fun x => row.getLsbD x

def rows (f : Framebuffer width height) : List (List Bool) :=
  (List.range height.toNat).map f.rowCells

/-- The coordinates of the lit cells, row by row. -/
def litCells (f : Framebuffer width height) : List (Nat × Nat) :=
  f.rows.zipIdx.flatMap fun (row, y) =>
    row.zipIdx.filterMap fun (lit, x) => if lit then some (x, y) else none

@[simp] theorem getLsbD_blank (n : Nat) : (blank width height).cells.getLsbD n = false := by
  simp [blank]

@[simp] theorem getLsbD_flip (f g : Framebuffer width height) (n : Nat) :
    (f.flip g).cells.getLsbD n = (f.cells.getLsbD n ^^ g.cells.getLsbD n) := by
  simp [flip]

theorem getLsbD_ofCells (cells : List Nat) (n : Nat) :
    (ofCells width height cells).cells.getLsbD n =
      (decide (n < cellCount width height) && decide (n ∈ cells)) := by
  induction cells with
  | nil => simp [ofCells]
  | cons m rest ih =>
    rw [ofCells, BitVec.getLsbD_or, ih, BitVec.getLsbD_twoPow]
    grind

@[simp] theorem flip_flip (f g : Framebuffer width height) : (f.flip g).flip g = f := by
  ext1
  simp only [flip, BitVec.xor_assoc, BitVec.xor_self, BitVec.xor_zero]

end Framebuffer
end ChipEight
