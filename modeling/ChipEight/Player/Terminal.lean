import ChipEight.Player.Session
import ChipEight.Text.Integer

/-!
# Playing in a terminal

Turns are typed one to a line: the milliseconds that pass, and words for the events. `+q` presses the
key `q`, `-q` releases it, and `quit` leaves. A picture of the display is two characters to a cell.
-/

namespace ChipEight

/-- The event that a word stands for. -/
def Event.ofWord : List Char → Event
  | ['+', key] => .down key.toNat
  | ['-', key] => .up key.toNat
  | word => if word = "quit".toList then .quit else .other

/-- The turn that a line stands for. -/
def Turn.ofLine? (line : String) : Option Turn :=
  match (line.splitToList Char.isWhitespace).filter (· ≠ "") with
  | [] => none
  | tick :: words =>
    (Text.integer? tick).map fun n => ⟨n, .events (words.map fun w => .ofWord w.toList)⟩

/-- The rows of the display as lines of text. -/
def Framebuffer.picture {width height : Int} (f : Framebuffer width height) : String :=
  String.join (f.rows.map fun row =>
    String.join (row.map fun lit => if lit then "##" else "  ") ++ "\n")

end ChipEight
