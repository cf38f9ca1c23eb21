import ChipEight.Text.DecimalDigit

/-!
# Reading integers

An integer is written with decimal digits of any script, with single underscores between them if one
likes, a sign in front and white space around.
-/

namespace ChipEight.Text

/-- White space: the ASCII blanks, and the blanks beyond ASCII. -/
def isBlank (c : Char) : Bool :=
  let n := c.toNat
  (9 ≤ n && n ≤ 13) || n = 32 || n = 0x85 || n = 0xa0 || n = 0x1680 || (0x2000 ≤ n && n ≤ 0x200a) ||
    n = 0x2028 || n = 0x2029 || n = 0x202f || n = 0x205f || n = 0x3000

def trimmed (s : List Char) : List Char :=
  ((s.dropWhile isBlank).reverse.dropWhile isBlank).reverse

/-- The values of a row of digits. An underscore stands between two digits only. -/
def digitRow? : List Char → Option (List Nat)
  | [] => none
  | [c] => (digitValue? c).map ([·])
  | c :: '_' :: rest => do
    let d ← digitValue? c
    let ds ← digitRow? rest
    return d :: ds
  | c :: rest => do
    let d ← digitValue? c
    let ds ← digitRow? rest
    return d :: ds

/-- The most digits that an integer may be written with. -/
def maxDigits : Nat := 4300

def natural? (s : List Char) : Option Nat := do
  let ds ← digitRow? s
  if ds.length ≤ maxDigits then return ds.foldl (10 * · + ·) 0 else none

/-- The integer that a text stands for. -/
def integer? (s : String) : Option Int :=
  match trimmed s.toList with
  | '-' :: digits => (natural? digits).map fun n => -(n : Int)
  | '+' :: digits => (natural? digits).map Int.ofNat
  | digits => (natural? digits).map Int.ofNat

end ChipEight.Text
