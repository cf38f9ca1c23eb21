import ChipEight.Machine.Basic

/-!
# Reporting on a machine

The status line of a machine, and what differs between two machines: stack slots, runs of
consecutive bytes, and rows of the display.
-/

namespace ChipEight

/-- The registers of a machine, as one line shows them. -/
structure Status where
  pc : Address
  index : Word
  registers : List Byte
  delay : Byte
  sound : Byte
  stackPointer : Nibble
  drawn : Bool
deriving DecidableEq, Repr

def Machine.status (m : Machine) : Status where
  pc := m.pc
  index := m.index
  registers := m.registers.toList
  delay := m.delay
  sound := m.sound
  stackPointer := m.stack.pointer
  drawn := m.drawn

def Status.text (s : Status) : String :=
  String.intercalate " "
    [Text.hex 3 s.pc.toNat, Text.hex 4 s.index.toNat, Text.hexBytes s.registers,
     Text.decimal s.delay.toNat, Text.decimal s.sound.toNat, Text.decimal s.stackPointer.toNat,
     if s.drawn then "D" else "-"]

/-- A row of cells as hexadecimal digits, four cells to a digit and the leftmost one leading. -/
def Text.hexRow : List Bool → List Char
  | a :: b :: c :: d :: rest =>
    Nat.digitChar (8 * a.toNat + 4 * b.toNat + 2 * c.toNat + d.toNat) :: hexRow rest
  | _ => []

/-- What differs from one machine to another, with the other's values. -/
structure Change where
  stack : List (Nibble × Address)
  /-- Longest runs of consecutive bytes that differ. -/
  memory : List (Nat × List Byte)
  display : List (Nat × List Bool)
deriving DecidableEq, Repr

namespace Change

/-- The places at which two lists differ, with the second list's values. The places count from `i`. -/
def differences {α : Type} [DecidableEq α] (i : Nat) : List α → List α → List (Nat × α)
  | a :: old, b :: new =>
    if a = b then differences (i + 1) old new else (i, b) :: differences (i + 1) old new
  | _, _ => []

/-- Joins entries at consecutive places. -/
def joinRuns {α : Type} : List (Nat × α) → List (Nat × List α)
  | [] => []
  | (i, a) :: rest =>
    match joinRuns rest with
    | [] => [(i, [a])]
    | (j, as) :: runs => if j = i + 1 then (i, a :: as) :: runs else (i, [a]) :: (j, as) :: runs

def between (old new : Machine) : Change where
  stack := (differences 0 old.stack.slots.toList new.stack.slots.toList).map fun (i, a) =>
    (BitVec.ofNat 4 i, a)
  memory := joinRuns (differences 0 old.memory.toList new.memory.toList)
  display := (List.range 32).filterMap fun y =>
    if old.display.row y = new.display.row y then none else some (y, new.display.rowCells y)

end Change
end ChipEight
