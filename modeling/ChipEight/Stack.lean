import ChipEight.Table
import ChipEight.Word
import ChipEight.Text.Numeral

/-!
# The ring of return addresses

Sixteen slots and a pointer to the top one. The pointer wraps round, so pushing never overflows and
popping never underflows: the seventeenth push takes the place of the oldest entry, and a pop gives
whatever its slot holds. `pop_push` is the law of a stack.
-/

namespace ChipEight

structure Stack (α : Type) where
  slots : Table 4 α
  pointer : Nibble
deriving DecidableEq

namespace Stack
variable {α : Type}

/-- The stack that holds `a` in every slot and points to the first. -/
def filled (a : α) : Stack α := ⟨.replicate 4 a, 0⟩

/-- The entry the pointer is at. -/
def top (s : Stack α) : α := s.slots[s.pointer]

def push (s : Stack α) (a : α) : Stack α :=
  let pointer := s.pointer + 1
  ⟨s.slots.set pointer a, pointer⟩

/-- The top entry and the stack below it. The slot keeps its entry. -/
def pop (s : Stack α) : α × Stack α := (s.top, { s with pointer := s.pointer - 1 })

/-- The pointer, and the slots in order as signed hexadecimal numerals. -/
def text (value : α → Int) (s : Stack α) : String :=
  let entries := s.slots.toList.map fun a => "'" ++ Text.signedHex (value a) ++ "'"
  "Stack(sp=" ++ Text.decimal s.pointer.toNat ++ ", addr_list=" ++ Text.bracketed entries ++ ")"

@[simp] theorem top_push (s : Stack α) (a : α) : (s.push a).top = a := by simp [push, top]

@[simp] theorem pointer_push (s : Stack α) (a : α) : (s.push a).pointer = s.pointer + 1 := rfl

theorem pop_push (s : Stack α) (a : α) :
    (s.push a).pop = (a, { s.push a with pointer := s.pointer }) := by
  simp only [pop, top_push, pointer_push, BitVec.add_sub_cancel]

end Stack
end ChipEight
