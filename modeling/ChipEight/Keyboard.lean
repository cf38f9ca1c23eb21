import ChipEight.Keypad

/-!
# The keyboard

The keypad lies over the left side of the keyboard: its rows `123C`, `456D`, `789E` and `A0BF` over
`1234`, `QWER`, `ASDF` and `ZXCV`. The other digits of the keyboard stand for themselves, so that some
keys of the pad can be reached by two keys of the keyboard.
-/

namespace ChipEight

/-- What the user does. A key is named by the code of its lowercase character. -/
inductive Event where
  | down (code : Int)
  | up (code : Int)
  | quit
  | other
deriving DecidableEq, Repr

namespace Keyboard

/-- The keys of the keyboard and the keys of the pad that they stand for. -/
def layout : List (Char × Nibble) :=
  [('1', 0x1), ('2', 0x2), ('3', 0x3), ('4', 0xc),
   ('q', 0x4), ('w', 0x5), ('e', 0x6), ('r', 0xd),
   ('a', 0x7), ('s', 0x8), ('d', 0x9), ('f', 0xe),
   ('z', 0xa), ('x', 0x0), ('c', 0xb), ('v', 0xf),
   ('5', 0x5), ('6', 0x6), ('7', 0x7), ('8', 0x8), ('9', 0x9), ('0', 0x0)]

/-- The code of the key that leaves the program. -/
def escape : Int := 27

/-- The key of the pad that a key of the keyboard stands for. -/
def padKey? (code : Int) : Option Nibble :=
  (layout.find? fun entry => (entry.1.toNat : Int) = code).map Prod.snd

def leaves : Event → Bool
  | .quit => true
  | .down code => code = escape
  | .up code => code = escape
  | .other => false

def latch (p : Keypad) : Event → Keypad
  | .down code => (padKey? code).elim p fun k => p.set k true
  | .up code => (padKey? code).elim p fun k => p.set k false
  | .quit => p
  | .other => p

/-- The keypad after some events. Those after one that asks to leave count as well. -/
def latchAll (p : Keypad) (events : List Event) : Keypad := events.foldl latch p

end Keyboard
end ChipEight
