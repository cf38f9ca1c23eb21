/-!
# Sources of random values

The machine takes its random values one at a time from a source, which it leaves in a new state.
A source may fail. `Script` hands out a fixed list of values.
-/

namespace ChipEight

structure RandomError where
  reason : String
deriving DecidableEq, Repr

/-- There are no values left. -/
def RandomError.exhausted : RandomError := ⟨"no more random values"⟩

/-- A type of sources: a draw gives a value, or the reason why there is none, and the source to draw
from next. -/
class RandomSource (ρ : Type) where
  draw : ρ → Except RandomError Int × ρ

namespace Random

/-- The values still to come. -/
structure Script where
  values : List Int
deriving DecidableEq, Repr

instance : RandomSource Script where
  draw
    | ⟨[]⟩ => (.error .exhausted, ⟨[]⟩)
    | ⟨v :: values⟩ => (.ok v, ⟨values⟩)

end Random
end ChipEight
