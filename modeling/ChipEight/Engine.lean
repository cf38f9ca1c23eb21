import ChipEight.Instruction.Listing
import ChipEight.Machine.Execute
import ChipEight.Random.Basic

/-!
# Cycles

An engine is a machine with its source of random values. A cycle fetches the word at the program
counter, steps over it, decodes and executes it, and lets the timers tick. If the execution fails,
because no random value is left, the timers stay.

A traced engine also reports each instruction that it executes, with the address it was fetched from.
-/

namespace ChipEight

structure Engine (ρ : Type) where
  machine : Machine
  source : ρ

/-- What an operation of the engine leaves behind. -/
structure Outcome (ρ : Type) where
  engine : Engine ρ
  /-- Why there was no random value, if the execution failed. -/
  fault : Option RandomError
  trace : List TraceLine

namespace Engine
variable {ρ : Type}

def fresh (source : ρ) : Engine ρ := ⟨.fresh, source⟩

def mapMachine (e : Engine ρ) (f : Machine → Machine) : Engine ρ := { e with machine := f e.machine }

variable [RandomSource ρ]

/-- The random value that an instruction uses. Only `random` draws one. -/
def valueFor (source : ρ) : Instruction → Except RandomError Int × ρ
  | .random _ _ => RandomSource.draw source
  | _ => (.ok 0, source)

/-- Executes an instruction. On failure the machine stays as it is. -/
def execute (tracing : Bool) (e : Engine ρ) (i : Instruction) : Outcome ρ :=
  let trace := if tracing then [⟨e.machine.pc - 2, i⟩] else []
  match valueFor e.source i with
  | (.error reason, source) => ⟨{ e with source }, some reason, trace⟩
  | (.ok value, source) => ⟨⟨e.machine.execute value i, source⟩, none, trace⟩

def cycle (tracing : Bool) (e : Engine ρ) : Outcome ρ :=
  let word := e.machine.fetch
  let out := (e.mapMachine Machine.advance).execute tracing (.ofWord word)
  match out.fault with
  | none => { out with engine := out.engine.mapMachine Machine.tick }
  | some _ => out

end Engine
end ChipEight
