import ChipEight.Monitor.Request
import ChipEight.Proofs.Engine.Cycle

/-!
# Schedules

A schedule is a list of actions: cycles, and what is done to memory and keypad between them. Each action is a
request to the monitor, so the engine after a schedule is the one that the monitor leaves (`after_eq_afterAll`).
A cycle that fails is an action like any other, and the schedule goes on from the engine that it left.
-/

namespace ChipEight

inductive Action where
  | cycle
  /-- Writes the low byte of a value at an address, which is taken modulo 4096. -/
  | write (address value : Int)
  | load (program : List Byte)
  /-- Sets a key, which is taken modulo 16. -/
  | setKey (key : Int) (down : Bool)
  | releaseAll
deriving DecidableEq, Repr

def Action.request : Action → Request
  | .cycle => .cycles 1
  | .write address value => .store address [.ofInt value]
  | .load program => .load program
  | .setKey key down => .setKey key down
  | .releaseAll => .releaseAll

namespace Engine
variable {ρ : Type} [RandomSource ρ]

def act (e : Engine ρ) (a : Action) : Engine ρ := (e.answer false a.request).engine

def after (e : Engine ρ) (schedule : List Action) : Engine ρ := schedule.foldl act e

/-- The instructions that the cycles of a schedule come to, the one of a cycle that fails among them. -/
def executed (e : Engine ρ) : List Action → List Instruction
  | [] => []
  | .cycle :: rest => e.next :: (e.act .cycle).executed rest
  | a :: rest => (e.act a).executed rest

theorem answer_cycles_one (tracing : Bool) (e : Engine ρ) :
    (e.answer tracing (.cycles 1)).engine = (e.cycle tracing).engine ∧
    (e.answer tracing (.cycles 1)).fault = (e.cycle tracing).fault ∧
    (e.answer tracing (.cycles 1)).trace = (e.cycle tracing).trace := by
  simp only [answer, cycles, List.replicate, cyclesAfter, mapMachine, id]
  rcases e.cycle tracing with ⟨e', _ | r, trace⟩
  · exact ⟨rfl, rfl, List.append_nil trace⟩
  · exact ⟨rfl, rfl, rfl⟩

theorem act_cycle (e : Engine ρ) : e.act .cycle = (e.cycle false).engine := (answer_cycles_one false e).1

theorem after_eq_afterAll (e : Engine ρ) (schedule : List Action) :
    e.after schedule = e.afterAll false (schedule.map Action.request) := by
  rw [after, afterAll, List.foldl_map]
  rfl

theorem after_append (e : Engine ρ) (as bs : List Action) : e.after (as ++ bs) = (e.after as).after bs :=
  List.foldl_append

theorem executed_append (e : Engine ρ) (as bs : List Action) :
    e.executed (as ++ bs) = e.executed as ++ (e.after as).executed bs := by
  induction as generalizing e with
  | nil => rfl
  | cons a as ih =>
    cases a with
    | cycle => exact congrArg (e.next :: ·) (ih _)
    | write | load | setKey | releaseAll => exact ih _

end Engine
end ChipEight
