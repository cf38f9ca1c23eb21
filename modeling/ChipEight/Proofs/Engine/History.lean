import ChipEight.Monitor.Request
import ChipEight.Proofs.Engine.Cycle

/-!
# What a run executes

The history of a run lists the instructions that it executes, each with the machine that executes it. The trace tells
just this (`answerAll_trace`), and tracing changes nothing else (`answerAll_false`, `afterAll_tracing`).
-/

namespace ChipEight

/-- An instruction and the machine that executes it, whose program counter already points behind it. -/
structure Execution where
  machine : Machine
  instruction : Instruction

def Execution.line (x : Execution) : TraceLine := ⟨x.machine.pc - 2, x.instruction⟩

namespace Engine
variable {ρ : Type} [RandomSource ρ]

/-- What the cycles after changes execute, the one that fails among them. -/
def executionsAfter : List (Machine → Machine) → Engine ρ → List Execution
  | [], _ => []
  | f :: rest, e =>
    ⟨(f e.machine).advance, (e.mapMachine f).next⟩ :: match (e.mapMachine f).cycle false with
      | ⟨e, none, _⟩ => executionsAfter rest e
      | ⟨_, some _, _⟩ => []

def executions (e : Engine ρ) : Request → List Execution
  | .cycles n => executionsAfter (List.replicate n id) e
  | .enter words => executionsAfter (words.map enterWord) e
  | .execute opcode => [⟨e.machine, .ofWord (.ofInt opcode)⟩]
  | _ => []

/-- What a list of requests executes, in order. -/
def history (e : Engine ρ) : List Request → List Execution
  | [] => []
  | r :: rest => e.executions r ++ (e.answer false r).engine.history rest

/-! ### Tracing -/

theorem execute_false (e : Engine ρ) (i : Instruction) :
    e.execute false i = { e.execute true i with trace := [] } := by
  unfold execute
  rcases valueFor e.source i with ⟨_ | _, source⟩ <;> rfl

theorem execute_trace (tracing : Bool) (e : Engine ρ) (i : Instruction) :
    (e.execute tracing i).trace = if tracing then [Execution.line ⟨e.machine, i⟩] else [] := by
  unfold execute
  rcases valueFor e.source i with ⟨_ | _, source⟩ <;> rfl

theorem cyclesAfter_cons (tracing : Bool) (f : Machine → Machine) (rest : List (Machine → Machine)) (e : Engine ρ) :
    cyclesAfter tracing (f :: rest) e = match (e.mapMachine f).cycle false with
      | ⟨e', none, _⟩ =>
        .preceded e'.machine.status ((e.mapMachine f).nextTrace tracing) (cyclesAfter tracing rest e')
      | ⟨e', some r, _⟩ => ⟨e', none, [], (e.mapMachine f).nextTrace tracing, some r⟩ := by
  rw [cyclesAfter, cycle_tracing]
  rcases (e.mapMachine f).cycle false with ⟨e', _ | r, trace⟩ <;> rfl

theorem cyclesAfter_false (changes : List (Machine → Machine)) (e : Engine ρ) :
    cyclesAfter false changes e = { cyclesAfter true changes e with trace := [] } := by
  induction changes generalizing e with
  | nil => rfl
  | cons f rest ih =>
    rw [cyclesAfter_cons, cyclesAfter_cons]
    rcases (e.mapMachine f).cycle false with ⟨e', _ | r, trace⟩
    · exact congrArg (Reply.preceded _ []) (ih e')
    · rfl

theorem cyclesAfter_trace (changes : List (Machine → Machine)) (e : Engine ρ) :
    (cyclesAfter true changes e).trace = (executionsAfter changes e).map Execution.line := by
  induction changes generalizing e with
  | nil => rfl
  | cons f rest ih =>
    have hline : (e.mapMachine f).nextTrace true =
        [Execution.line ⟨(f e.machine).advance, (e.mapMachine f).next⟩] := by
      rw [Execution.line, Machine.advance, BitVec.add_sub_cancel]
      rfl
    rw [cyclesAfter_cons, executionsAfter, List.map_cons, hline]
    rcases (e.mapMachine f).cycle false with ⟨e', _ | r, trace⟩
    · exact congrArg (_ :: ·) (ih e')
    · rfl

/-- Tracing changes nothing but the trace. -/
theorem answer_false (e : Engine ρ) (r : Request) : e.answer false r = { e.answer true r with trace := [] } := by
  cases r with
  | cycles | enter => exact cyclesAfter_false ..
  | execute opcode => rw [answer, answer, execute_false]
  | load | store | fetch | setKey | releaseAll | assign | describe => rfl

theorem answer_trace (e : Engine ρ) (r : Request) : (e.answer true r).trace = (e.executions r).map Execution.line := by
  cases r with
  | cycles | enter => exact cyclesAfter_trace ..
  | execute opcode => exact execute_trace ..
  | load | store | fetch | setKey | releaseAll | assign | describe => rfl

theorem answer_engine (tracing : Bool) (e : Engine ρ) (r : Request) :
    (e.answer tracing r).engine = (e.answer false r).engine := by
  cases tracing with
  | false => rfl
  | true => rw [answer_false]

theorem afterAll_tracing (tracing : Bool) (e : Engine ρ) (requests : List Request) :
    e.afterAll tracing requests = e.afterAll false requests := by
  simp only [afterAll, answer_engine tracing]

theorem answerAll_false (e : Engine ρ) (requests : List Request) :
    e.answerAll false requests = (e.answerAll true requests).map fun r => { r with trace := [] } := by
  induction requests generalizing e with
  | nil => rfl
  | cons r rest ih =>
    rw [answerAll, answerAll, List.map_cons, ← answer_false, answer_engine true, ih]

/-- The trace of a run lists its history. -/
theorem answerAll_trace (e : Engine ρ) (requests : List Request) :
    (e.answerAll true requests).flatMap (·.trace) = (e.history requests).map Execution.line := by
  induction requests generalizing e with
  | nil => rfl
  | cons r rest ih =>
    rw [answerAll, history, List.flatMap_cons, List.map_append, answer_trace, answer_engine true, ih]

end Engine
end ChipEight
