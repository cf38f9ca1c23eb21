import ChipEight.Loading
import ChipEight.Proofs.Checked.Tracing
import ChipEight.Proofs.Text.Numeral

/-!
# Tracing

Tracing only adds lines to the replies, and each cycle one: the address that its word was fetched from and the
instruction. The address is told in four hexadecimal digits.
-/

namespace ChipEight

/-- The line for the instruction at the program counter. -/
def Machine.cycleLine (m : Machine) : String :=
  let pc := m.pc.toNat
  let digits := [pc / 0x1000, pc / 0x100 % 0x10, pc / 0x10 % 0x10, pc % 0x10]
  "mem_addr: 0x" ++ String.ofList (digits.map Nat.digitChar) ++ "    instruction: " ++
    (Instruction.ofWord m.fetch).text

theorem Machine.text_line_of_fetch (m : Machine) : TraceLine.text ⟨m.pc, .ofWord m.fetch⟩ = m.cycleLine := by
  have hpc : m.pc.toNat < 0x10000 := Nat.lt_trans m.pc.isLt (by decide)
  rw [TraceLine.text, Text.hex, Text.hexDigits_four hpc, cycleLine]

theorem Memory.loadFile_tracing (m : Memory) (files : FileTree) (path : Option String) :
    m.loadFile false files path = (m.loadFile true files path).map fun (memory, _) => (memory, "") := by
  cases path with
  | none => rfl
  | some path =>
    rw [loadFile, loadFile]
    cases files.readRom path <;> rfl

/-- What an action on a machine prints if it is traced. -/
def Action.lines (m : Machine) : Action → List String
  | .cycle => [m.cycleLine]
  | _ => []

namespace Engine
variable {ρ : Type} [RandomSource ρ]

theorem answer_lines (e : Engine ρ) (a : Action) :
    (e.answer true a.request).trace.map TraceLine.text = a.lines e.machine := by
  cases a with
  | cycle =>
    rw [Action.request, (answer_cycles_one true e).2.2, cycle_tracing]
    exact congrArg ([·]) e.machine.text_line_of_fetch
  | write | load | setKey | releaseAll => rfl

/-- Each cycle of a schedule prints its line, and no other action prints one. -/
theorem answerAll_lines (e : Engine ρ) (schedule : List Action) (k : Nat) :
    ((e.answerAll true (schedule.map Action.request))[k]?.map fun r => r.trace.map TraceLine.text) =
      schedule[k]?.map (Action.lines (e.after (schedule.take k)).machine) := by
  induction schedule generalizing e k with
  | nil => rfl
  | cons a rest ih =>
    cases k with
    | zero => exact congrArg some (e.answer_lines a)
    | succ k =>
      rw [List.map_cons, answerAll, List.getElem?_cons_succ, List.getElem?_cons_succ, answer_engine true]
      exact ih (e.act a) k

/-- Tracing changes no state and no failure. Traced, each cycle prints the one line that belongs to the word that it
fetches, also if it fails then. Untraced, nothing is printed, neither by a request nor when a file was loaded. The
checked machine prints the same lines and comes to the same states and faults, operation by operation. -/
theorem tracing_is_transparent (e : Engine ρ) :
    (∀ requests : List Request,
      e.answerAll false requests = (e.answerAll true requests).map fun r => { r with trace := [] }) ∧
    (∀ (schedule : List Action) (k : Nat),
      ((e.answerAll true (schedule.map Action.request))[k]?.map fun r => r.trace.map TraceLine.text) =
        schedule[k]?.map (Action.lines (e.after (schedule.take k)).machine)) ∧
    (∀ (m : Memory) (files : FileTree) (path : Option String),
      m.loadFile false files path = (m.loadFile true files path).map fun (memory, _) => (memory, "")) ∧
    (∀ (tracing : Bool) (o : Checked.Operation) (before : List String),
      let reply := e.answer tracing o.request
      (Checked.performTraced tracing o).run (e.checked, before) = Checked.withLines
        (before ++ reply.trace.map TraceLine.text) (Checked.result reply.engine reply.fault)) ∧
    ∀ (tracing : Bool) (operations : List Checked.Operation) (before : List String),
      let requests := operations.map Checked.Operation.request
      Checked.State.afterTraced tracing (e.checked, before) operations =
        ((e.afterAll tracing requests).checked,
          before ++ (e.answerAll tracing requests).flatMap fun r => r.trace.map TraceLine.text) :=
  ⟨e.answerAll_false, e.answerAll_lines, Memory.loadFile_tracing,
    fun tracing o before => Checked.performTraced_run tracing o e before,
    fun tracing operations before => Checked.afterTraced_checked tracing operations e before⟩

end Engine
end ChipEight
