import ChipEight.Engine
import ChipEight.Proofs.Instruction.Encoding
import ChipEight.Proofs.Machine.Frame

/-!
# What a cycle does

`cycle_cases`: a cycle either executes the instruction at the program counter and ticks, or the instruction is
`random`, the source gives no value, and only the step over the word is left. The lemmas below it say what
becomes of single parts of the machine, in both cases at once.
-/

namespace ChipEight

/-- Every draw gives a value. -/
def RandomSource.Endless (ρ : Type) [RandomSource ρ] : Prop :=
  ∀ source : ρ, ∃ v source', RandomSource.draw source = (.ok v, source')

attribute [ext] Engine

namespace Engine
variable {ρ : Type}

def next (e : Engine ρ) : Instruction := .ofWord e.machine.fetch

theorem next_encodes (e : Engine ρ) : e.next.Encodes e.machine.fetch := Instruction.ofWord_encodes _

def nextTrace (tracing : Bool) (e : Engine ρ) : List TraceLine :=
  if tracing then [⟨e.machine.pc, e.next⟩] else []

variable [RandomSource ρ] {e : Engine ρ} {source : ρ} {tracing : Bool}

theorem cycle_of_ok {v : Int} (h : valueFor e.source e.next = (.ok v, source)) :
    e.cycle tracing = ⟨⟨(e.machine.advance.execute v e.next).tick, source⟩, none, e.nextTrace tracing⟩ := by
  unfold next at h
  simp only [cycle, execute, mapMachine, h, nextTrace, next, Machine.advance, BitVec.add_sub_cancel]

theorem cycle_of_error {r : RandomError} (h : valueFor e.source e.next = (.error r, source)) :
    e.cycle tracing = ⟨⟨e.machine.advance, source⟩, some r, e.nextTrace tracing⟩ := by
  unfold next at h
  simp only [cycle, execute, mapMachine, h, nextTrace, next, Machine.advance, BitVec.add_sub_cancel]

/-- Only `random` takes a value from the source. -/
theorem valueFor_error {i : Instruction} {r : RandomError} {s : ρ} (h : valueFor s i = (.error r, source)) :
    (∃ x k, i = .random x k) ∧ RandomSource.draw s = (.error r, source) := by
  cases i with
  | random x k => exact ⟨⟨x, k, rfl⟩, h⟩
  | _ => cases h

theorem valueFor_of_ne {i : Instruction} (h : ∀ x k, i ≠ .random x k) (s : ρ) : valueFor s i = (.ok 0, s) := by
  cases i with
  | random x k => exact absurd rfl (h x k)
  | _ => rfl

theorem valueFor_of_kind {w : Word} (h : w.kind ≠ 0xc) (s : ρ) : valueFor s (.ofWord w) = (.ok 0, s) :=
  valueFor_of_ne (fun _ _ hi => h (Instruction.kind_of_random hi)) s

theorem execute_of_kind {w : Word} (h : w.kind ≠ 0xc) (tracing : Bool) (e : Engine ρ) :
    e.execute tracing (.ofWord w) = ⟨⟨e.machine.execute 0 (.ofWord w), e.source⟩, none,
      if tracing then [⟨e.machine.pc - 2, .ofWord w⟩] else []⟩ := by
  rw [execute, valueFor_of_kind h]

theorem cycle_of_next {i : Instruction} (hnext : e.next = i) (h : ∀ x k, i ≠ .random x k) (tracing : Bool) :
    e.cycle tracing = ⟨⟨(e.machine.advance.execute 0 i).tick, e.source⟩, none, e.nextTrace tracing⟩ := by
  subst hnext
  exact cycle_of_ok (valueFor_of_ne h e.source)

theorem cycle_of_kind (h : e.machine.fetch.kind ≠ 0xc) (tracing : Bool) :
    e.cycle tracing = ⟨⟨(e.machine.advance.execute 0 e.next).tick, e.source⟩, none, e.nextTrace tracing⟩ :=
  cycle_of_ok (valueFor_of_kind h e.source)

theorem cycle_cases (tracing : Bool) (e : Engine ρ) :
    (∃ v source, valueFor e.source e.next = (.ok v, source) ∧
      e.cycle tracing = ⟨⟨(e.machine.advance.execute v e.next).tick, source⟩, none, e.nextTrace tracing⟩) ∨
    (∃ x k r source, e.next = .random x k ∧ RandomSource.draw e.source = (.error r, source) ∧
      e.cycle tracing = ⟨⟨e.machine.advance, source⟩, some r, e.nextTrace tracing⟩) := by
  rcases h : valueFor e.source e.next with ⟨r | v, source⟩
  · obtain ⟨⟨x, k, hi⟩, hd⟩ := valueFor_error h
    exact .inr ⟨x, k, r, source, hi, hd, cycle_of_error h⟩
  · exact .inl ⟨v, source, rfl, cycle_of_ok h⟩

theorem cycle_tracing (tracing : Bool) (e : Engine ρ) :
    e.cycle tracing = { e.cycle false with trace := e.nextTrace tracing } := by
  rcases h : valueFor e.source e.next with ⟨r | v, source⟩
  · rw [cycle_of_error h, cycle_of_error h]
  · rw [cycle_of_ok h, cycle_of_ok h]

theorem cycle_source (tracing : Bool) (e : Engine ρ) :
    (e.cycle tracing).engine.source = (valueFor e.source e.next).2 := by
  rcases h : valueFor e.source e.next with ⟨r | v, source⟩
  · rw [cycle_of_error h]
  · rw [cycle_of_ok h]

theorem cycle_keypad (tracing : Bool) (e : Engine ρ) :
    (e.cycle tracing).engine.machine.keypad = e.machine.keypad := by
  rcases cycle_cases tracing e with ⟨v, source, -, h⟩ | ⟨x, k, r, source, -, -, h⟩ <;> rw [h]
  · exact Machine.execute_keypad ..
  · rfl

theorem cycle_stack (tracing : Bool) (e : Engine ρ) :
    (e.cycle tracing).engine.machine.stack = match e.next with
      | .call _ => e.machine.stack.push (e.machine.pc + 2)
      | .ret => e.machine.stack.pop.2
      | _ => e.machine.stack := by
  rcases cycle_cases tracing e with ⟨v, source, -, h⟩ | ⟨x, k, r, source, hi, -, h⟩ <;> rw [h]
  · exact Machine.execute_stack ..
  · rw [hi]; rfl

/-- A cycle leaves the display alone unless its instruction draws, whether or not it fails. -/
theorem cycle_display_of_not_draws (h : e.next.draws = false) :
    (e.cycle tracing).engine.machine.display = e.machine.display := by
  rcases cycle_cases tracing e with ⟨v, source, -, hc⟩ | ⟨x, k, r, source, -, -, hc⟩ <;> rw [hc]
  · exact Machine.execute_display_of_not_draws _ _ h
  · rfl

theorem cycle_memory (tracing : Bool) (e : Engine ρ) :
    (e.cycle tracing).engine.machine.memory = match e.next with
      | .storeDigits x => e.machine.memory.store e.machine.indexAddress (Machine.digits e.machine.registers[x])
      | .storeRegisters last => e.machine.memory.store e.machine.indexAddress (e.machine.registersUpTo last)
      | _ => e.machine.memory := by
  rcases cycle_cases tracing e with ⟨v, source, -, h⟩ | ⟨x, k, r, source, hi, -, h⟩ <;> rw [h]
  · exact Machine.execute_memory ..
  · rw [hi]; rfl

theorem cycle_index (tracing : Bool) (e : Engine ρ) :
    (e.cycle tracing).engine.machine.index = match e.next with
      | .setIndex a => a.setWidth 16
      | .addIndex x => e.machine.index + e.machine.registers[x].setWidth 16
      | .glyph x => e.machine.registers[x].setWidth 16 * BitVec.ofNat 16 glyphSize
      | _ => e.machine.index := by
  rcases cycle_cases tracing e with ⟨v, source, -, h⟩ | ⟨x, k, r, source, hi, -, h⟩ <;> rw [h]
  · exact Machine.execute_index ..
  · rw [hi]; rfl

theorem cycle_registers_of_not_writes {r : Nibble} (h : ¬e.next.Writes e.machine.keypad r) :
    (e.cycle tracing).engine.machine.registers[r] = e.machine.registers[r] := by
  rcases cycle_cases tracing e with ⟨v, source, -, hc⟩ | ⟨x, k, _, source, -, -, hc⟩ <;> rw [hc]
  · exact Machine.execute_registers_of_not_writes v h
  · rfl

theorem cycle_pc_of_not_redirects (h : e.next.redirects = false) :
    (e.cycle tracing).engine.machine.pc = e.machine.pc + 2 := by
  rcases cycle_cases tracing e with ⟨v, source, -, hc⟩ | ⟨x, k, r, source, -, -, hc⟩ <;> rw [hc]
  · exact Machine.execute_pc_of_not_redirects _ _ h
  · rfl

theorem cycle_drawn (tracing : Bool) (e : Engine ρ) :
    (e.cycle tracing).engine.machine.drawn = e.next.draws := by
  rcases cycle_cases tracing e with ⟨v, source, -, hc⟩ | ⟨x, k, r, source, hi, -, hc⟩ <;> rw [hc]
  · exact (Machine.execute_drawn ..).trans (Bool.or_false _)
  · rw [hi]; rfl

theorem cycle_pc_of_ret (h : e.next = .ret) : (e.cycle tracing).engine.machine.pc = e.machine.stack.top := by
  rw [cycle_of_next h nofun]
  rfl

theorem cycle_fault_of_endless (h : RandomSource.Endless ρ) (tracing : Bool) (e : Engine ρ) :
    (e.cycle tracing).fault = none := by
  rcases cycle_cases tracing e with ⟨v, source, -, hc⟩ | ⟨x, k, r, source, -, hd, -⟩
  · rw [hc]
  · obtain ⟨v, source', hv⟩ := h e.source
    rw [hv] at hd
    cases hd

end Engine
end ChipEight
