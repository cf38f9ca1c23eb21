import ChipEight.Proofs.Checked.Refinement
import ChipEight.Proofs.Engine.History

/-!
# The traced machine

The checked machine with the lines that it prints. Each method prints its line when it is called, put together from a
template and the operands, and what forwards to it prints none. An operation prints the lines of the engine's reply and
comes to what the untraced one comes to (`performTraced_run`).
-/

namespace ChipEight

/-- The line that is printed for a word, fetched from an address, when it is executed. -/
def Word.line (a : Address) (w : Word) : String := TraceLine.text ⟨a, .ofWord w⟩

namespace Checked

/-! ### Templates -/

/-- A piece of a template: a text, or an operand in decimal or in at least some hexadecimal digits. No operand is
negative. -/
inductive Piece where
  | text (t : String)
  | decimal (operand : Operands → Int)
  | hex (width : Nat) (operand : Operands → Int)

def Piece.format (i : Operands) : Piece → String
  | .text t => t
  | .decimal operand => Text.decimal (operand i).toNat
  | .hex width operand => Text.hex width (operand i).toNat

def Method.template : Method → List Piece
  | .unknown => [.text "UNKNOWN 0x", .hex 4 (·.opcode)]
  | .clearScreen => [.text "CLS"]
  | .ret => [.text "RET"]
  | .jump => [.text "JP 0x", .hex 3 (·.nnn)]
  | .call => [.text "CALL 0x", .hex 3 (·.nnn)]
  | .jumpPlus => [.text "JP V0, 0x", .hex 3 (·.nnn)]
  | .skipIfEqual => [.text "SE V", .decimal (·.x), .text ", 0x", .hex 2 (·.kk)]
  | .skipUnlessEqual => [.text "SNE V", .decimal (·.x), .text ", 0x", .hex 2 (·.kk)]
  | .skipIfSame => [.text "SE V", .decimal (·.x), .text ", V", .decimal (·.y)]
  | .skipUnlessSame => [.text "SNE V", .decimal (·.x), .text ", V", .decimal (·.y)]
  | .setConstant => [.text "LD V", .decimal (·.x), .text ", 0x", .hex 2 (·.kk)]
  | .addConstant => [.text "ADD V", .decimal (·.x), .text ", 0x", .hex 2 (·.kk)]
  | .copy => [.text "LD V", .decimal (·.x), .text ", V", .decimal (·.y)]
  | .or => [.text "OR V", .decimal (·.x), .text ", V", .decimal (·.y)]
  | .and => [.text "AND V", .decimal (·.x), .text ", V", .decimal (·.y)]
  | .xor => [.text "XOR V", .decimal (·.x), .text ", V", .decimal (·.y)]
  | .add => [.text "ADD V", .decimal (·.x), .text ", V", .decimal (·.y)]
  | .subtract => [.text "SUB V", .decimal (·.x), .text ", V", .decimal (·.y)]
  | .subtractFrom => [.text "SUBN V", .decimal (·.x), .text ", V", .decimal (·.y)]
  | .shiftRight => [.text "SHR V", .decimal (·.x)]
  | .shiftLeft => [.text "SHL V", .decimal (·.x)]
  | .random => [.text "RND V", .decimal (·.x), .text ", 0x", .hex 2 (·.kk)]
  | .draw => [.text "DRW V", .decimal (·.x), .text ", V", .decimal (·.y), .text ", ", .decimal (·.n)]
  | .skipIfDown => [.text "SKP V", .decimal (·.x)]
  | .skipUnlessDown => [.text "SKNP V", .decimal (·.x)]
  | .waitKey => [.text "LD V", .decimal (·.x), .text ", K"]
  | .readDelay => [.text "LD V", .decimal (·.x), .text ", DT"]
  | .setDelay => [.text "LD DT, V", .decimal (·.x)]
  | .setSound => [.text "LD ST, V", .decimal (·.x)]
  | .setIndex => [.text "LD I, 0x", .hex 3 (·.nnn)]
  | .addIndex => [.text "ADD I, V", .decimal (·.x)]
  | .glyph => [.text "LD F, V", .decimal (·.x)]
  | .storeDigits => [.text "LD B, V", .decimal (·.x)]
  | .storeRegisters => [.text "LD [I], V", .decimal (·.x)]
  | .loadRegisters => [.text "LD V", .decimal (·.x), .text ", [I]"]

def Method.text (i : Operands) (m : Method) : String := String.join (m.template.map (Piece.format i))

/-- The line that a method prints. The program counter already points behind the word. -/
def Method.line {ρ : Type} (s : State ρ) (i : Operands) (m : Method) : String :=
  "mem_addr: 0x" ++ Text.hex 4 ((s.pc - 2).land 0xfff).toNat ++ "    instruction: " ++ m.text i

/-! ### Routines that print -/

variable {ρ α β : Type}

/-- Routines that print lines. The lines stay when a routine breaks off. -/
abbrev Traced (ρ : Type) : Type → Type := EStateM Fault (State ρ × List String)

/-- What a routine came to, and the lines that are printed by then. -/
def withLines (lines : List String) :
    EStateM.Result Fault (State ρ) α → EStateM.Result Fault (State ρ × List String) α
  | .ok a s => .ok a (s, lines)
  | .error fault s => .error fault (s, lines)

/-- A routine that prints nothing. -/
def quiet (x : Routine ρ α) : Traced ρ α := fun (s, lines) => withLines lines (x.run s)

def print (line : State ρ → String) : Traced ρ Unit := modify fun (s, lines) => (s, lines ++ [line s])

variable [RandomSource ρ]

def Method.traced (tracing : Bool) (m : Method) (i : Operands) : Traced ρ Unit := do
  if tracing then print fun s => m.line s i
  quiet (m.handler i)

def Entry.traced (tracing : Bool) : Entry → Operands → Traced ρ Unit
  | .method m, i => m.traced tracing i
  | .forward f, i => do (← quiet (item f.table (f.place i))).traced tracing i

def executeTraced (tracing : Bool) (opcode : Int) : Traced ρ Unit := do
  let i := decode opcode
  (← quiet (item primary i.kind)).traced tracing i

def cycleTraced (tracing : Bool) : Traced ρ Unit := do
  quiet (modify ({ · with drawn := false }))
  let s ← quiet get
  let opcode ← quiet (readWord s.pc)
  quiet skip
  executeTraced tracing opcode
  quiet tick

def performTraced (tracing : Bool) : Operation → Traced ρ Unit
  | .act .cycle => cycleTraced tracing
  | .execute opcode => executeTraced tracing opcode
  | o => quiet (perform o)

/-- The state after some operations, and the lines that are printed by then. Operations that fault leave both to the
next ones. -/
def State.afterTraced (tracing : Bool) (s : State ρ × List String) (operations : List Operation) :
    State ρ × List String :=
  operations.foldl (fun s o =>
    match (performTraced tracing o).run s with
    | .ok _ s' => s'
    | .error _ s' => s') s

/-! ### Printing -/

/-- From a state, a traced routine prints some lines and otherwise does what an untraced one does. -/
def Prints (x : Traced ρ α) (y : Routine ρ α) (s : State ρ) (lines : List String) : Prop :=
  ∀ before, x.run (s, before) = withLines (before ++ lines) (y.run s)

section
omit [RandomSource ρ]
variable {x : Traced ρ α} {y : Routine ρ α} {s s' : State ρ} {a : α} {lines : List String}

theorem quiet_pure (a : α) : quiet (pure a : Routine ρ α) = pure a := rfl

theorem quiet_of_ok (h : y.run s = .ok a s') (lines : List String) : (quiet y).run (s, lines) = .ok a (s', lines) :=
  congrArg (withLines lines) h

theorem quiet_of_error {fault : Fault} (h : y.run s = .error fault s') (lines : List String) :
    (quiet y).run (s, lines) = .error fault (s', lines) :=
  congrArg (withLines lines) h

theorem quiet_bind (y : Routine ρ α) (g : α → Routine ρ β) : quiet (y >>= g) = quiet y >>= fun a => quiet (g a) := by
  funext ⟨s, lines⟩
  show withLines lines ((y >>= g).run s) = (quiet y >>= fun a => quiet (g a)).run (s, lines)
  cases h : y.run s with
  | ok a s' =>
    rw [run_bind_of_ok h, run_bind_of_ok (quiet_of_ok h lines)]
    rfl
  | error fault s' =>
    rw [run_bind_of_error h, run_bind_of_error (quiet_of_error h lines)]
    rfl

theorem Prints.of_quiet (y : Routine ρ α) (s : State ρ) : Prints (quiet y) y s [] := fun before => by
  rw [List.append_nil]
  rfl

theorem Prints.of_yields {f : α → Traced ρ β} {g : α → Routine ρ β} (hy : Yields y s a s')
    (h : Prints (f a) (g a) s' lines) : Prints (quiet y >>= f) (y >>= g) s lines := fun before => by
  rw [run_bind_of_ok (quiet_of_ok hy before), run_bind_of_ok hy]
  exact h before

theorem Prints.bind_quiet (h : Prints x y s lines) (g : α → Routine ρ β) :
    Prints (x >>= fun a => quiet (g a)) (y >>= g) s lines := fun before => by
  have hx := h before
  cases hy : y.run s with
  | ok a s' =>
    rw [hy] at hx
    rw [run_bind_of_ok hx, run_bind_of_ok hy]
    rfl
  | error fault s' =>
    rw [hy] at hx
    rw [run_bind_of_error hx, run_bind_of_error hy]
    rfl

/-- A line comes first. -/
theorem Prints.print (line : State ρ → String) (y : Routine ρ α) (s : State ρ) :
    Prints (Checked.print line >>= fun _ => quiet y) y s [line s] := fun before => by
  rw [run_bind_of_ok (show (Checked.print line).run (s, before) = .ok () (s, before ++ [line s]) from rfl)]
  rfl

end

/-! ### Methods -/

theorem text_method {w : Word} {i : Instruction} (h : i.Encodes w) : i.method.text (.ofWord w) = i.text := by
  rw [← String.toList_inj, Method.text]
  cases i with
  | _ =>
    unfold Instruction.Encodes at h
    simp [h, Instruction.method, Method.template, Piece.format, Operands.ofWord, Instruction.text,
      Instruction.text.register, Instruction.text.constant, Instruction.text.address, Instruction.text.binary,
      String.join]

omit [RandomSource ρ] in
theorem line_method (w : Word) (s : State ρ) :
    (Instruction.ofWord w).method.line s (.ofWord w) = w.line (.ofInt (s.pc - 2)) := by
  rw [Method.line, text_method (Instruction.ofWord_encodes w), land_0xfff]
  rfl

theorem Method.prints (tracing : Bool) (m : Method) (i : Operands) (s : State ρ) :
    Prints (m.traced tracing i) (m.handler i) s (if tracing then [m.line s i] else []) := by
  cases tracing with
  | false => exact .of_quiet _ s
  | true => exact .print (fun s => m.line s i) _ s

/-- The traced machine calls the method that the operands lead to, just once. -/
theorem executeTraced_eq_lookup (tracing : Bool) (opcode : Int) : (executeTraced tracing opcode : Traced ρ Unit) =
    quiet (lookup (decode opcode)) >>= fun m => m.traced tracing (decode opcode) := by
  unfold executeTraced lookup
  rw [quiet_bind, bind_assoc]
  refine bind_congr fun entry => ?_
  cases entry with
  | method m =>
    rw [quiet_pure, pure_bind]
    rfl
  | forward f => rfl

/-- Whatever the state, the execution of an opcode prints the line of its word. -/
theorem executeTraced_prints (tracing : Bool) (opcode : Int) (s : State ρ) :
    Prints (executeTraced tracing opcode) (execute opcode) s
      (if tracing then [(Word.ofInt opcode).line (.ofInt (s.pc - 2))] else []) := by
  rw [executeTraced_eq_lookup, execute_eq_lookup, ← line_method, ← decode_eq]
  exact .of_yields (lookup_decode s opcode) (Method.prints tracing _ _ s)

/-! ### Operations -/

theorem ofInt_toNat_sub_two (a : Address) : Address.ofInt ((a.toNat : Int) - 2) = a - 2 := by
  rw [Address.ofInt, ofInt_sub, ofInt_toNat, BitVec.setWidth_eq]
  rfl

theorem cycleTraced_prints (tracing : Bool) (e : Engine ρ) :
    Prints (cycleTraced tracing) cycle e.checked ((e.nextTrace tracing).map TraceLine.text) := by
  let blank : Machine := { e.machine with drawn := false }
  have hdrawn : { e.checked with drawn := false } = blank.checked e.source := rfl
  have hword : Yields _ (blank.checked e.source) _ _ := readWord_checked blank.pc
  have hskip : Yields _ (blank.checked e.source) _ _ := skip_checked
  have haddress : Address.ofInt ((e.machine.advance.checked e.source).pc - 2) = e.machine.pc :=
    (ofInt_toNat_sub_two (e.machine.pc + 2)).trans (BitVec.add_sub_cancel ..)
  have hlines : (e.nextTrace tracing).map TraceLine.text =
      if tracing then [(Word.ofInt e.machine.fetch.toNat).line (.ofInt ((e.machine.advance.checked e.source).pc - 2))]
      else [] := by
    rw [haddress, Word.ofInt_natCast_toNat]
    cases tracing <;> rfl
  have hexecute := executeTraced_prints tracing e.machine.fetch.toNat (e.machine.advance.checked e.source)
  rw [hlines]
  exact .of_yields (.modify hdrawn) (.of_yields rfl (.of_yields hword (.of_yields hskip (.bind_quiet hexecute _))))

theorem performTraced_prints (tracing : Bool) (o : Operation) (e : Engine ρ) :
    Prints (performTraced tracing o) (perform o) e.checked
      ((e.answer tracing o.request).trace.map TraceLine.text) := by
  cases o with
  | act a =>
    cases a with
    | cycle =>
      rw [Operation.request, Action.request, (Engine.answer_cycles_one tracing e).2.2, Engine.cycle_tracing]
      exact cycleTraced_prints tracing e
    | write | load | setKey => exact .of_quiet (perform _) e.checked
    | releaseAll => exact .of_quiet (perform (.act .releaseAll)) e.checked
  | execute opcode =>
    have haddress : Address.ofInt (e.checked.pc - 2) = e.machine.pc - 2 := ofInt_toNat_sub_two e.machine.pc
    have hlines : (e.answer tracing (.execute opcode)).trace.map TraceLine.text =
        if tracing then [(Word.ofInt opcode).line (.ofInt (e.checked.pc - 2))] else [] := by
      rw [haddress, Engine.answer, Engine.execute_trace]
      cases tracing <;> rfl
    rw [Operation.request, hlines]
    exact executeTraced_prints tracing opcode e.checked

/-- Each operation prints the lines of the engine's reply, also if it faults, and does what the engine does. -/
theorem performTraced_run (tracing : Bool) (o : Operation) (e : Engine ρ) (before : List String) :
    let reply := e.answer tracing o.request
    (performTraced tracing o).run (e.checked, before) =
      withLines (before ++ reply.trace.map TraceLine.text) (result reply.engine reply.fault) := by
  have hfault : (e.answer tracing o.request).fault = (e.answer false o.request).fault := by
    cases tracing with
    | false => rfl
    | true => rw [Engine.answer_false]
  intro reply
  rw [performTraced_prints tracing o e before, perform_run, Engine.answer_engine tracing, hfault]

theorem afterTraced_checked (tracing : Bool) (operations : List Operation) (e : Engine ρ) (before : List String) :
    let requests := operations.map Operation.request
    State.afterTraced tracing (e.checked, before) operations =
      ((e.afterAll tracing requests).checked,
        before ++ (e.answerAll tracing requests).flatMap fun reply => reply.trace.map TraceLine.text) := by
  induction operations generalizing e before with
  | nil => exact congrArg _ (List.append_nil before).symm
  | cons o operations ih =>
    have hstep : State.afterTraced tracing (e.checked, before) [o] =
        ((e.answer tracing o.request).engine.checked,
          before ++ (e.answer tracing o.request).trace.map TraceLine.text) := by
      rw [State.afterTraced, List.foldl_cons, List.foldl_nil, performTraced_run]
      cases (e.answer tracing o.request).fault <;> rfl
    show State.afterTraced tracing (State.afterTraced tracing (e.checked, before) [o]) operations = _
    rw [hstep, ih, List.append_assoc]
    rfl

end Checked
end ChipEight
