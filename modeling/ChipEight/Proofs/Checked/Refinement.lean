import ChipEight.Proofs.Checked.Handlers
import ChipEight.Proofs.Checked.Lookup

/-!
# The checked machine does what the engine does

The method that a word leads to does what its instruction does (`Handler.method_does`), so each operation from the state
that stands for an engine comes to the state that stands for the engine's reply, with the same fault (`perform_run`).
-/

namespace ChipEight

def Engine.checked {ρ : Type} (e : Engine ρ) : Checked.State ρ := e.machine.checked e.source

namespace Checked
variable {ρ : Type}

/-- What an operation comes to that leaves an engine. -/
def result (e : Engine ρ) : Option RandomError → EStateM.Result Fault (State ρ) Unit
  | none => .ok () e.checked
  | some r => .error (.random r) e.checked

variable [RandomSource ρ]

namespace Handler

/-! ### Methods -/

/-- Each method but `random` does what the instruction does that it handles. -/
theorem method_does {w : Word} : ∀ {i : Instruction}, i.Encodes w → w.kind ≠ 0xc →
    Does (i.method.handler : Handler ρ) w i
  | .clearScreen, _, _ => clearScreen_does w
  | .ret, _, _ => ret_does w
  | .jump _, ⟨_, rfl⟩, _ => jump_does w
  | .call _, ⟨_, rfl⟩, _ => call_does w
  | .setIndex _, ⟨_, rfl⟩, _ => setIndex_does w
  | .jumpPlus _, ⟨_, rfl⟩, _ => jumpPlus_does w
  | .skipIfEqual _ _, ⟨_, rfl, rfl⟩, _ => skipIfEqual_does w
  | .skipUnlessEqual _ _, ⟨_, rfl, rfl⟩, _ => skipUnlessEqual_does w
  | .skipIfSame _ _, ⟨_, rfl, rfl⟩, _ => skipIfSame_does w
  | .skipUnlessSame _ _, ⟨_, rfl, rfl⟩, _ => skipUnlessSame_does w
  | .setConstant _ _, ⟨_, rfl, rfl⟩, _ => setConstant_does w
  | .addConstant _ _, ⟨_, rfl, rfl⟩, _ => addConstant_does w
  | .copy _ _, ⟨_, _, rfl, rfl⟩, _ => copy_does w
  | .or _ _, ⟨_, _, rfl, rfl⟩, _ => or_does w
  | .and _ _, ⟨_, _, rfl, rfl⟩, _ => and_does w
  | .xor _ _, ⟨_, _, rfl, rfl⟩, _ => xor_does w
  | .add _ _, ⟨_, _, rfl, rfl⟩, _ => add_does w
  | .subtract _ _, ⟨_, _, rfl, rfl⟩, _ => subtract_does w
  | .subtractFrom _ _, ⟨_, _, rfl, rfl⟩, _ => subtractFrom_does w
  | .shiftRight _, ⟨_, _, rfl⟩, _ => shiftRight_does w
  | .shiftLeft _, ⟨_, _, rfl⟩, _ => shiftLeft_does w
  | .random _ _, ⟨hkind, _⟩, hne => absurd hkind hne
  | .draw _ _ _, ⟨_, rfl, rfl, rfl⟩, _ => draw_does w
  | .skipIfDown _, ⟨_, _, rfl⟩, _ => skipIfDown_does w
  | .skipUnlessDown _, ⟨_, _, rfl⟩, _ => skipUnlessDown_does w
  | .readDelay _, ⟨_, _, rfl⟩, _ => readDelay_does w
  | .waitKey _, ⟨_, _, rfl⟩, _ => waitKey_does w
  | .setDelay _, ⟨_, _, rfl⟩, _ => setDelay_does w
  | .setSound _, ⟨_, _, rfl⟩, _ => setSound_does w
  | .addIndex _, ⟨_, _, rfl⟩, _ => addIndex_does w
  | .glyph _, ⟨_, _, rfl⟩, _ => glyph_does w
  | .storeDigits _, ⟨_, _, rfl⟩, _ => storeDigits_does w
  | .storeRegisters _, ⟨_, _, rfl⟩, _ => storeRegisters_does w
  | .loadRegisters _, ⟨_, _, rfl⟩, _ => loadRegisters_does w
  | .unknown _, ⟨_, rfl⟩, _ => unknown_does _

theorem nextValue_yields {m : Machine} {source source' : ρ} {value : Int}
    (hd : RandomSource.draw source = (.ok value, source')) :
    Yields nextValue (m.checked source) value (m.checked source') := by
  have hd' : RandomSource.draw (m.checked source).source = (.ok value, source') := hd
  refine .get ?_
  simp only [hd']
  exact (Yields.modify rfl).bind (.pure _ _)

theorem nextValue_fails {m : Machine} {source source' : ρ} {r : RandomError}
    (hd : RandomSource.draw source = (.error r, source')) :
    Fails nextValue (m.checked source) (.random r) (m.checked source') := by
  have hd' : RandomSource.draw (m.checked source).source = (.error r, source') := hd
  refine .get ?_
  simp only [hd']
  exact (Yields.modify rfl).bind_fails rfl

end Handler

/-! ### Operations -/

variable {opcode : Int} {m : Machine} {source source' : ρ}

/-- A word of kind 12 takes a value, and no other does. -/
theorem execute_of_ok {value : Int} (h : Engine.valueFor source (.ofWord (.ofInt opcode)) = (.ok value, source')) :
    Yields (execute opcode) (m.checked source) () ((m.execute value (.ofWord (.ofInt opcode))).checked source') := by
  unfold Yields
  rw [execute_run_method, decode_eq]
  by_cases hkind : (Word.ofInt opcode).kind = 0xc
  · rw [Instruction.ofWord_eq_random hkind] at h ⊢
    exact (Handler.nextValue_yields h).bind (setRegister_checked _ (land_word value _))
  · obtain ⟨-, rfl⟩ := Prod.mk.inj ((Engine.valueFor_of_kind hkind source).symm.trans h)
    exact Handler.method_does (Instruction.ofWord_encodes _) hkind m source value

theorem execute_of_error {r : RandomError} (h : Engine.valueFor source (.ofWord (.ofInt opcode)) = (.error r, source')) :
    Fails (execute opcode) (m.checked source) (.random r) (m.checked source') := by
  obtain ⟨⟨x, k, hrandom⟩, hdraw⟩ := Engine.valueFor_error h
  unfold Fails
  rw [execute_run_method, decode_eq, hrandom]
  exact (Handler.nextValue_fails hdraw).bind _

theorem execute_run (opcode : Int) (e : Engine ρ) :
    let out := e.execute false (.ofWord (.ofInt opcode))
    (execute opcode).run e.checked = result out.engine out.fault := by
  unfold Engine.execute
  rcases h : Engine.valueFor e.source (.ofWord (.ofInt opcode)) with ⟨r | value, source⟩
  · exact execute_of_error h
  · exact execute_of_ok h

theorem countDown_toNat (timer : Byte) :
    (if (timer.toNat : Int) > 0 then (timer.toNat : Int) - 1 else timer.toNat) = (Machine.countDown timer).toNat := by
  rw [Machine.toNat_countDown]
  split <;> omega

omit [RandomSource ρ] in
theorem tick_checked (m : Machine) (source : ρ) : Yields tick (m.checked source) () (m.tick.checked source) := by
  refine .modify ?_
  show { m.checked source with
      delay := if (m.delay.toNat : Int) > 0 then (m.delay.toNat : Int) - 1 else m.delay.toNat
      sound := if (m.sound.toNat : Int) > 0 then (m.sound.toNat : Int) - 1 else m.sound.toNat } = _
  rw [countDown_toNat, countDown_toNat]
  rfl

theorem cycle_run (e : Engine ρ) :
    let out := e.cycle false
    cycle.run e.checked = result out.engine out.fault := by
  let blank : Machine := { e.machine with drawn := false }
  have hdrawn : { e.checked with drawn := false } = blank.checked e.source := rfl
  have hword : Yields _ (blank.checked e.source) _ _ := readWord_checked blank.pc
  have hskip : Yields _ (blank.checked e.source) _ _ := skip_checked
  have hnext : Instruction.ofWord (.ofInt e.machine.fetch.toNat) = e.next := by
    rw [Word.ofInt_natCast_toNat]
    rfl
  rcases h : Engine.valueFor e.source e.next with ⟨r | value, source⟩
  · rw [Engine.cycle_of_error h]
    rw [← hnext] at h
    exact (Yields.modify hdrawn).bind_fails (hword.bind_fails (hskip.bind_fails ((execute_of_error h).bind _)))
  · rw [Engine.cycle_of_ok h]
    rw [← hnext] at h ⊢
    exact (Yields.modify hdrawn).bind (.get (hword.bind (hskip.bind ((execute_of_ok h).bind (tick_checked _ _)))))

/-- Each operation does what the engine does. -/
theorem perform_run (o : Operation) (e : Engine ρ) :
    let reply := e.answer false o.request
    (perform o).run e.checked = result reply.engine reply.fault := by
  cases o with
  | act a =>
    cases a with
    | cycle =>
      obtain ⟨hengine, hfault, -⟩ := Engine.answer_cycles_one false e
      exact (cycle_run e).trans (congrArg₂ result hengine.symm hfault.symm)
    | write address value => exact writeByte_checked address value
    | load program => exact writeBytes_checked program 0x200
    | setKey k down => exact setKey_checked k down
    | releaseAll => rfl
  | execute opcode => exact execute_run opcode e

theorem after_checked (operations : List Operation) (e : Engine ρ) :
    e.checked.after operations = (e.afterAll false (operations.map Operation.request)).checked := by
  induction operations generalizing e with
  | nil => rfl
  | cons o operations ih =>
    have hstep : e.checked.after [o] = (e.answer false o.request).engine.checked := by
      rw [State.after, List.foldl_cons, List.foldl_nil, perform_run]
      cases (e.answer false o.request).fault <;> rfl
    show (e.checked.after [o]).after operations = _
    rw [hstep, ih]
    rfl

end Checked
end ChipEight
