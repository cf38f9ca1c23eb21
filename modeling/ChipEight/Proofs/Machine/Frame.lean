import ChipEight.Machine.Execute

/-!
# What an instruction leaves alone

For each part of the machine, its content after an instruction (`execute_frame`). Only the instructions named on the
right-hand side touch the part: calls and returns the stack, `clearScreen` and `draw` the display and its
flag, one instruction each timer, and no instruction touches the keypad. Of the registers and the program counter it
is said which instructions may change them (`Instruction.Writes`, `Instruction.redirects`).
-/

namespace ChipEight

/-- Whether an instruction changes the display. -/
def Instruction.draws : Instruction → Bool
  | .clearScreen => true
  | .draw _ _ _ => true
  | _ => false

/-- Whether an instruction may leave the program counter elsewhere than behind itself. -/
def Instruction.redirects : Instruction → Bool
  | .ret | .jump _ | .call _ | .jumpPlus _ => true
  | .skipIfEqual _ _ | .skipUnlessEqual _ _ | .skipIfSame _ _ | .skipUnlessSame _ _ => true
  | .skipIfDown _ | .skipUnlessDown _ | .waitKey _ => true
  | _ => false

/-- Whether an instruction may write the register `r`, if the keys are as `p` has them. -/
def Instruction.Writes (p : Keypad) (r : Nibble) : Instruction → Prop
  | .setConstant x _ | .addConstant x _ | .random x _ | .readDelay x => r = x
  | .copy x _ | .or x _ | .and x _ | .xor x _ => r = x
  | .add x _ | .subtract x _ | .subtractFrom x _ | .shiftRight x | .shiftLeft x => r = x ∨ r = flagRegister
  | .draw _ _ _ => r = flagRegister
  | .waitKey x => r = x ∧ ∃ k, p.isDown k = true
  | .loadRegisters last => r ≤ last
  | _ => False

attribute [ext] Machine

namespace Machine

theorem skipIf_eq (m : Machine) (c : Bool) : m.skipIf c = { m with pc := if c then m.pc + 2 else m.pc } := by
  cases c <;> rfl

theorem waitKey_some {m : Machine} {k : Nibble} (h : m.keypad.first? = some k) (x : Nibble) :
    m.waitKey x = m.setRegister x (k.setWidth 8) := by
  simp only [waitKey, h]

theorem waitKey_none {m : Machine} (h : m.keypad.first? = none) (x : Nibble) :
    m.waitKey x = { m with pc := m.pc - 2 } := by
  simp only [waitKey, h]

/-- Waiting for a key touches the registers and the program counter only. -/
theorem waitKey_frame (m : Machine) (x : Nibble) :
    m.waitKey x = { m with registers := (m.waitKey x).registers, pc := (m.waitKey x).pc } := by
  cases h : m.keypad.first? with
  | none => rw [waitKey_none h]
  | some k => rw [waitKey_some h]; rfl

theorem loadRegisters_frame (m : Machine) (last : Nibble) :
    m.loadRegisters last = { m with registers := (m.loadRegisters last).registers } := rfl

theorem toNat_countDown (timer : Byte) : (countDown timer).toNat = timer.toNat - 1 := by
  unfold countDown
  split
  next h => rw [h]; rfl
  next h =>
    have hpos : timer.toNat ≠ 0 := fun hzero => h (BitVec.eq_of_toNat_eq hzero)
    have hlt := timer.isLt
    rw [BitVec.toNat_sub]
    show (2 ^ 8 - 1 + timer.toNat) % 2 ^ 8 = _
    omega

variable (m : Machine) (value : Int)

/-- What an instruction does to all but the registers and the program counter. -/
theorem execute_frame (i : Instruction) : m.execute value i = { m with
    registers := (m.execute value i).registers
    pc := (m.execute value i).pc
    stack := match i with
      | .call _ => m.stack.push m.pc
      | .ret => m.stack.pop.2
      | _ => m.stack
    display := match i with
      | .clearScreen => m.display.clear
      | .draw x y rows => (m.drawSprite x y rows).display
      | _ => m.display
    drawn := i.draws || m.drawn
    memory := match i with
      | .storeDigits x => m.memory.store m.indexAddress (digits m.registers[x])
      | .storeRegisters last => m.memory.store m.indexAddress (m.registersUpTo last)
      | _ => m.memory
    index := match i with
      | .setIndex a => a.setWidth 16
      | .addIndex x => m.index + m.registers[x].setWidth 16
      | .glyph x => m.registers[x].setWidth 16 * BitVec.ofNat 16 glyphSize
      | _ => m.index
    delay := match i with
      | .setDelay x => m.registers[x]
      | _ => m.delay
    sound := match i with
      | .setSound x => m.registers[x]
      | _ => m.sound } := by
  cases i with
  | skipIfEqual | skipUnlessEqual | skipIfSame | skipUnlessSame | skipIfDown | skipUnlessDown =>
    rw [execute, skipIf_eq]; rfl
  | waitKey => rw [execute, waitKey_frame]; rfl
  | loadRegisters => rw [execute, loadRegisters_frame]; rfl
  | _ => rfl

/-! Each part is read off it. -/

@[simp] theorem execute_keypad (i : Instruction) : (m.execute value i).keypad = m.keypad := by
  rw [execute_frame]

theorem execute_stack (i : Instruction) : (m.execute value i).stack = match i with
    | .call _ => m.stack.push m.pc
    | .ret => m.stack.pop.2
    | _ => m.stack :=
  congrArg stack (m.execute_frame value i)

theorem execute_display (i : Instruction) : (m.execute value i).display = match i with
    | .clearScreen => m.display.clear
    | .draw x y rows => (m.drawSprite x y rows).display
    | _ => m.display :=
  congrArg display (m.execute_frame value i)

theorem execute_drawn (i : Instruction) : (m.execute value i).drawn = (i.draws || m.drawn) :=
  congrArg drawn (m.execute_frame value i)

theorem execute_display_of_not_draws {i : Instruction} (h : i.draws = false) :
    (m.execute value i).display = m.display := by
  rw [execute_display]
  cases i with
  | clearScreen | draw => cases h
  | _ => rfl

theorem execute_memory (i : Instruction) : (m.execute value i).memory = match i with
    | .storeDigits x => m.memory.store m.indexAddress (digits m.registers[x])
    | .storeRegisters last => m.memory.store m.indexAddress (m.registersUpTo last)
    | _ => m.memory :=
  congrArg memory (m.execute_frame value i)

theorem execute_index (i : Instruction) : (m.execute value i).index = match i with
    | .setIndex a => a.setWidth 16
    | .addIndex x => m.index + m.registers[x].setWidth 16
    | .glyph x => m.registers[x].setWidth 16 * BitVec.ofNat 16 glyphSize
    | _ => m.index :=
  congrArg index (m.execute_frame value i)

theorem execute_delay (i : Instruction) : (m.execute value i).delay = match i with
    | .setDelay x => m.registers[x]
    | _ => m.delay :=
  congrArg delay (m.execute_frame value i)

theorem execute_sound (i : Instruction) : (m.execute value i).sound = match i with
    | .setSound x => m.registers[x]
    | _ => m.sound :=
  congrArg sound (m.execute_frame value i)

theorem execute_pc_of_not_redirects {i : Instruction} (h : i.redirects = false) :
    (m.execute value i).pc = m.pc := by
  cases i with
  | ret | jump | call | jumpPlus | waitKey => cases h
  | skipIfEqual | skipUnlessEqual | skipIfSame | skipUnlessSame | skipIfDown | skipUnlessDown => cases h
  | loadRegisters => rw [execute, loadRegisters_frame]
  | _ => rfl

section
variable {m} {r x : Nibble}

theorem getElem_setRegister (b : Byte) (h : r ≠ x) : (m.setRegister x b).registers[r] = m.registers[r] :=
  Table.getElem_set_ne _ _ h.symm

theorem getElem_setWithFlag (b : Byte) (flag : Bool) (h : ¬(r = x ∨ r = flagRegister)) :
    (m.setWithFlag x b flag).registers[r] = m.registers[r] := by
  obtain ⟨hx, hflag⟩ := not_or.1 h
  exact (getElem_setRegister _ hflag).trans (getElem_setRegister _ hx)

theorem getElem_setWithFlag_self (b : Byte) (flag : Bool) (h : x ≠ flagRegister) :
    (m.setWithFlag x b flag).registers[x] = b :=
  (getElem_setRegister _ h).trans (Table.getElem_set_self ..)

theorem toNat_flag_setWithFlag (m : Machine) (x : Nibble) (b : Byte) (flag : Bool) :
    (m.setWithFlag x b flag).registers[flagRegister].toNat = flag.toNat := by
  have hflag : (m.setWithFlag x b flag).registers[flagRegister] = if flag then 1 else 0 :=
    Table.getElem_set_self ..
  rw [hflag]
  cases flag <;> rfl

theorem getElem_waitKey (h : ¬(r = x ∧ ∃ k, m.keypad.isDown k = true)) :
    (m.waitKey x).registers[r] = m.registers[r] := by
  cases hk : m.keypad.first? with
  | none => rw [waitKey_none hk]
  | some k =>
    rw [waitKey_some hk]
    exact getElem_setRegister _ fun hr => h ⟨hr, k, List.find?_some hk⟩

theorem getElem_loadRegisters {last : Nibble} (h : ¬r ≤ last) :
    (m.loadRegisters last).registers[r] = m.registers[r] := by
  rw [loadRegisters, Table.getElem_ofFn, if_neg h]

end

variable {m} in
theorem execute_registers_of_not_writes {i : Instruction} {r : Nibble} (h : ¬i.Writes m.keypad r) :
    (m.execute value i).registers[r] = m.registers[r] := by
  cases i with
  | setConstant | addConstant | random | readDelay | copy | or | and | xor | draw =>
    exact getElem_setRegister _ h
  | add | subtract | subtractFrom | shiftRight | shiftLeft => exact getElem_setWithFlag _ _ h
  | waitKey => exact getElem_waitKey h
  | loadRegisters => exact getElem_loadRegisters h
  | skipIfEqual | skipUnlessEqual | skipIfSame | skipUnlessSame | skipIfDown | skipUnlessDown =>
    rw [execute, skipIf_eq]
  | _ => rfl

end Machine
end ChipEight
