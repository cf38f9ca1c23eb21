import ChipEight.Proofs.Engine.Schedule
import Mathlib.Data.List.Induction

/-!
# What cannot be observed

No instruction reads the sound timer, the flag of the last drawing, or the index above its low twelve bits. So two
engines that agree on all else (`Engine.Alike`) still do so after every action, and fail together.
-/

namespace ChipEight

/-- The machines agree on all that an instruction reads. Of the index this is the address. -/
structure Machine.Alike (m m' : Machine) : Prop where
  memory : m'.memory = m.memory
  stack : m'.stack = m.stack
  display : m'.display = m.display
  keypad : m'.keypad = m.keypad
  registers : m'.registers = m.registers
  pc : m'.pc = m.pc
  index : m'.index.toNat % 4096 = m.index.toNat % 4096
  delay : m'.delay = m.delay

namespace Machine.Alike
variable {m m' : Machine}

theorem indexAddress (h : m.Alike m') : m'.indexAddress = m.indexAddress := by
  refine BitVec.eq_of_toNat_eq ?_
  rw [Machine.indexAddress, Machine.indexAddress, BitVec.toNat_setWidth, BitVec.toNat_setWidth]
  exact h.index

theorem fetch (h : m.Alike m') : m'.fetch = m.fetch := by
  rw [Machine.fetch, Machine.fetch, h.memory, h.pc]

/-! ### The parts of instructions -/

theorem setRegister (h : m.Alike m') (x : Nibble) {b b' : Byte} (hb : b' = b) :
    (m.setRegister x b).Alike (m'.setRegister x b') := by
  subst hb
  exact { h with registers := congrArg (·.set x b') h.registers }

theorem setWithFlag (h : m.Alike m') (x : Nibble) {b b' : Byte} {flag flag' : Bool} (hb : b' = b)
    (hflag : flag' = flag) : (m.setWithFlag x b flag).Alike (m'.setWithFlag x b' flag') :=
  (h.setRegister x hb).setRegister flagRegister (by rw [hflag])

theorem jump (h : m.Alike m') {a a' : Address} (ha : a' = a) : Alike { m with pc := a } { m' with pc := a' } :=
  { h with pc := ha }

theorem skipIf (h : m.Alike m') {c c' : Bool} (hc : c' = c) : (m.skipIf c).Alike (m'.skipIf c') := by
  rw [skipIf_eq, skipIf_eq]
  exact h.jump (by rw [hc, h.pc])

theorem drawSprite (h : m.Alike m') (x y rows : Nibble) : (m.drawSprite x y rows).Alike (m'.drawSprite x y rows) := by
  have hdraw : m'.display.draw (m'.registers[x].toNat % 64) (m'.registers[y].toNat % 64)
        (m'.memory.slice m'.indexAddress rows.toNat) =
      m.display.draw (m.registers[x].toNat % 64) (m.registers[y].toNat % 64)
        (m.memory.slice m.indexAddress rows.toNat) := by
    rw [h.display, h.registers, h.memory, h.indexAddress]
  have hflag := congrArg (fun d => if d.2 then (1 : Byte) else 0) hdraw
  exact { h.setRegister flagRegister hflag with display := congrArg Prod.fst hdraw }

theorem waitKey (h : m.Alike m') (x : Nibble) : (m.waitKey x).Alike (m'.waitKey x) := by
  have hkeypad : m'.keypad.first? = m.keypad.first? := by rw [h.keypad]
  cases hkey : m.keypad.first? with
  | some key =>
    rw [waitKey_some hkey, waitKey_some (hkeypad.trans hkey)]
    exact h.setRegister x rfl
  | none =>
    rw [waitKey_none hkey, waitKey_none (hkeypad.trans hkey)]
    exact h.jump (by rw [h.pc])

theorem storeAtIndex (h : m.Alike m') {bytes bytes' : List Byte} (hbytes : bytes' = bytes) :
    (m.storeAtIndex bytes).Alike (m'.storeAtIndex bytes') := by
  refine { h with memory := ?_ }
  show m'.memory.store m'.indexAddress bytes' = m.memory.store m.indexAddress bytes
  rw [h.memory, h.indexAddress, hbytes]

theorem loadRegisters (h : m.Alike m') (last : Nibble) : (m.loadRegisters last).Alike (m'.loadRegisters last) := by
  have hloaded : (m'.loadRegisters last).registers = (m.loadRegisters last).registers := by
    rw [Machine.loadRegisters, Machine.loadRegisters, h.memory, h.indexAddress, h.registers]
  rw [loadRegisters_frame m, loadRegisters_frame m']
  exact { h with registers := hloaded }

theorem execute (h : m.Alike m') (value : Int) (i : Instruction) : (m.execute value i).Alike (m'.execute value i) := by
  have hregister (x : Nibble) : m'.registers[x] = m.registers[x] := by rw [h.registers]
  cases i with
  | clearScreen => exact { h with display := congrArg Framebuffer.clear h.display }
  | ret =>
    have hpop : m'.stack.pop = m.stack.pop := by rw [h.stack]
    exact { h with stack := congrArg Prod.snd hpop, pc := congrArg Prod.fst hpop }
  | jump => exact h.jump rfl
  | call =>
    have hpush : m'.stack.push m'.pc = m.stack.push m.pc := by rw [h.stack, h.pc]
    exact { h with stack := hpush, pc := rfl }
  | jumpPlus => exact h.jump (by rw [hregister])
  | skipIfEqual | skipUnlessEqual => exact h.skipIf (by rw [hregister])
  | skipIfSame | skipUnlessSame => exact h.skipIf (by rw [hregister, hregister])
  | skipIfDown | skipUnlessDown => exact h.skipIf (by rw [hregister, h.keypad])
  | setConstant | random => exact h.setRegister _ rfl
  | addConstant | copy => exact h.setRegister _ (by rw [hregister])
  | or | and | xor => exact h.setRegister _ (by rw [hregister, hregister])
  | readDelay => exact h.setRegister _ h.delay
  | add | subtract | subtractFrom =>
    exact h.setWithFlag _ (by rw [hregister, hregister]) (by rw [hregister, hregister])
  | shiftRight | shiftLeft => exact h.setWithFlag _ (by rw [hregister]) (by rw [hregister])
  | setDelay x => exact { h with delay := hregister x }
  | setSound => exact { h with }
  | setIndex => exact { h with index := rfl }
  | addIndex x =>
    refine { h with index := ?_ }
    -- the sums are taken modulo 65536, which 4096 divides
    have hindex := h.index
    show (m'.index + m'.registers[x].setWidth 16).toNat % 4096 = (m.index + m.registers[x].setWidth 16).toNat % 4096
    rw [hregister, BitVec.toNat_add, BitVec.toNat_add]
    omega
  | glyph x =>
    refine { h with index := ?_ }
    show (m'.registers[x].setWidth 16 * _).toNat % 4096 = (m.registers[x].setWidth 16 * _).toNat % 4096
    rw [hregister]
  | draw x y rows => exact h.drawSprite x y rows
  | waitKey x => exact h.waitKey x
  | storeDigits => exact h.storeAtIndex (by rw [hregister])
  | storeRegisters => exact h.storeAtIndex (by rw [registersUpTo, registersUpTo, h.registers])
  | loadRegisters last => exact h.loadRegisters last
  | unknown => exact h

theorem advance (h : m.Alike m') : m.advance.Alike m'.advance :=
  { h with pc := congrArg (· + 2) h.pc }

theorem tick (h : m.Alike m') : m.tick.Alike m'.tick :=
  { h with delay := congrArg countDown h.delay }

end Machine.Alike

namespace Engine
variable {ρ : Type}

/-- The engines agree on all that a cycle reads, their sources included. -/
structure Alike (e e' : Engine ρ) : Prop where
  machine : e.machine.Alike e'.machine
  source : e'.source = e.source

namespace Alike
variable {e e' : Engine ρ}

theorem next (h : e.Alike e') : e'.next = e.next := congrArg Instruction.ofWord h.machine.fetch

variable [RandomSource ρ]

theorem cycle (h : e.Alike e') (tracing : Bool) :
    (e.cycle tracing).engine.Alike (e'.cycle tracing).engine ∧
      (e'.cycle tracing).fault = (e.cycle tracing).fault := by
  have hvalue' : valueFor e'.source e'.next = valueFor e.source e.next := by rw [h.source, h.next]
  rcases hvalue : valueFor e.source e.next with ⟨r | v, source⟩ <;> rw [hvalue] at hvalue'
  · rw [cycle_of_error hvalue, cycle_of_error hvalue']
    exact ⟨⟨h.machine.advance, rfl⟩, rfl⟩
  · rw [cycle_of_ok hvalue, cycle_of_ok hvalue', h.next]
    exact ⟨⟨(h.machine.advance.execute v e.next).tick, rfl⟩, rfl⟩

theorem cycle_drawn (h : e.Alike e') (tracing : Bool) :
    (e'.cycle tracing).engine.machine.drawn = (e.cycle tracing).engine.machine.drawn := by
  rw [Engine.cycle_drawn, Engine.cycle_drawn, h.next]

/-- An action does the same to both, and fails for both or for none. -/
theorem act (h : e.Alike e') (a : Action) :
    (e.act a).Alike (e'.act a) ∧ (e'.answer false a.request).fault = (e.answer false a.request).fault := by
  have hm := h.machine
  cases a with
  | cycle =>
    obtain ⟨halike, hfault⟩ := h.cycle false
    rw [act_cycle, act_cycle, Action.request, (answer_cycles_one ..).2.1, (answer_cycles_one ..).2.1]
    exact ⟨halike, hfault⟩
  | write address value =>
    refine ⟨⟨{ hm with memory := ?_ }, h.source⟩, rfl⟩
    exact congrArg (Memory.store · (.ofInt address) [.ofInt value]) hm.memory
  | load program => exact ⟨⟨{ hm with memory := congrArg (Memory.load · program) hm.memory }, h.source⟩, rfl⟩
  | setKey key down =>
    exact ⟨⟨{ hm with keypad := congrArg (Keypad.set · (.ofInt key) down) hm.keypad }, h.source⟩, rfl⟩
  | releaseAll => exact ⟨⟨{ hm with keypad := rfl }, h.source⟩, rfl⟩

theorem after (h : e.Alike e') (schedule : List Action) : (e.after schedule).Alike (e'.after schedule) := by
  induction schedule generalizing e e' with
  | nil => exact h
  | cons a rest ih => exact ih (h.act a).1

theorem after_drawn (h : e.Alike e') {schedule : List Action} (hcycle : .cycle ∈ schedule) :
    (e'.after schedule).machine.drawn = (e.after schedule).machine.drawn := by
  -- on the last action, which sets the flag or leaves it as it was
  induction schedule using List.reverseRecOn with
  | nil => cases hcycle
  | append_singleton before a ih =>
    rw [after_append, after_append]
    cases a with
    | cycle =>
      show ((e'.after before).act .cycle).machine.drawn = ((e.after before).act .cycle).machine.drawn
      rw [act_cycle, act_cycle]
      exact (h.after before).cycle_drawn false
    | write | load | setKey | releaseAll => exact ih (by simpa using hcycle)

end Alike

variable [RandomSource ρ]

/-- No schedule tells engines apart that agree on all that is read: they agree on it after every action, once a cycle
was run they agree on the flag of the last drawing as well, and the next action fails for both or for none. -/
theorem alike_after_any_schedule {e e' : Engine ρ} (h : e.Alike e') (schedule : List Action) :
    (e.after schedule).Alike (e'.after schedule) ∧
    (.cycle ∈ schedule → (e'.after schedule).machine.drawn = (e.after schedule).machine.drawn) ∧
    ∀ a : Action, ((e'.after schedule).answer false a.request).fault =
      ((e.after schedule).answer false a.request).fault :=
  ⟨h.after schedule, h.after_drawn, fun a => ((h.after schedule).act a).2⟩

/-- The first word adds 255 to the index, the second one stores a digit there, and the third one needs a random value. -/
def addStoreRoll : Engine Random.Script :=
  ⟨{ Machine.fresh with
      memory := Machine.fresh.memory.store 0x200 [0xf0, 0x1e, 0xf0, 0x33, 0xc0, 0xff]
      registers := .replicate 4 0xff
      index := 0x0fff }, ⟨[]⟩⟩

/-- The same with the highest index, a running sound timer and the flag up. -/
def addStoreRollHigh : Engine Random.Script :=
  addStoreRoll.mapMachine fun m => { m with index := 0xffff, sound := 9, drawn := true }

theorem addStoreRoll_alike : addStoreRoll.Alike addStoreRollHigh :=
  ⟨⟨rfl, rfl, rfl, rfl, rfl, rfl, by decide, rfl⟩, rfl⟩

/-- The next cycle fails in both. -/
theorem alike_after_add_and_store :
    let schedule : List Action := [.cycle, .setKey 3 true, .cycle, .write 0xfff 7]
    addStoreRoll.Alike addStoreRollHigh ∧
    (addStoreRoll.after schedule).Alike (addStoreRollHigh.after schedule) ∧
    (addStoreRollHigh.after schedule).machine.drawn = (addStoreRoll.after schedule).machine.drawn ∧
    ((addStoreRollHigh.after schedule).answer false (.cycles 1)).fault = some .exhausted := by
  obtain ⟨halike, hdrawn, hfault⟩ :=
    alike_after_any_schedule addStoreRoll_alike [.cycle, .setKey 3 true, .cycle, .write 0xfff 7]
  exact ⟨addStoreRoll_alike, halike, hdrawn (by decide), (hfault .cycle).trans (by decide +kernel)⟩

end Engine
end ChipEight
