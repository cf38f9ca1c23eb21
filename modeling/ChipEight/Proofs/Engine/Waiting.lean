import ChipEight.Proofs.Engine.Keys
import Mathlib.Data.List.Induction

/-!
# Waiting for a key

A cycle that waits for a key steps back to its own word if no key is down, so that all it changes is the flag of
drawing and the timers (`Waited.cycle`). Setting keys between such cycles changes the keypad only
(`Waited.withKeypad`). The first cycle that finds a key down takes it and goes on (`cycle_of_key`).
-/

namespace ChipEight.Engine
variable {ρ : Type} {c : Nat} {e e' : Engine ρ}

/-- What a number of cycles that wait for a key leave as it was. The keypad is up to the user. -/
structure Waited (c : Nat) (e e' : Engine ρ) : Prop where
  pc : e'.machine.pc = e.machine.pc
  index : e'.machine.index = e.machine.index
  registers : e'.machine.registers = e.machine.registers
  memory : e'.machine.memory = e.machine.memory
  stack : e'.machine.stack = e.machine.stack
  display : e'.machine.display = e.machine.display
  drawn : e'.machine.drawn = (e.machine.drawn && c == 0)
  delay : e'.machine.delay.toNat = e.machine.delay.toNat - c
  sound : e'.machine.sound.toNat = e.machine.sound.toNat - c
  source : e'.source = e.source

theorem next_of_waiting (h : e.machine.fetch.kind = 0xf ∧ e.machine.fetch.kk = 0x0a) :
    e.next = .waitKey e.machine.fetch.x :=
  Instruction.ofWord_eq_iff.2 ⟨h.1, h.2, rfl⟩

namespace Waited

theorem refl (e : Engine ρ) : Waited 0 e e :=
  ⟨rfl, rfl, rfl, rfl, rfl, rfl, (Bool.and_true _).symm, rfl, rfl, rfl⟩

theorem next (h : Waited c e e') : e'.next = e.next := by
  rw [Engine.next, Engine.next, Machine.fetch, Machine.fetch, h.memory, h.pc]

theorem withKeypad (h : Waited c e e') (p : Keypad) : Waited c e (e'.withKeypad p) := { h with }

/-- Waiting does not tell engines apart that differ in nothing else. -/
theorem eq {e'' : Engine ρ} (h : Waited c e e') (h' : Waited c e e'')
    (hkeypad : e''.machine.keypad = e'.machine.keypad) : e'' = e' := by
  have hdelay : e''.machine.delay = e'.machine.delay := BitVec.eq_of_toNat_eq (h'.delay.trans h.delay.symm)
  have hsound : e''.machine.sound = e'.machine.sound := BitVec.eq_of_toNat_eq (h'.sound.trans h.sound.symm)
  refine Engine.ext (Machine.ext ?_ ?_ ?_ hkeypad ?_ ?_ ?_ hdelay hsound ?_) (h'.source.trans h.source.symm)
  · exact h'.memory.trans h.memory.symm
  · exact h'.stack.trans h.stack.symm
  · exact h'.display.trans h.display.symm
  · exact h'.registers.trans h.registers.symm
  · exact h'.pc.trans h.pc.symm
  · exact h'.index.trans h.index.symm
  · exact h'.drawn.trans h.drawn.symm

end Waited

variable [RandomSource ρ]

theorem cycle_of_no_key {x : Nibble} (hnext : e.next = .waitKey x) (h : e.machine.keypad.first? = none)
    (tracing : Bool) : e.cycle tracing =
      ⟨⟨{ e.machine.tick with drawn := false }, e.source⟩, none, e.nextTrace tracing⟩ := by
  -- the step back undoes the step behind the word also where the addresses wrap
  have hback : e.machine.pc + 2 - 2 = e.machine.pc := BitVec.add_sub_cancel ..
  rw [cycle_of_next hnext nofun, Machine.execute, Machine.waitKey_none (m := e.machine.advance) h]
  show Outcome.mk ⟨{ e.machine.tick with drawn := false, pc := e.machine.pc + 2 - 2 }, e.source⟩ none _ = _
  rw [hback]
  rfl

theorem cycle_of_key {x key : Nibble} (hnext : e.next = .waitKey x) (h : e.machine.keypad.first? = some key)
    (tracing : Bool) : e.cycle tracing =
      ⟨⟨(e.machine.advance.setRegister x (key.setWidth 8)).tick, e.source⟩, none, e.nextTrace tracing⟩ := by
  rw [cycle_of_next hnext nofun, Machine.execute, Machine.waitKey_some (m := e.machine.advance) h]

theorem Waited.cycle {x : Nibble} (h : Waited c e e') (hnext : e.next = .waitKey x)
    (hup : e'.machine.keypad.first? = none) (tracing : Bool) : Waited (c + 1) e (e'.cycle tracing).engine := by
  rw [cycle_of_no_key (h.next.trans hnext) hup]
  refine { h with drawn := (Bool.and_false _).symm, delay := ?_, sound := ?_ }
  · show (Machine.countDown e'.machine.delay).toNat = _
    rw [Machine.toNat_countDown, h.delay, Nat.sub_sub]
  · show (Machine.countDown e'.machine.sound).toNat = _
    rw [Machine.toNat_countDown, h.sound, Nat.sub_sub]

/-- Cycles and settings of keys, with no key down whenever a cycle runs. -/
structure Idle (e : Engine ρ) (schedule : List Action) : Prop where
  actions : ∀ a ∈ schedule, a = .cycle ∨ a.isKey = true
  untouched : ∀ before rest, schedule = before ++ .cycle :: rest →
    ∀ k, (e.after before).machine.keypad.isDown k = false

namespace Idle

theorem of_append {as bs : List Action} (h : e.Idle (as ++ bs)) : e.Idle as where
  actions a ha := h.actions a (List.mem_append_left bs ha)
  untouched before rest hsplit := h.untouched before (rest ++ bs) (by rw [hsplit, List.append_assoc, List.cons_append])

theorem first?_eq_none {before rest : List Action} (h : e.Idle (before ++ .cycle :: rest)) :
    (e.after before).machine.keypad.first? = none :=
  (Keypad.first?_eq_none_iff _).2 (Keypad.isUntouched_iff.2 (h.untouched before rest rfl))

theorem waited {schedule : List Action} {x : Nibble} (h : e.Idle schedule) (hnext : e.next = .waitKey x) :
    Waited (schedule.count .cycle) e (e.after schedule) := by
  -- on the last action, since what is known of the keys is about the engine before it
  induction schedule using List.reverseRecOn with
  | nil => exact .refl e
  | append_singleton before a ih =>
    have hbefore := ih h.of_append
    rw [after_append, List.count_append]
    rcases h.actions a (List.mem_append_right before List.mem_cons_self) with rfl | hkey
    · show Waited _ e ((e.after before).act .cycle)
      rw [act_cycle]
      exact hbefore.cycle hnext h.first?_eq_none false
    · have hne : a ≠ .cycle := by rintro rfl; cases hkey
      show Waited _ e ((e.after before).act a)
      rw [act_isKey hkey, List.count_singleton, if_neg (by simpa using hne)]
      exact hbefore.withKeypad _

end Idle

/-- While no key is down, each cycle on a word that waits for a key leaves the machine where it was, with the flag of
drawing cleared and the timers one further, whatever keys are set between the cycles. A cycle that finds a key down
stores the least one and steps behind the word. -/
theorem waits_for_key {waiting : List Action} (hword : e.machine.fetch.kind = 0xf ∧ e.machine.fetch.kk = 0x0a)
    (hidle : e.Idle waiting) :
    Waited (waiting.count .cycle) e (e.after waiting) ∧
    (∀ before rest, waiting = before ++ .cycle :: rest → ∀ tracing, let out := (e.after before).cycle tracing
      out.fault = none ∧ Waited 1 (e.after before) out.engine ∧
        out.engine.machine.keypad = (e.after before).machine.keypad) ∧
    (∀ waiting', e.Idle waiting' → waiting'.count .cycle = waiting.count .cycle →
      (e.after waiting').machine.keypad = (e.after waiting).machine.keypad → e.after waiting' = e.after waiting) ∧
    ∀ k tracing, (e.after waiting).machine.keypad.isDown k = true →
      let m := (e.after waiting).machine
      let out := (e.after waiting).cycle tracing
      ∃ key : Nibble, m.keypad.isDown key = true ∧ (∀ j, m.keypad.isDown j = true → key ≤ j) ∧
        out.fault = none ∧ out.engine.source = e.source ∧
        out.engine.machine = { m with
          registers := e.machine.registers.set e.machine.fetch.x (BitVec.ofNat 8 key.toNat)
          pc := out.engine.machine.pc
          drawn := false
          delay := out.engine.machine.delay
          sound := out.engine.machine.sound } ∧
        out.engine.machine.pc.toNat = (e.machine.pc.toNat + 2) % 4096 ∧
        out.engine.machine.delay.toNat = m.delay.toNat - 1 ∧ out.engine.machine.sound.toNat = m.sound.toNat - 1 := by
  have hnext := next_of_waiting hword
  have hwaited := hidle.waited hnext
  refine ⟨hwaited, ?_, ?_, ?_⟩
  · intro before rest hsplit tracing out
    subst hsplit
    have hbefore := (hidle.of_append.waited hnext).next.trans hnext
    refine ⟨?_, (Waited.refl _).cycle hbefore hidle.first?_eq_none tracing, cycle_keypad ..⟩
    exact congrArg Outcome.fault (cycle_of_no_key hbefore hidle.first?_eq_none tracing)
  · intro waiting' hidle' hcount hkeypad
    exact hwaited.eq (hcount ▸ hidle'.waited hnext) hkeypad
  · intro k tracing hk m out
    obtain ⟨key, hfirst, hdown, hleast⟩ := Keypad.exists_first? hk
    have hout : out = _ := cycle_of_key (hwaited.next.trans hnext) hfirst tracing
    refine ⟨key, hdown, hleast, ?_⟩
    rw [hout, BitVec.ofNat_toNat, ← hwaited.registers]
    refine ⟨rfl, hwaited.source, rfl, ?_, Machine.toNat_countDown _, Machine.toNat_countDown _⟩
    rw [← hwaited.pc]
    exact BitVec.toNat_add m.pc 2

/-- Waits for a key with a word that straddles the end of memory. -/
def waitAtEnd : Engine Random.Script :=
  ⟨{ Machine.fresh with
      memory := Machine.fresh.memory.store 0xfff [0xf3, 0x0a]
      pc := 0xfff
      delay := 1
      drawn := true }, ⟨[]⟩⟩

/-- Key 9 is let go before the cycles run. Later the keys 11 and 5 are held. -/
def lateKeys : List Action := [.setKey 9 true, .setKey 9 false, .cycle, .cycle, .setKey 27 true, .setKey 5 true]

theorem idle_lateKeys : waitAtEnd.Idle lateKeys where
  actions := by decide
  untouched before rest hsplit k := by
    have hcycle : ∀ n < 6, lateKeys[n]? = some .cycle →
        ∀ k, ((lateKeys.take n).filterMap (Action.sets? k)).getLast?.getD false = false := by decide
    have hlength : before.length < 6 := by
      have hsum : 6 = before.length + (rest.length + 1) := by
        simpa [lateKeys] using congrArg List.length hsplit
      omega
    have hplace : lateKeys[before.length]? = some .cycle := by rw [hsplit]; simp
    have htake : lateKeys.take before.length = before := by rw [hsplit]; simp
    have hreleased : waitAtEnd.machine.keypad.isDown k = false := Keypad.isDown_released k
    rw [isDown_after, ← htake, hreleased]
    exact hcycle before.length hlength hplace k

theorem waits_for_key_at_end :
    waitAtEnd.machine.fetch.kind = 0xf ∧ waitAtEnd.machine.fetch.kk = 0x0a ∧
    (waitAtEnd.after lateKeys).machine.pc = 0xfff ∧ (waitAtEnd.after lateKeys).machine.drawn = false ∧
    (waitAtEnd.after lateKeys).machine.delay.toNat = 0 ∧
    ((waitAtEnd.after lateKeys).cycle true).engine.machine.registers[waitAtEnd.machine.fetch.x] = 5 ∧
    ((waitAtEnd.after lateKeys).cycle true).engine.machine.pc.toNat = 1 := by
  have hword : waitAtEnd.machine.fetch.kind = 0xf ∧ waitAtEnd.machine.fetch.kk = 0x0a := by decide +kernel
  have hkeypad (k : Nibble) : (waitAtEnd.after lateKeys).machine.keypad.isDown k = decide (k = 5 ∨ k = 11) := by
    rw [isDown_after]
    revert k
    decide
  obtain ⟨hwaited, -, -, hkey⟩ := waits_for_key hword idle_lateKeys
  obtain ⟨key, hdown, hle, -, -, hmachine, hpc, -⟩ := hkey 5 true (hkeypad 5)
  obtain rfl : key = 5 := by
    have hle5 := hle 5 (hkeypad 5)
    rw [hkeypad, decide_eq_true_iff] at hdown
    rcases hdown with rfl | rfl
    · rfl
    · exact absurd hle5 (by decide)
  refine ⟨hword.1, hword.2, hwaited.pc, hwaited.drawn, hwaited.delay, ?_, hpc⟩
  rw [hmachine]
  exact Table.getElem_set_self ..

end ChipEight.Engine
