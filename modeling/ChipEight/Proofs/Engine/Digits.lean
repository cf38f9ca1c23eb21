import ChipEight.Proofs.Engine.Dump

/-!
# Decimal digits

The three digits of a register are stored at the index, and loading three registers reads them back
(`toNat_loaded_digit`). They add up to what the register held, also if it was loaded over.
-/

namespace ChipEight

namespace Machine
variable {m : Machine} {x r : Nibble} (value : Int)

theorem toNat_digits (b : Byte) :
    (digits b).map BitVec.toNat = [b.toNat / 100, b.toNat / 10 % 10, b.toNat % 10] := by
  simp [digits, BitVec.toNat_udiv, BitVec.toNat_umod]

theorem memory_storeDigits (m : Machine) (value : Int) (x : Nibble) :
    (m.execute value (.storeDigits x)).memory = m.memory.store m.indexAddress (digits m.registers[x]) :=
  m.execute_memory value (.storeDigits x)

theorem toNat_loaded_digit {b d : Nat} (hb : m.registers[x].toNat = b) (hr : r ≤ 2)
    (hd : [b / 100, b / 10 % 10, b % 10][r.toNat]? = some d) :
    ((m.execute value (.storeDigits x)).execute value (.loadRegisters 2)).registers[r].toNat = d := by
  have hbase : (m.execute value (.storeDigits x)).indexAddress = m.indexAddress :=
    congrArg (BitVec.setWidth 12) (m.execute_index value (.storeDigits x))
  have hlength : (digits m.registers[x]).length ≤ 4096 := Nat.le_of_ble_eq_true rfl
  rw [← hb, ← toNat_digits, List.getElem?_map, Option.map_eq_some_iff] at hd
  obtain ⟨c, hc, rfl⟩ := hd
  rw [getElem_load value hr, hbase, memory_storeDigits, Memory.getElem_store_add _ _ _ hlength,
    BitVec.toNat_setWidth_of_le (by decide), hc, Option.getD_some]

end Machine

namespace Engine
variable {ρ : Type} [RandomSource ρ]

/-- The digits of a register are stored and loaded again. Three registers then hold one digit each, which add up to what
the register held, and apart from these registers and three bytes at the index the machine is as before. -/
theorem digits_read_back (e : Engine ρ) (tracing : Bool) {w : Word} (h : w.kind = 0xf ∧ w.kk = 0x33) :
    let stored := e.execute tracing (.ofWord w)
    let loaded := stored.engine.execute tracing (.ofWord 0xf265)
    let m := loaded.engine.machine
    stored.fault = none ∧ loaded.fault = none ∧
      m.registers[(0 : Nibble)].toNat ≤ 9 ∧ m.registers[(1 : Nibble)].toNat ≤ 9 ∧
      m.registers[(2 : Nibble)].toNat ≤ 9 ∧
      100 * m.registers[(0 : Nibble)].toNat + 10 * m.registers[(1 : Nibble)].toNat +
        m.registers[(2 : Nibble)].toNat = e.machine.registers[w.x].toNat ∧
      (∀ r : Nibble, 2 < r → m.registers[r] = e.machine.registers[r]) ∧
      (∀ a : Address, m.memory[a] ≠ e.machine.memory[a] →
        ∃ k : Nat, k ≤ 2 ∧ a.toNat = (e.machine.index.toNat + k) % 4096) ∧
      m = { e.machine with memory := m.memory, registers := m.registers } := by
  have hstore : Instruction.ofWord w = .storeDigits w.x := Instruction.ofWord_eq_iff.2 ⟨h.1, h.2, rfl⟩
  have hload : Instruction.ofWord 0xf265 = .loadRegisters 2 := by decide
  rw [hstore, hload]
  intro stored loaded m
  generalize hb : e.machine.registers[w.x].toNat = b
  have hb' : b < 256 := hb ▸ BitVec.isLt _
  have hundreds : m.registers[(0 : Nibble)].toNat = b / 100 := Machine.toNat_loaded_digit 0 hb (by decide) rfl
  have tens : m.registers[(1 : Nibble)].toNat = b / 10 % 10 := Machine.toNat_loaded_digit 0 hb (by decide) rfl
  have ones : m.registers[(2 : Nibble)].toNat = b % 10 := Machine.toNat_loaded_digit 0 hb (by decide) rfl
  refine ⟨rfl, rfl, by omega, by omega, by omega, by omega, fun r hr => ?_, fun a ha => ?_, rfl⟩
  · exact Machine.getElem_loadRegisters (BitVec.not_le.2 hr)
  · have hloaded : m.memory = stored.engine.machine.memory := stored.engine.machine.execute_memory 0 (.loadRegisters 2)
    rw [hloaded] at ha
    exact Machine.digits_footprint ha

/-- The index is at the last byte of memory, and above the addresses. Register 1 holds 207. -/
def digitsOverTheEnd : Engine Random.Script :=
  ⟨{ Machine.fresh with registers := (Table.replicate 4 0).set 1 207, index := 0xffff }, ⟨[]⟩⟩

theorem digits_read_back_over_the_end :
    (0xf133 : Word).kind = 0xf ∧ (0xf133 : Word).kk = 0x33 ∧
    let stored := (digitsOverTheEnd.execute true (.ofWord 0xf133)).engine
    let m := (stored.execute true (.ofWord 0xf265)).engine.machine
    100 * m.registers[(0 : Nibble)].toNat + 10 * m.registers[(1 : Nibble)].toNat +
        m.registers[(2 : Nibble)].toNat = 207 ∧
      m.registers[(1 : Nibble)].toNat ≤ 9 ∧ ∀ r : Nibble, 2 < r → m.registers[r] = 0 := by
  refine ⟨by decide, by decide, ?_⟩
  intro stored m
  obtain ⟨-, -, -, htens, -, hsum, hothers, -⟩ :=
    digits_read_back digitsOverTheEnd true (w := 0xf133) ⟨by decide, by decide⟩
  refine ⟨hsum.trans (by decide +kernel), htens, fun r hr => (hothers r hr).trans ?_⟩
  have hne : r ≠ 1 := by bv_omega
  exact (Table.getElem_set_ne _ _ hne.symm).trans (Table.getElem_replicate ..)

end Engine
end ChipEight
