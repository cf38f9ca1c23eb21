import ChipEight.Proofs.Engine.Cycle
import ChipEight.Proofs.Machine.Index

/-!
# Dumping and loading registers

A dump puts register `r` at offset `r` from the index, and a load takes it from there. Sixteen offsets do not meet on
the ring of addresses, so that a load gives back what a dump stored (`getElem_dump`), and a dump stores what a load
found (`registersUpTo_load`).
-/

namespace ChipEight

/-- Storing what is there already changes nothing. -/
theorem Memory.store_slice (m : Memory) (a : Address) (n : Nat) : m.store a (m.slice a n) = m := by
  induction n generalizing a with
  | zero => rfl
  | succ n ih => rw [slice, store, Table.set_getElem_self, ih]

namespace Machine
variable {m : Machine} {r last : Nibble} (value : Int)

theorem getElem?_registersUpTo (h : r ≤ last) : (m.registersUpTo last)[r.toNat]? = some m.registers[r] := by
  rw [registersUpTo, List.getElem?_take_of_lt (Nat.lt_succ_of_le h), Table.getElem?_toList]

/-! ### The dump -/

theorem memory_dump (m : Machine) (value : Int) (last : Nibble) :
    (m.execute value (.storeRegisters last)).memory = m.memory.store m.indexAddress (m.registersUpTo last) :=
  m.execute_memory value (.storeRegisters last)

theorem getElem_dump (h : r ≤ last) :
    (m.execute value (.storeRegisters last)).memory[m.indexAddress + r.setWidth 12] = m.registers[r] := by
  rw [memory_dump, Memory.getElem_store_add _ _ _ (length_registersUpTo_le m last),
    BitVec.toNat_setWidth_of_le (by decide), getElem?_registersUpTo h, Option.getD_some]

/-! ### The load -/

theorem getElem_load (h : r ≤ last) :
    (m.execute value (.loadRegisters last)).registers[r] = m.memory[m.indexAddress + r.setWidth 12] := by
  rw [execute, loadRegisters, Table.getElem_ofFn, if_pos h]

theorem registersUpTo_load {dumped : Nibble} (h : dumped ≤ last) :
    (m.execute value (.loadRegisters last)).registersUpTo dumped =
      m.memory.slice m.indexAddress (dumped.toNat + 1) := by
  refine List.ext_getElem? fun k => ?_
  by_cases hk : k < dumped.toNat + 1
  · have hr : (BitVec.ofNat 4 k).toNat = k := Nat.mod_eq_of_lt (Nat.lt_of_lt_of_le hk dumped.isLt)
    have hle : BitVec.ofNat 4 k ≤ dumped := BitVec.le_def.2 (hr.symm ▸ Nat.le_of_lt_succ hk)
    have hget := getElem?_registersUpTo (m := m.execute value (.loadRegisters last)) hle
    rw [hr, getElem_load value (BitVec.le_trans hle h)] at hget
    rw [hget, Memory.getElem?_slice _ _ hk, BitVec.setWidth_ofNat_of_le_of_lt (by decide) (hr ▸ BitVec.isLt _)]
  · rw [List.getElem?_eq_none (by rw [length_registersUpTo]; omega),
      List.getElem?_eq_none (by rw [Memory.length_slice]; omega)]

/-! ### Both -/

theorem getElem_load_of_dump {changed : Machine} {dumped : Nibble}
    (hmemory : changed.memory = (m.execute value (.storeRegisters dumped)).memory) (hindex : changed.index = m.index)
    (hle : last ≤ dumped) (h : r ≤ last) :
    (changed.execute value (.loadRegisters last)).registers[r] = m.registers[r] := by
  have hbase : changed.indexAddress = m.indexAddress := congrArg (BitVec.setWidth 12) hindex
  rw [getElem_load value h, hmemory, hbase, getElem_dump value (BitVec.le_trans h hle)]

theorem memory_dump_of_load {dumped : Nibble} (h : dumped ≤ last) :
    ((m.execute value (.loadRegisters last)).execute value (.storeRegisters dumped)).memory = m.memory := by
  have hmemory : (m.execute value (.loadRegisters last)).memory = m.memory := m.execute_memory value _
  have hbase : (m.execute value (.loadRegisters last)).indexAddress = m.indexAddress :=
    congrArg (BitVec.setWidth 12) (m.execute_index value (.loadRegisters last))
  rw [memory_dump, registersUpTo_load value h, hmemory, hbase, Memory.store_slice]

end Machine

namespace Engine
variable {ρ : Type} [RandomSource ρ]

/-- Registers that are dumped and loaded again are as before, whatever was made of the machine in between, if only
memory and index stayed. Registers that are loaded and dumped again leave memory as it was. -/
theorem dump_and_load_inverse (e : Engine ρ) (tracing : Bool) {dump load : Word}
    (hdump : dump.kind = 0xf ∧ dump.kk = 0x55) (hload : load.kind = 0xf ∧ load.kk = 0x65) :
    (load.x ≤ dump.x → ∀ changed : Engine ρ,
      let dumped := e.execute tracing (.ofWord dump)
      let loaded := changed.execute tracing (.ofWord load)
      let m := loaded.engine.machine
      changed.machine.memory = dumped.engine.machine.memory →
      changed.machine.index = dumped.engine.machine.index →
        dumped.fault = none ∧ loaded.fault = none ∧
        (∀ r : Nibble, r ≤ load.x → m.registers[r] = e.machine.registers[r]) ∧
        (∀ r : Nibble, ¬r ≤ load.x → m.registers[r] = changed.machine.registers[r]) ∧
        dumped.engine.machine.index = e.machine.index ∧ m.index = e.machine.index ∧
        ∀ a : Address, m.memory[a] ≠ e.machine.memory[a] →
          ∃ k : Nat, k ≤ dump.x.toNat ∧ a.toNat = (e.machine.index.toNat + k) % 4096) ∧
    (dump.x ≤ load.x →
      let loaded := e.execute tracing (.ofWord load)
      let dumped := loaded.engine.execute tracing (.ofWord dump)
      loaded.fault = none ∧ dumped.fault = none ∧ dumped.engine.machine.memory = e.machine.memory) := by
  have hstore : Instruction.ofWord dump = .storeRegisters dump.x :=
    Instruction.ofWord_eq_iff.2 ⟨hdump.1, hdump.2, rfl⟩
  have hrestore : Instruction.ofWord load = .loadRegisters load.x :=
    Instruction.ofWord_eq_iff.2 ⟨hload.1, hload.2, rfl⟩
  rw [hstore, hrestore]
  constructor
  · intro hle changed dumped loaded m hmemory hindex
    have hdumped : dumped.engine.machine.index = e.machine.index := e.machine.execute_index 0 (.storeRegisters dump.x)
    refine ⟨rfl, rfl, fun r hr => ?_, fun r hr => ?_, hdumped, ?_, fun a ha => ?_⟩
    · exact Machine.getElem_load_of_dump 0 hmemory (hindex.trans hdumped) hle hr
    · exact Machine.getElem_loadRegisters hr
    · exact (changed.machine.execute_index 0 (.loadRegisters load.x)).trans (hindex.trans hdumped)
    · have hloaded : m.memory = changed.machine.memory := changed.machine.execute_memory 0 (.loadRegisters load.x)
      rw [hloaded, hmemory] at ha
      exact Machine.registers_footprint ha
  · intro hle loaded dumped
    exact ⟨rfl, rfl, Machine.memory_dump_of_load 0 hle⟩

/-- The index is two bytes before the end of memory, and above the addresses. -/
def indexNearEnd : Engine Random.Script :=
  ⟨{ Machine.fresh with registers := .ofFn fun r => r.setWidth 8 + 100, index := 0x1ffe }, ⟨[]⟩⟩

/-- Clears all registers and goes on elsewhere. -/
def clearRegisters (e : Engine Random.Script) : Engine Random.Script :=
  e.mapMachine fun m => { m with registers := .replicate 4 0, pc := 0x300 }

theorem dump_and_load_inverse_over_the_end :
    let dumped := (indexNearEnd.execute true (.ofWord 0xf555)).engine
    let loaded := ((clearRegisters dumped).execute true (.ofWord 0xf365)).engine
    loaded.machine.registers[(3 : Nibble)] = 103 ∧ loaded.machine.registers[(4 : Nibble)] = 0 ∧
      loaded.machine.index = 0x1ffe ∧
      ((indexNearEnd.execute true (.ofWord 0xf565)).engine.execute true (.ofWord 0xf555)).engine.machine.memory =
        indexNearEnd.machine.memory := by
  intro dumped loaded
  have hdump : (0xf555 : Word).kind = 0xf ∧ (0xf555 : Word).kk = 0x55 := by decide
  have hload : (0xf365 : Word).kind = 0xf ∧ (0xf365 : Word).kk = 0x65 := by decide
  have hload' : (0xf565 : Word).kind = 0xf ∧ (0xf565 : Word).kk = 0x65 := by decide
  have hback := (dump_and_load_inverse indexNearEnd true hdump hload).1 (by decide) (clearRegisters dumped) rfl rfl
  obtain ⟨-, -, hrestored, hothers, -, hindex, -⟩ := hback
  obtain ⟨-, -, hmemory⟩ := (dump_and_load_inverse indexNearEnd true hdump hload').2 (by decide)
  refine ⟨(hrestored 3 (by decide)).trans ?_, (hothers 4 (by decide)).trans ?_, hindex, hmemory⟩
  · decide +kernel
  · exact Table.getElem_replicate ..

end Engine
end ChipEight
