import ChipEight.Machine.Execute

/-!
# The bytes at the index

The index has four bits more than an address, so the byte `d` behind it is found modulo 4096 (`ofInt_index_add`,
`toNat_eq_index_add`). What is stored there is found by its offset (`getElem_store_add`) and changes as many bytes as it
has (`store_footprint`), three for digits and one for each register.
-/

namespace ChipEight

theorem Memory.getElem_store_add (m : Memory) (a d : Address) {bytes : List Byte} (hlength : bytes.length ≤ 4096) :
    (m.store a bytes)[a + d] = bytes[d.toNat]?.getD m[a + d] := by
  rw [getElem_store _ _ _ _ hlength, BitVec.add_comm, BitVec.add_sub_cancel]

theorem Memory.offset_lt_of_store_ne {m : Memory} {a b : Address} {bytes : List Byte} (hlength : bytes.length ≤ 4096)
    (h : (m.store a bytes)[b] ≠ m[b]) : (b - a).toNat < bytes.length := by
  refine Nat.lt_of_not_le fun hle => h ?_
  rw [getElem_store _ _ _ _ hlength, List.getElem?_eq_none hle, Option.getD_none]

namespace Machine
variable (m : Machine)

theorem ofInt_index_add (d : Nat) :
    Address.ofInt ((m.index.toNat : Int) + d) = m.indexAddress + BitVec.ofNat 12 d := by
  rw [Address.ofInt, ← Int.natCast_add, BitVec.ofInt_natCast, BitVec.ofNat_add, BitVec.ofNat_toNat]
  rfl

theorem toNat_eq_index_add (a : Address) : a.toNat = (m.index.toNat + (a - m.indexAddress).toNat) % 4096 := by
  have hindex : m.indexAddress.toNat = m.index.toNat % 4096 := BitVec.toNat_setWidth 12 m.index
  have ha := a.isLt
  rw [BitVec.toNat_sub, hindex]
  omega

theorem slice_index (n : Nat) :
    m.memory.slice m.indexAddress n = (List.range n).map fun d : Nat => m.memory.read (m.index.toNat + d) := by
  refine List.ext_getElem? fun d => ?_
  by_cases hd : d < n
  · rw [Memory.getElem?_slice _ _ hd, List.getElem?_map, List.getElem?_range hd, Option.map_some, Memory.read,
      ofInt_index_add]
  · rw [List.getElem?_eq_none (by rw [Memory.length_slice]; omega), List.getElem?_eq_none (by simpa using hd)]

theorem length_registersUpTo (last : Nibble) : (m.registersUpTo last).length = last.toNat + 1 := by
  rw [registersUpTo, List.length_take, Table.length_toList]
  exact Nat.min_eq_left last.isLt

variable {m} {last : Nibble}

theorem length_registersUpTo_le (m : Machine) (last : Nibble) : (m.registersUpTo last).length ≤ 4096 := by
  have hlast := last.isLt
  rw [length_registersUpTo]
  omega

/-! ### What is stored -/

section
variable {a : Address}

theorem store_footprint {bytes : List Byte} (hlength : bytes.length ≤ 4096)
    (h : (m.memory.store m.indexAddress bytes)[a] ≠ m.memory[a]) :
    ∃ k : Nat, k < bytes.length ∧ a.toNat = (m.index.toNat + k) % 4096 :=
  ⟨_, Memory.offset_lt_of_store_ne hlength h, m.toNat_eq_index_add a⟩

theorem digits_footprint {b : Byte} (h : (m.memory.store m.indexAddress (digits b))[a] ≠ m.memory[a]) :
    ∃ k : Nat, k ≤ 2 ∧ a.toNat = (m.index.toNat + k) % 4096 := by
  obtain ⟨k, hk, ha⟩ := store_footprint (Nat.le_of_ble_eq_true rfl) h
  exact ⟨k, Nat.le_of_lt_succ hk, ha⟩

theorem registers_footprint
    (h : (m.memory.store m.indexAddress (m.registersUpTo last))[a] ≠ m.memory[a]) :
    ∃ k : Nat, k ≤ last.toNat ∧ a.toNat = (m.index.toNat + k) % 4096 := by
  obtain ⟨k, hk, ha⟩ := store_footprint (m.length_registersUpTo_le last) h
  rw [length_registersUpTo] at hk
  exact ⟨k, Nat.le_of_lt_succ hk, ha⟩

end

end Machine
end ChipEight
