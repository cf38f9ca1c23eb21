import ChipEight.Proofs.Checked.Refinement

/-!
# Valid states

A state of the checked machine is valid if every list has its length and every value is in its range. The valid states
are just those that stand for engines (`State.valid_iff`). So all that can be done to a fresh machine, in any order,
leaves a valid state, and faults only if the random source does (`operations_keep_valid`).
-/

namespace ChipEight.Checked
variable {ρ : Type}

structure State.Valid (s : State ρ) : Prop where
  memory_length : s.memory.length = 4096
  memory : ∀ b ∈ s.memory, 0 ≤ b ∧ b ≤ 0xff
  registers_length : s.registers.length = 16
  registers : ∀ v ∈ s.registers, 0 ≤ v ∧ v ≤ 0xff
  delay : 0 ≤ s.delay ∧ s.delay ≤ 0xff
  sound : 0 ≤ s.sound ∧ s.sound ≤ 0xff
  pc : 0 ≤ s.pc ∧ s.pc ≤ 0xfff
  index : 0 ≤ s.index ∧ s.index ≤ 0xffff
  pointer : 0 ≤ s.pointer ∧ s.pointer ≤ 15
  slots_length : s.slots.length = 16
  slots : ∀ a ∈ s.slots, 0 ≤ a ∧ a ≤ 0xfff
  cells_length : s.cells.length = 64 * 32
  cells : ∀ c ∈ s.cells, c = 0 ∨ c = 0xffffffff
  keys_length : s.keys.length = 16

/-! ### Words and tables -/

theorem toNat_bounds {w : Nat} (b : BitVec w) {limit : Int} (h : limit = (2 ^ w - 1 : Nat)) :
    0 ≤ (b.toNat : Int) ∧ (b.toNat : Int) ≤ limit :=
  ⟨Int.natCast_nonneg _, h ▸ Int.ofNat_le.2 (Nat.le_sub_one_of_lt b.isLt)⟩

theorem length_tableIntegers {v w : Nat} (t : Table v (BitVec w)) : t.integers.length = wordCount v := by
  rw [Table.integers, List.length_map, Table.length_toList]

theorem getElem_tableIntegers {v w : Nat} (t : Table v (BitVec w)) {n : Nat} (h : n < t.integers.length) :
    t.integers[n] = (t[BitVec.ofNat v n].toNat : Int) := by
  have hlt : n < 2 ^ v := Nat.lt_of_lt_of_eq h (length_tableIntegers t)
  have hget := t.getElem?_toList (BitVec.ofNat v n)
  rw [BitVec.toNat_ofNat, Nat.mod_eq_of_lt hlt] at hget
  refine Option.some.inj ((List.getElem?_eq_getElem h).symm.trans ?_)
  rw [Table.integers, List.getElem?_map, hget]
  rfl

theorem tableIntegers_bounds {v w : Nat} (t : Table v (BitVec w)) {limit : Int} (h : limit = (2 ^ w - 1 : Nat)) :
    ∀ i ∈ t.integers, 0 ≤ i ∧ i ≤ limit := fun i hi => by
  obtain ⟨b, -, rfl⟩ := List.mem_map.1 hi
  exact toNat_bounds b h

theorem checked_valid (e : Engine ρ) : e.checked.Valid where
  memory_length := length_tableIntegers _
  memory := tableIntegers_bounds _ rfl
  registers_length := length_tableIntegers _
  registers := tableIntegers_bounds _ rfl
  delay := toNat_bounds _ rfl
  sound := toNat_bounds _ rfl
  pc := toNat_bounds _ rfl
  index := toNat_bounds _ rfl
  pointer := toNat_bounds _ rfl
  slots_length := length_tableIntegers _
  slots := tableIntegers_bounds _ rfl
  cells_length := Framebuffer.length_integers _
  cells := fun _ => Framebuffer.eq_of_mem_integers _
  keys_length := Table.length_toList _

theorem toNat_ofInt_of_bounds {w : Nat} {i limit : Int} (h : limit = (2 ^ w - 1 : Nat)) (hi : 0 ≤ i ∧ i ≤ limit) :
    ((BitVec.ofInt w i).toNat : Int) = i := by
  have hpos := Nat.two_pow_pos w
  rw [natCast_toNat_ofInt, Int.emod_eq_of_lt hi.1 (by omega)]

theorem exists_table {α : Type} {w : Nat} {l : List α} (h : l.length = wordCount w) :
    ∃ t : Table w α, t.toList = l :=
  ⟨⟨⟨l.toArray, h⟩⟩, rfl⟩

theorem exists_tableIntegers {v w : Nat} {l : List Int} {limit : Int} (hlimit : limit = (2 ^ w - 1 : Nat))
    (h : l.length = wordCount v) (hl : ∀ i ∈ l, 0 ≤ i ∧ i ≤ limit) : ∃ t : Table v (BitVec w), t.integers = l := by
  obtain ⟨t, ht⟩ := exists_table (l := l.map (BitVec.ofInt w)) (by rw [List.length_map, h])
  refine ⟨t, ?_⟩
  rw [Table.integers, ht, List.map_map]
  exact (List.map_congr_left fun i hi => toNat_ofInt_of_bounds hlimit (hl i hi)).trans (List.map_id l)

theorem exists_displayIntegers {l : List Int} (h : l.length = 64 * 32) (hl : ∀ c ∈ l, c = 0 ∨ c = 0xffffffff) :
    ∃ d : Display, d.integers = l := by
  refine ⟨.ofCells 64 32 ((List.range (64 * 32)).filter fun n => l[n]? = some 0xffffffff), ?_⟩
  refine List.ext_getElem (by rw [Framebuffer.length_integers, h]; rfl) fun n _ hn => ?_
  have hlt : n < cellCount 64 32 := Nat.lt_of_lt_of_eq hn h
  have hmem : n ∈ (List.range (64 * 32)).filter (fun n => l[n]? = some 0xffffffff) ↔ l[n] = 0xffffffff := by
    rw [List.mem_filter, List.mem_range, decide_eq_true_iff, List.getElem?_eq_getElem hn, Option.some.injEq]
    exact ⟨fun hand => hand.2, fun heq => ⟨hlt, heq⟩⟩
  rw [Framebuffer.getElem_integers, Framebuffer.getLsbD_ofCells, decide_eq_true hlt, Bool.true_and]
  rcases hl l[n] (List.getElem_mem hn) with hc | hc
  · rw [decide_eq_false fun hin => absurd (hc.symm.trans (hmem.1 hin)) (by decide), hc]
    rfl
  · rw [decide_eq_true (hmem.2 hc), hc]
    rfl

/-- The valid states are those that stand for engines. -/
theorem State.valid_iff (s : State ρ) : s.Valid ↔ ∃ e : Engine ρ, e.checked = s := by
  constructor
  · intro h
    obtain ⟨memory, hmemory⟩ := exists_tableIntegers (v := 12) (w := 8) rfl h.memory_length h.memory
    obtain ⟨registers, hregisters⟩ := exists_tableIntegers (v := 4) (w := 8) rfl h.registers_length h.registers
    obtain ⟨slots, hslots⟩ := exists_tableIntegers (v := 4) (w := 12) rfl h.slots_length h.slots
    obtain ⟨display, hdisplay⟩ := exists_displayIntegers h.cells_length h.cells
    obtain ⟨keys, hkeys⟩ := exists_table (w := 4) h.keys_length
    have hpointer : ((Nibble.ofInt s.pointer).toNat : Int) = s.pointer := toNat_ofInt_of_bounds rfl h.pointer
    have hpc : ((Address.ofInt s.pc).toNat : Int) = s.pc := toNat_ofInt_of_bounds rfl h.pc
    have hindex : ((Word.ofInt s.index).toNat : Int) = s.index := toNat_ofInt_of_bounds rfl h.index
    have hdelay : ((Byte.ofInt s.delay).toNat : Int) = s.delay := toNat_ofInt_of_bounds rfl h.delay
    have hsound : ((Byte.ofInt s.sound).toNat : Int) = s.sound := toNat_ofInt_of_bounds rfl h.sound
    refine ⟨⟨⟨memory, ⟨slots, .ofInt s.pointer⟩, display, ⟨keys⟩, registers, .ofInt s.pc, .ofInt s.index,
      .ofInt s.delay, .ofInt s.sound, s.drawn⟩, s.source⟩, ?_⟩
    simp only [Engine.checked, Machine.checked, hmemory, hregisters, hslots, hdisplay, hkeys, hpointer, hpc, hindex,
      hdelay, hsound]
  · rintro ⟨e, rfl⟩
    exact checked_valid e

/-! ### Runs -/

theorem getElem_initial {n : Nat} (h : n < 4096) :
    Memory.initial[BitVec.ofNat 12 n] = fontGlyphs[n]?.getD 0 := by
  have hoffset : (BitVec.ofNat 12 n - 0).toNat = n := by
    rw [show BitVec.ofNat 12 n - 0 = BitVec.ofNat 12 n from BitVec.sub_zero _, BitVec.toNat_ofNat, Nat.mod_eq_of_lt h]
  rw [Memory.initial, Memory.getElem_store _ _ _ _ (by decide), Table.getElem_replicate, hoffset]

theorem initial_integers : Memory.initial.integers =
    fontGlyphs.map (fun b => (b.toNat : Int)) ++ List.replicate (4096 - fontGlyphs.length) 0 := by
  have hlength : fontGlyphs.length = 80 := rfl
  refine List.ext_getElem ?_ fun n hn _ => ?_
  · rw [length_tableIntegers, List.length_append, List.length_map, List.length_replicate, hlength]
  · rw [length_tableIntegers] at hn
    rw [getElem_tableIntegers, getElem_initial hn, List.getElem_append]
    split
    next hlt =>
      rw [List.length_map] at hlt
      rw [List.getElem_map, List.getElem?_eq_getElem hlt]
      rfl
    next hge =>
      rw [List.length_map] at hge
      rw [List.getElem_replicate, List.getElem?_eq_none (by omega)]
      rfl

theorem fresh_checked (source : ρ) : (Engine.fresh source).checked = .fresh source := by
  unfold Engine.checked Engine.fresh Machine.checked Machine.fresh State.fresh
  simp only [initial_integers, Framebuffer.integers_blank]
  rfl

/-- The word that an operation executes, if it executes one. -/
def Operation.word? (e : Engine ρ) : Operation → Option Word
  | .act .cycle => some e.machine.fetch
  | .execute opcode => some (.ofInt opcode)
  | _ => none

variable [RandomSource ρ]

/-- An operation fails only while a word of kind 12 is executed, and only because there is no random value. -/
theorem fault_of_answer {o : Operation} {e : Engine ρ} {r : RandomError}
    (h : (e.answer false o.request).fault = some r) :
    ∃ w, o.word? e = some w ∧ w.kind = 0xc ∧ (RandomSource.draw e.source).1 = .error r := by
  cases o with
  | act a =>
    cases a with
    | cycle =>
      replace h : (e.cycle false).fault = some r := (Engine.answer_cycles_one false e).2.1.symm.trans h
      rcases Engine.cycle_cases false e with ⟨v, source, -, hcycle⟩ | ⟨x, k, r', source, hnext, hdraw, hcycle⟩
      · rw [hcycle] at h
        cases h
      · rw [hcycle] at h
        cases h
        exact ⟨_, rfl, Instruction.kind_of_random hnext, by rw [hdraw]⟩
    | write | load | setKey | releaseAll => cases h
  | execute opcode =>
    replace h : (e.execute false (.ofWord (.ofInt opcode))).fault = some r := h
    unfold Engine.execute at h
    rcases hvalue : Engine.valueFor e.source (.ofWord (.ofInt opcode)) with ⟨r' | v, source⟩
    · rw [hvalue] at h
      cases h
      obtain ⟨⟨x, k, hrandom⟩, hdraw⟩ := Engine.valueFor_error hvalue
      exact ⟨_, rfl, Instruction.kind_of_random hrandom, by rw [hdraw]⟩
    · rw [hvalue] at h
      cases h

/-- Whatever is done to a fresh machine, in any order and with any source of random values: the state that it leaves
stands for the engine to which the same was done, and it is valid. The next operation does not fault, unless it executes
a word of kind 12 and the source gives no value. -/
theorem operations_keep_valid (source : ρ) (operations : List Operation) :
    let s := (State.fresh source).after operations
    let e := (Engine.fresh source).afterAll false (operations.map Operation.request)
    s = e.checked ∧ s.Valid ∧ ∀ o : Operation, match (perform o).run s with
      | .ok _ s' => s'.Valid
      | .error fault s' => s'.Valid ∧
        ∃ r w, fault = .random r ∧ (RandomSource.draw s.source).1 = .error r ∧ o.word? e = some w ∧ w.kind = 0xc := by
  intro s e
  have hs : s = e.checked := by
    show (State.fresh source).after operations = _
    rw [← fresh_checked, after_checked]
  refine ⟨hs, hs ▸ checked_valid e, fun o => ?_⟩
  rw [hs, perform_run]
  cases hfault : (e.answer false o.request).fault with
  | none => exact checked_valid _
  | some r =>
    obtain ⟨w, hw, hkind, hdraw⟩ := fault_of_answer hfault
    exact ⟨checked_valid _, r, w, rfl, hdraw, hw, hkind⟩

end ChipEight.Checked
