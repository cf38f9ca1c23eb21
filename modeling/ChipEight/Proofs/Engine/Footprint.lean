import ChipEight.Proofs.Engine.Cycle
import ChipEight.Proofs.Machine.Index

/-!
# What a cycle may change

`Footprint w e e'` lists the parts of an engine that a cycle on the word `w` may change, and by which words. Each entry
is read off what the instructions leave alone, and off the words that stand for the others.
-/

namespace ChipEight

namespace Instruction
variable {w : Word} {i : Instruction}

theorem draws_iff_of_encodes (h : i.Encodes w) :
    i.draws = true ↔ w.kind = 0x0 ∧ w.kk = 0xe0 ∨ w.kind = 0xd := by
  constructor
  · intro hd
    cases i with
    | clearScreen => exact .inl h
    | draw => exact .inr h.1
    | _ => cases hd
  · rintro (hclear | hdraw)
    · rw [h.eq_ofWord, ofWord_eq_iff.2 (show clearScreen.Encodes w from hclear)]
      rfl
    · rw [h.eq_ofWord, ofWord_eq_iff.2 (show (draw w.x w.y w.n).Encodes w from ⟨hdraw, rfl, rfl, rfl⟩)]
      rfl

theorem Encodes.of_redirects (h : i.Encodes w) (hr : i.redirects = true) :
    w.kind = 0x1 ∨ w.kind = 0x2 ∨ w.kind = 0xb ∨ w.kind = 0x0 ∧ w.kk = 0xee ∨
      w.kind = 0x3 ∨ w.kind = 0x4 ∨ w.kind = 0x5 ∨ w.kind = 0x9 ∨ w.kind = 0xe ∧ (w.kk = 0x9e ∨ w.kk = 0xa1) ∨
      w.kind = 0xf ∧ w.kk = 0x0a := by
  cases i with
  | ret | jump | call | jumpPlus | waitKey | skipIfEqual | skipUnlessEqual | skipIfSame | skipUnlessSame | skipIfDown
    | skipUnlessDown =>
    unfold Encodes at h
    simp [h]
  | _ => cases hr

theorem Encodes.of_writes {p : Keypad} {r : Nibble} (h : i.Encodes w) (hw : i.Writes p r) :
    r = w.x ∧ (w.kind = 0x6 ∨ w.kind = 0x7 ∨ w.kind = 0xc ∨ w.kind = 0x8 ∧ (w.n ≤ 0x7 ∨ w.n = 0xe) ∨
        w.kind = 0xf ∧ (w.kk = 0x07 ∨ w.kk = 0x0a ∧ ∃ k, p.isDown k = true)) ∨
      r = flagRegister ∧ (w.kind = 0x8 ∧ (0x4 ≤ w.n ∧ w.n ≤ 0x7 ∨ w.n = 0xe) ∨ w.kind = 0xd) ∨
      r ≤ w.x ∧ w.kind = 0xf ∧ w.kk = 0x65 := by
  cases i with
  | setConstant | addConstant | random | copy | or | and | xor | readDelay =>
    unfold Encodes at h
    exact .inl ⟨hw.trans (by simp [h]), by simp [h]⟩
  | add | subtract | subtractFrom | shiftRight | shiftLeft =>
    unfold Encodes at h
    rcases hw with rfl | rfl
    · exact .inl ⟨by simp [h], by simp [h]⟩
    · exact .inr (.inl ⟨rfl, by simp [h]⟩)
  | draw => exact .inr (.inl ⟨hw, .inr h.1⟩)
  | waitKey => exact .inl ⟨hw.1.trans h.2.2, by simp [h.1, h.2.1, hw.2]⟩
  | loadRegisters => exact .inr (.inr ⟨h.2.2 ▸ hw, h.1, h.2.1⟩)
  | _ => exact absurd hw id

end Instruction

namespace Engine
variable {ρ : Type} [RandomSource ρ] {e : Engine ρ} {tracing : Bool}

/-- What a cycle on the word `w` changes. A value of the source is used up by the words of kind 12. -/
structure Footprint (w : Word) (e e' : Engine ρ) : Prop where
  memory : ∀ a : Address, e'.machine.memory[a] ≠ e.machine.memory[a] →
    ∃ k : Nat, a.toNat = (e.machine.index.toNat + k) % 4096 ∧
      (w.kind = 0xf ∧ w.kk = 0x33 ∧ k ≤ 2 ∨ w.kind = 0xf ∧ w.kk = 0x55 ∧ k ≤ w.x.toNat)
  display : e'.machine.display ≠ e.machine.display → w.kind = 0x0 ∧ w.kk = 0xe0 ∨ w.kind = 0xd
  drawn : e'.machine.drawn = true ↔ w.kind = 0x0 ∧ w.kk = 0xe0 ∨ w.kind = 0xd
  slots : e'.machine.stack.slots ≠ e.machine.stack.slots → w.kind = 0x2
  pointer : e'.machine.stack.pointer ≠ e.machine.stack.pointer → w.kind = 0x2 ∨ w.kind = 0x0 ∧ w.kk = 0xee
  index : e'.machine.index ≠ e.machine.index → w.kind = 0xa ∨ w.kind = 0xf ∧ (w.kk = 0x1e ∨ w.kk = 0x29)
  source : e'.source = if w.kind = 0xc then (RandomSource.draw e.source).2 else e.source
  registers : ∀ r : Nibble, e'.machine.registers[r] ≠ e.machine.registers[r] →
    r = w.x ∧ (w.kind = 0x6 ∨ w.kind = 0x7 ∨ w.kind = 0xc ∨ w.kind = 0x8 ∧ (w.n ≤ 0x7 ∨ w.n = 0xe) ∨
        w.kind = 0xf ∧ (w.kk = 0x07 ∨ w.kk = 0x0a ∧ ∃ k, e.machine.keypad.isDown k = true)) ∨
      r = flagRegister ∧ (w.kind = 0x8 ∧ (0x4 ≤ w.n ∧ w.n ≤ 0x7 ∨ w.n = 0xe) ∨ w.kind = 0xd) ∨
      r ≤ w.x ∧ w.kind = 0xf ∧ w.kk = 0x65
  pc : e'.machine.pc.toNat ≠ (e.machine.pc.toNat + 2) % 4096 →
    w.kind = 0x1 ∨ w.kind = 0x2 ∨ w.kind = 0xb ∨ w.kind = 0x0 ∧ w.kk = 0xee ∨
      w.kind = 0x3 ∨ w.kind = 0x4 ∨ w.kind = 0x5 ∨ w.kind = 0x9 ∨ w.kind = 0xe ∧ (w.kk = 0x9e ∨ w.kk = 0xa1) ∨
      w.kind = 0xf ∧ w.kk = 0x0a
  keypad : e'.machine.keypad = e.machine.keypad

theorem memory_footprint {a : Address}
    (h : (e.cycle tracing).engine.machine.memory[a] ≠ e.machine.memory[a]) :
    ∃ k : Nat, a.toNat = (e.machine.index.toNat + k) % 4096 ∧
      (e.machine.fetch.kind = 0xf ∧ e.machine.fetch.kk = 0x33 ∧ k ≤ 2 ∨
        e.machine.fetch.kind = 0xf ∧ e.machine.fetch.kk = 0x55 ∧ k ≤ e.machine.fetch.x.toNat) := by
  have hw := e.next_encodes
  rw [cycle_memory] at h
  cases hi : e.next with
  | storeDigits x =>
    rw [hi] at hw h
    obtain ⟨k, hk, ha⟩ := Machine.digits_footprint h
    exact ⟨k, ha, .inl ⟨hw.1, hw.2.1, hk⟩⟩
  | storeRegisters last =>
    rw [hi] at hw h
    obtain ⟨k, hk, ha⟩ := Machine.registers_footprint h
    exact ⟨k, ha, .inr ⟨hw.1, hw.2.1, hw.2.2 ▸ hk⟩⟩
  | _ =>
    rw [hi] at h
    exact absurd rfl h

/-- A cycle changes what its word allows and nothing else, whether or not it fails. -/
theorem cycle_footprint (tracing : Bool) (e : Engine ρ) :
    Footprint e.machine.fetch e (e.cycle tracing).engine := by
  have hw := e.next_encodes
  have hdraws := Instruction.draws_iff_of_encodes hw
  have hstack := cycle_stack tracing e
  constructor
  case memory => exact fun a h => memory_footprint h
  case display =>
    refine fun h => hdraws.1 (eq_true_of_ne_false fun hd => h ?_)
    exact cycle_display_of_not_draws hd
  case drawn =>
    rw [cycle_drawn]
    exact hdraws
  case slots =>
    intro h
    rw [hstack] at h
    cases hi : e.next with
    | call => rw [hi] at hw; exact hw.1
    | _ => rw [hi] at h; exact absurd rfl h
  case pointer =>
    intro h
    rw [hstack] at h
    cases hi : e.next with
    | call => rw [hi] at hw; exact .inl hw.1
    | ret => rw [hi] at hw; exact .inr hw
    | _ => rw [hi] at h; exact absurd rfl h
  case index =>
    intro h
    rw [cycle_index] at h
    cases hi : e.next with
    | setIndex => rw [hi] at hw; exact .inl hw.1
    | addIndex => rw [hi] at hw; exact .inr ⟨hw.1, .inl hw.2.1⟩
    | glyph => rw [hi] at hw; exact .inr ⟨hw.1, .inr hw.2.1⟩
    | _ => rw [hi] at h; exact absurd rfl h
  case source =>
    rw [cycle_source, next]
    split
    next hkind => rw [Instruction.ofWord_eq_random hkind]; rfl
    next hkind => rw [valueFor_of_kind hkind]
  case registers =>
    refine fun r h => hw.of_writes (Classical.byContradiction fun hr => h ?_)
    exact cycle_registers_of_not_writes hr
  case pc =>
    refine fun h => hw.of_redirects (eq_true_of_ne_false fun hr => h ?_)
    rw [cycle_pc_of_not_redirects hr, BitVec.toNat_add]
    rfl
  case keypad => exact cycle_keypad tracing e

end Engine
end ChipEight
