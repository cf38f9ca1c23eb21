import ChipEight.Proofs.Engine.Blit

/-!
# Drawing a sprite twice

Unless the flag register says where the sprite goes, the second drawing has the bits of the first one
(`spriteBit_drawSprite`) and undoes it. The first flag tells of lit cells under the sprite, and the second one of
cells that were not lit before.
-/

namespace ChipEight

namespace Machine

/-- A set bit of the sprite lies over a cell that is lit, or over one that is not. -/
def Covers (m : Machine) (x y rows : Nibble) (lit : Bool) : Prop :=
  ∃ cx cy : Nat, cx < 64 ∧ cy < 32 ∧ m.spriteBit x y rows cx cy = true ∧ m.display.isLit cx cy = .ok lit

variable {m : Machine} {x y rows : Nibble}

theorem covers_iff {lit : Bool} : m.Covers x y rows lit ↔ ∃ cx cy : Nat, cx < 64 ∧ cy < 32 ∧
    m.spriteBit x y rows cx cy = true ∧ m.display.cells.getLsbD (cy * 64 + cx) = lit := by
  refine exists_congr fun cx => exists_congr fun cy => and_congr_right fun hx => and_congr_right fun hy => ?_
  rw [Framebuffer.isLit_natCast _ hx hy, Except.ok.injEq]
  rfl

theorem collides_iff : m.Collides x y rows ↔ m.Covers x y rows true :=
  exists_congr fun _ => exists_congr fun _ => and_congr_right fun _ => and_congr_right fun _ => and_comm

theorem flag_drawSprite_iff :
    (m.drawSprite x y rows).registers[flagRegister] = 1 ↔ m.Covers x y rows true := by
  rw [← collides_iff]
  refine ⟨fun h => Classical.byContradiction fun hno => ?_, flag_of_collides⟩
  rw [flag_of_not_collides hno] at h
  cases h

theorem flag_drawSprite_le (m : Machine) (x y rows : Nibble) :
    (m.drawSprite x y rows).registers[flagRegister] ≤ 1 := by
  rw [flag_drawSprite]
  split <;> decide

theorem covers_or_iff : m.Covers x y rows true ∨ m.Covers x y rows false ↔
    ∃ cx cy : Nat, cx < 64 ∧ cy < 32 ∧ m.spriteBit x y rows cx cy = true := by
  rw [covers_iff, covers_iff]
  constructor
  · rintro (⟨cx, cy, hcx, hcy, hbit, -⟩ | ⟨cx, cy, hcx, hcy, hbit, -⟩) <;> exact ⟨cx, cy, hcx, hcy, hbit⟩
  · rintro ⟨cx, cy, hcx, hcy, hbit⟩
    cases hlit : m.display.cells.getLsbD (cy * 64 + cx) with
    | true => exact .inl ⟨cx, cy, hcx, hcy, hbit, hlit⟩
    | false => exact .inr ⟨cx, cy, hcx, hcy, hbit, hlit⟩

section
variable (hx : x ≠ flagRegister) (hy : y ≠ flagRegister)
include hx hy

theorem spriteBit_drawSprite (cx cy : Nat) :
    (m.drawSprite x y rows).spriteBit x y rows cx cy = m.spriteBit x y rows cx cy := by
  have hblit := m.blit_drawSprite x y rows
  rw [spriteBit, spriteBit, hblit.registers x hx, hblit.registers y hy]
  rfl

theorem display_drawSprite_twice : ((m.drawSprite x y rows).drawSprite x y rows).display = m.display := by
  refine Framebuffer.ext_places fun cx cy hcx hcy => ?_
  refine (getLsbD_drawSprite _ x y rows hcx hcy).trans ?_
  rw [getLsbD_drawSprite _ x y rows hcx hcy, spriteBit_drawSprite hx hy, Bool.xor_assoc, Bool.xor_self, Bool.xor_false]
  rfl

theorem covers_drawSprite {lit : Bool} :
    (m.drawSprite x y rows).Covers x y rows lit ↔ m.Covers x y rows (!lit) := by
  rw [covers_iff, covers_iff]
  refine exists_congr fun cx => exists_congr fun cy => and_congr_right fun hcx => and_congr_right fun hcy => ?_
  rw [spriteBit_drawSprite hx hy, getLsbD_drawSprite _ _ _ _ hcx hcy]
  refine and_congr_right fun hbit => ?_
  rw [hbit, Bool.xor_true, Bool.not_eq_eq_eq_not]

end

end Machine

namespace Engine
variable {ρ : Type} [RandomSource ρ]

/-- A sprite that is drawn twice leaves the display as it was, if its place is not read from the flag register. -/
theorem redraw_restores (e : Engine ρ) (tracing : Bool) {w : Word} (h : w.kind = 0xd) (hx : w.x ≠ flagRegister)
    (hy : w.y ≠ flagRegister) :
    let m := e.machine
    let first := e.execute tracing (.ofWord w)
    let second := first.engine.execute tracing (.ofWord w)
    let flag₁ := first.engine.machine.registers[flagRegister]
    let flag₂ := second.engine.machine.registers[flagRegister]
    first.fault = none ∧ second.fault = none ∧ second.engine.machine.display = m.display ∧ flag₁ ≤ 1 ∧ flag₂ ≤ 1 ∧
    (flag₁ = 1 ↔ m.Covers w.x w.y w.n true) ∧ (flag₂ = 1 ↔ m.Covers w.x w.y w.n false) ∧
    (flag₁ = 1 ∨ flag₂ = 1 ↔ ∃ cx cy : Nat, cx < 64 ∧ cy < 32 ∧ m.spriteBit w.x w.y w.n cx cy = true) := by
  have hdraw : Instruction.ofWord w = .draw w.x w.y w.n := Instruction.ofWord_eq_iff.2 ⟨h, rfl, rfl, rfl⟩
  rw [hdraw]
  intro m first second flag₁ flag₂
  have hflag₁ : flag₁ = 1 ↔ m.Covers w.x w.y w.n true := Machine.flag_drawSprite_iff
  have hflag₂ : flag₂ = 1 ↔ m.Covers w.x w.y w.n false :=
    Machine.flag_drawSprite_iff.trans (Machine.covers_drawSprite hx hy)
  refine ⟨rfl, rfl, Machine.display_drawSprite_twice hx hy, Machine.flag_drawSprite_le ..,
    Machine.flag_drawSprite_le .., hflag₁, hflag₂, ?_⟩
  rw [hflag₁, hflag₂]
  exact Machine.covers_or_iff

theorem redraw_restores_corner :
    (0xd125 : Word).kind = 0xd ∧ (0xd125 : Word).x ≠ flagRegister ∧ (0xd125 : Word).y ≠ flagRegister ∧
    let first := cornerSprite.execute true (.ofWord 0xd125)
    let second := first.engine.execute true (.ofWord 0xd125)
    first.engine.machine.registers[flagRegister] = 1 ∧ second.engine.machine.registers[flagRegister] = 1 ∧
      second.engine.machine.display.isLit (63 : Nat) (30 : Nat) = .ok true ∧
      second.engine.machine.display.isLit (63 : Nat) (31 : Nat) = .ok false := by
  have hkind : (0xd125 : Word).kind = 0xd := by decide
  have hx : (0xd125 : Word).x ≠ flagRegister := by decide
  have hy : (0xd125 : Word).y ≠ flagRegister := by decide
  refine ⟨hkind, hx, hy, ?_⟩
  intro first second
  obtain ⟨-, -, hdisplay, -, -, hflag₁, hflag₂, -⟩ := redraw_restores cornerSprite true hkind hx hy
  refine ⟨hflag₁.2 ?_, hflag₂.2 ?_, ?_, ?_⟩
  · exact ⟨63, 30, by decide, by decide, by decide +kernel, by decide +kernel⟩
  · exact ⟨63, 31, by decide, by decide, by decide +kernel, by decide +kernel⟩
  · rw [hdisplay]
    decide +kernel
  · rw [hdisplay]
    decide +kernel

end Engine
end ChipEight
