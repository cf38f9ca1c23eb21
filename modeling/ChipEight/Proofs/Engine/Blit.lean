import ChipEight.Proofs.Engine.Picture

/-!
# Drawing a sprite

What `draw` makes of each cell and of the flag register, told by the bit that the sprite has over the cell
(`Machine.spriteBit`). Cells beside the sprite, and those beyond an edge that the sprite reaches over, have no such bit.
-/

namespace ChipEight

namespace Machine

/-- The bit over the cell `(cx, cy)` of the sprite at the index, with its corner where two registers say. -/
def spriteBit (m : Machine) (x y rows : Nibble) (cx cy : Nat) : Bool :=
  let left := m.registers[x].toNat % 64
  let top := m.registers[y].toNat % 64
  decide (left ≤ cx ∧ cx - left ≤ 7 ∧ top ≤ cy ∧ cy - top < rows.toNat) &&
    (m.memory.read (m.index.toNat + (cy - top : Nat))).getLsbD (7 - (cx - left))

/-- A set bit of the sprite lies over a lit cell. -/
def Collides (m : Machine) (x y rows : Nibble) : Prop :=
  ∃ cx cy : Nat, cx < 64 ∧ cy < 32 ∧ m.display.isLit cx cy = .ok true ∧ m.spriteBit x y rows cx cy = true

def sprite (m : Machine) (x y rows : Nibble) : Sprite where
  left := m.registers[x].toNat % 64
  top := m.registers[y].toNat % 64
  rows := m.memory.slice m.indexAddress rows.toNat

variable (m : Machine) (x y rows : Nibble)

theorem covers_sprite (cx cy : Nat) : (m.sprite x y rows).covers cx cy = m.spriteBit x y rows cx cy := by
  rw [Sprite.covers, sprite, slice_index, spriteBit, List.getElem?_map]
  by_cases hrow : cy - m.registers[y].toNat % 64 < rows.toNat
  · rw [List.getElem?_range hrow]
    simp [hrow, Bool.and_assoc]
  · rw [List.getElem?_eq_none (by simpa using hrow)]
    simp [hrow]

theorem drawSprite_eq : m.drawSprite x y rows =
    let drawing := m.display.draw (m.sprite x y rows).left (m.sprite x y rows).top (m.sprite x y rows).rows
    { m with
      display := drawing.1
      registers := m.registers.set flagRegister (if drawing.2 then 1 else 0)
      drawn := true } := rfl

theorem getLsbD_drawSprite {cx cy : Nat} (hx : cx < 64) (hy : cy < 32) :
    (m.drawSprite x y rows).display.cells.getLsbD (cy * 64 + cx) =
      (m.display.cells.getLsbD (cy * 64 + cx) ^^ m.spriteBit x y rows cx cy) := by
  rw [drawSprite_eq, ← covers_sprite]
  exact (m.sprite x y rows).getLsbD_draw m.display hx hy

theorem meets_drawSprite_iff :
    (m.display.draw (m.sprite x y rows).left (m.sprite x y rows).top (m.sprite x y rows).rows).2 = true ↔
      m.Collides x y rows := by
  rw [Framebuffer.draw, Framebuffer.meets_iff]
  refine exists_congr fun cx => exists_congr fun cy => and_congr_right fun hx => and_congr_right fun hy => ?_
  rw [Framebuffer.isLit_natCast _ hx hy, Except.ok.injEq, ← covers_sprite, ← Sprite.getLsbD_mask _ hx hy]
  rfl

/-- Cells to the left of the sprite or above it are not under it, so it does not come in again at another edge. -/
theorem spriteBit_outside {cx cy : Nat}
    (h : cx < m.registers[x].toNat % 64 ∨ cy < m.registers[y].toNat % 64) : m.spriteBit x y rows cx cy = false := by
  rw [spriteBit, decide_eq_false, Bool.false_and]
  rintro ⟨hleft, -, htop, -⟩
  omega

theorem isLit_drawSprite {cx cy : Nat} (hx : cx < 64) (hy : cy < 32) :
    (m.drawSprite x y rows).display.isLit cx cy =
      .ok (m.display.cells.getLsbD (cy * 64 + cx) ^^ m.spriteBit x y rows cx cy) := by
  refine (Framebuffer.isLit_natCast _ hx hy).trans (congrArg Except.ok ?_)
  exact m.getLsbD_drawSprite x y rows hx hy

theorem flag_drawSprite : (m.drawSprite x y rows).registers[flagRegister] =
    if (m.display.draw (m.sprite x y rows).left (m.sprite x y rows).top (m.sprite x y rows).rows).2 then 1 else 0 :=
  Table.getElem_set_self ..

variable {m x y rows}

theorem flag_of_collides (h : m.Collides x y rows) : (m.drawSprite x y rows).registers[flagRegister] = 1 := by
  rw [flag_drawSprite, if_pos ((m.meets_drawSprite_iff x y rows).2 h)]

theorem flag_of_not_collides (h : ¬m.Collides x y rows) : (m.drawSprite x y rows).registers[flagRegister] = 0 := by
  rw [flag_drawSprite, if_neg fun hmeets => h ((m.meets_drawSprite_iff x y rows).1 hmeets)]

theorem spriteBit_below (h : 32 ≤ m.registers[y].toNat % 64) {cx cy : Nat} (hy : cy < 32) :
    m.spriteBit x y rows cx cy = false :=
  m.spriteBit_outside x y rows (.inr (Nat.lt_of_lt_of_le hy h))

theorem not_collides_below (h : 32 ≤ m.registers[y].toNat % 64) : ¬m.Collides x y rows := by
  rintro ⟨cx, cy, -, hy, -, hset⟩
  rw [spriteBit_below h hy] at hset
  cases hset

theorem display_below (h : 32 ≤ m.registers[y].toNat % 64) : (m.drawSprite x y rows).display = m.display := by
  refine Framebuffer.ext_places fun cx cy hx hy => ?_
  refine (m.getLsbD_drawSprite x y rows hx hy).trans ?_
  rw [spriteBit_below h hy, Bool.xor_false]
  rfl

/-- What drawing a sprite makes of a machine. -/
structure Blit (m m' : Machine) (x y rows : Nibble) : Prop where
  cells : ∀ cx cy : Nat, cx < 64 → cy < 32 → ∃ lit, m.display.isLit cx cy = .ok lit ∧
    m'.display.isLit cx cy = .ok (lit ^^ m.spriteBit x y rows cx cy)
  collision : m.Collides x y rows → m'.registers[flagRegister] = 1
  no_collision : ¬m.Collides x y rows → m'.registers[flagRegister] = 0
  drawn : m'.drawn = true
  registers : ∀ r : Nibble, r ≠ flagRegister → m'.registers[r] = m.registers[r]
  frame : m' = { m with display := m'.display, registers := m'.registers, drawn := m'.drawn }
  outside : ∀ cx cy : Nat, cx < 64 → cy < 32 →
    cx < m.registers[x].toNat % 64 ∨ cy < m.registers[y].toNat % 64 → m'.display.isLit cx cy = m.display.isLit cx cy
  /-- A sprite below the bottom edge is not drawn at all. -/
  below : 32 ≤ m.registers[y].toNat % 64 → m'.display = m.display ∧ m'.registers[flagRegister] = 0

theorem blit_drawSprite (m : Machine) (x y rows : Nibble) : m.Blit (m.drawSprite x y rows) x y rows where
  cells cx cy hx hy := ⟨_, Framebuffer.isLit_natCast _ hx hy, m.isLit_drawSprite x y rows hx hy⟩
  collision := flag_of_collides
  no_collision := flag_of_not_collides
  drawn := rfl
  registers r hr := getElem_setRegister _ hr
  frame := rfl
  outside cx cy hx hy hout := by
    rw [m.isLit_drawSprite x y rows hx hy, m.spriteBit_outside x y rows hout, Bool.xor_false]
    exact (Framebuffer.isLit_natCast _ hx hy).symm
  below htop := ⟨display_below htop, flag_of_not_collides (not_collides_below htop)⟩

end Machine

namespace Engine
variable {ρ : Type} [RandomSource ρ]

/-- Executing a word of kind 13 flips the cells under the set bits of its sprite, as far as they lie on the display, and
the flag tells whether one of them was lit. -/
theorem draw_blits (e : Engine ρ) (tracing : Bool) {w : Word} (h : w.kind = 0xd) :
    let out := e.execute tracing (.ofWord w)
    out.fault = none ∧ out.engine.source = e.source ∧ e.machine.Blit out.engine.machine w.x w.y w.n := by
  have hdraw : Instruction.ofWord w = .draw w.x w.y w.n := Instruction.ofWord_eq_iff.2 ⟨h, rfl, rfl, rfl⟩
  rw [hdraw]
  exact ⟨rfl, rfl, e.machine.blit_drawSprite w.x w.y w.n⟩

/-- A sprite whose first row is at the last address and goes over the right edge of the display. Its third row would be
below the bottom edge. One cell of the first row is lit. -/
def cornerSprite : Engine Random.Script :=
  ⟨{ Machine.fresh with
      memory := Machine.fresh.memory.set 0xfff 0xff
      index := 0xffff
      registers := ((Table.replicate 4 0).set 1 124).set 2 158
      display := .ofCells 64 32 [30 * 64 + 63] }, ⟨[]⟩⟩

theorem draw_blits_at_corner :
    (0xd125 : Word).kind = 0xd ∧
    let m := (cornerSprite.execute true (.ofWord 0xd125)).engine.machine
    m.display.isLit (63 : Nat) (30 : Nat) = .ok false ∧ m.display.isLit (63 : Nat) (31 : Nat) = .ok true ∧
      m.display.isLit (0 : Nat) (31 : Nat) = .ok false ∧ m.display.isLit (60 : Nat) (0 : Nat) = .ok false ∧
      m.registers[flagRegister] = 1 := by
  have hkind : (0xd125 : Word).kind = 0xd := by decide
  refine ⟨hkind, ?_⟩
  intro m
  obtain ⟨-, -, hblit⟩ := draw_blits cornerSprite true hkind
  have hcell {cx cy : Nat} (lit bit : Bool) (hx : cx < 64) (hy : cy < 32)
      (hlit : cornerSprite.machine.display.isLit cx cy = .ok lit)
      (hbit : cornerSprite.machine.spriteBit 1 2 5 cx cy = bit) : m.display.isLit cx cy = .ok (lit ^^ bit) := by
    obtain ⟨old, hold, hnew⟩ := hblit.cells cx cy hx hy
    cases hlit.symm.trans hold
    exact hbit ▸ hnew
  have hcollides : cornerSprite.machine.Collides 1 2 5 :=
    ⟨63, 30, by decide, by decide, by decide +kernel, by decide +kernel⟩
  refine ⟨?_, ?_, ?_, ?_, hblit.collision hcollides⟩
  · exact hcell true true (by decide) (by decide) (by decide +kernel) (by decide +kernel)
  · exact hcell false true (by decide) (by decide) (by decide +kernel) (by decide +kernel)
  · exact hcell false false (by decide) (by decide) (by decide +kernel) (by decide +kernel)
  · exact hcell false false (by decide) (by decide) (by decide +kernel) (by decide +kernel)

end Engine
end ChipEight
