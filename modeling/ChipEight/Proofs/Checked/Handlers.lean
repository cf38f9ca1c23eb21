import ChipEight.Proofs.Checked.Parts
import ChipEight.Proofs.Machine.Index

/-!
# The handlers of the checked machine

Each handler does what its instruction does.
-/

namespace ChipEight.Checked.Handler
variable {ρ : Type} {source : ρ} {m : Machine}

/-- The handler does to every machine what an instruction does. -/
def Does (h : Handler ρ) (w : Word) (i : Instruction) : Prop :=
  ∀ (m : Machine) (source : ρ) (value : Int),
    Yields (h (.ofWord w)) (m.checked source) () ((m.execute value i).checked source)

/-! ### Flow of control -/

theorem unknown_does (w : Word) : Does (unknown : Handler ρ) w (.unknown w) := by
  intro _ _ _
  exact .pure _ _

theorem ret_does (w : Word) : Does (ret : Handler ρ) w .ret := by
  intro _ _ _
  exact pop_checked.bind (.modify rfl)

theorem jump_does (w : Word) : Does (jump : Handler ρ) w (.jump w.nnn) := by
  intro _ _ _
  exact .modify rfl

theorem call_does (w : Word) : Does (call : Handler ρ) w (.call w.nnn) := by
  intro m _ _
  exact (push_checked m.pc).bind (.modify rfl)

theorem jumpPlus_does (w : Word) : Does (jumpPlus : Handler ρ) w (.jumpPlus w.nnn) := by
  intro m source _
  have hpc : ((w.nnn.toNat : Int) + (m.registers[(0 : Nibble)].toNat : Int)).land 0xfff =
      (w.nnn + m.registers[(0 : Nibble)].setWidth 12).toNat := by
    rw [land_0xfff, BitVec.ofInt_add, ofInt_toNat, ofInt_toNat, BitVec.setWidth_eq]
  refine (register_checked 0).bind (.modify ?_)
  show { m.checked source with pc := ((w.nnn.toNat : Int) + (m.registers[(0 : Nibble)].toNat : Int)).land 0xfff } = _
  rw [hpc]
  rfl

theorem skipIf_checked (condition : Bool) :
    Yields (skipIf condition) (m.checked source) () ((m.skipIf condition).checked source) := by
  cases condition with
  | false => exact .pure _ _
  | true => exact skip_checked

theorem decide_toNat_eq {w : Nat} (a b : BitVec w) : decide ((a.toNat : Int) = b.toNat) = decide (a = b) :=
  decide_eq_decide.2 (Int.ofNat_inj.trans BitVec.toNat_inj)

theorem decide_toNat_ne {w : Nat} (a b : BitVec w) : decide ((a.toNat : Int) ≠ b.toNat) = decide (a ≠ b) :=
  decide_eq_decide.2 (not_congr (Int.ofNat_inj.trans BitVec.toNat_inj))

theorem skipIfEqual_does (w : Word) : Does (skipIfEqual : Handler ρ) w (.skipIfEqual w.x w.kk) := by
  intro _ _ _
  exact (register_checked w.x).bind (decide_toNat_eq _ w.kk ▸ skipIf_checked _)

theorem skipUnlessEqual_does (w : Word) : Does (skipUnlessEqual : Handler ρ) w (.skipUnlessEqual w.x w.kk) := by
  intro _ _ _
  exact (register_checked w.x).bind (decide_toNat_ne _ w.kk ▸ skipIf_checked _)

theorem skipIfSame_does (w : Word) : Does (skipIfSame : Handler ρ) w (.skipIfSame w.x w.y) := by
  intro m _ _
  exact (register_checked w.x).bind
    ((register_checked w.y).bind (decide_toNat_eq _ m.registers[w.y] ▸ skipIf_checked _))

theorem skipUnlessSame_does (w : Word) : Does (skipUnlessSame : Handler ρ) w (.skipUnlessSame w.x w.y) := by
  intro m _ _
  exact (register_checked w.x).bind
    ((register_checked w.y).bind (decide_toNat_ne _ m.registers[w.y] ▸ skipIf_checked _))

/-! ### Registers -/

theorem setConstant_does (w : Word) : Does (setConstant : Handler ρ) w (.setConstant w.x w.kk) := by
  intro _ _ _
  exact setRegister_checked w.x rfl

theorem add_land_0xff (a b : Byte) : ((a.toNat : Int) + b.toNat).land 0xff = (a + b).toNat := by
  rw [land_0xff, BitVec.ofInt_add, ofInt_toNat, ofInt_toNat, BitVec.setWidth_eq, BitVec.setWidth_eq]

theorem sub_land_0xff (a b : Byte) : ((a.toNat : Int) - b.toNat).land 0xff = (a - b).toNat := by
  rw [land_0xff, ofInt_sub, ofInt_toNat, ofInt_toNat, BitVec.setWidth_eq, BitVec.setWidth_eq]

theorem addConstant_does (w : Word) : Does (addConstant : Handler ρ) w (.addConstant w.x w.kk) := by
  intro m _ _
  exact (register_checked w.x).bind (setRegister_checked w.x (add_land_0xff m.registers[w.x] w.kk))

theorem copy_does (w : Word) : Does (copy : Handler ρ) w (.copy w.x w.y) := by
  intro _ _ _
  exact (register_checked w.y).bind (setRegister_checked w.x rfl)

theorem combine_checked (w : Word) {f : Int → Int → Int} {g : Byte → Byte → Byte}
    (h : ∀ a b : Byte, f a.toNat b.toNat = (g a b).toNat) :
    Yields (combine f (.ofWord w)) (m.checked source) ()
      ((m.setRegister w.x (g m.registers[w.x] m.registers[w.y])).checked source) :=
  (register_checked w.x).bind ((register_checked w.y).bind (setRegister_checked w.x (h _ _)))

theorem or_does (w : Word) : Does (combine Int.lor : Handler ρ) w (.or w.x w.y) := by
  intro _ _ _
  exact combine_checked w fun a b => congrArg _ (BitVec.toNat_or (x := a) (y := b)).symm

theorem and_does (w : Word) : Does (combine Int.land : Handler ρ) w (.and w.x w.y) := by
  intro _ _ _
  exact combine_checked w fun a b => congrArg _ (BitVec.toNat_and (x := a) (y := b)).symm

theorem xor_does (w : Word) : Does (combine Int.xor : Handler ρ) w (.xor w.x w.y) := by
  intro _ _ _
  exact combine_checked w fun a b => congrArg _ (BitVec.toNat_xor (x := a) (y := b)).symm

theorem setWithFlag_checked (x : Nibble) {v f : Int} {b : Byte} {flag : Bool} (hv : v = b.toNat)
    (hf : f = if flag then 1 else 0) :
    Yields (setWithFlag x.toNat v f) (m.checked source) () ((m.setWithFlag x b flag).checked source) := by
  have hflag : f = ((if flag then 1 else 0 : Byte).toNat : Int) := by
    rw [hf]
    cases flag <;> rfl
  exact (setRegister_checked x hv).bind (setRegister_checked flagRegister hflag)

theorem add_does (w : Word) : Does (add : Handler ρ) w (.add w.x w.y) := by
  intro m _ _
  have hflag : (if (m.registers[w.x].toNat : Int) + m.registers[w.y].toNat > 0xff then 1 else 0 : Int) =
      if decide (255 < m.registers[w.x].toNat + m.registers[w.y].toNat) then 1 else 0 := by
    simp only [decide_eq_true_eq]
    exact if_congr (by omega) rfl rfl
  exact (register_checked w.x).bind ((register_checked w.y).bind
    (setWithFlag_checked w.x (add_land_0xff _ _) hflag))

theorem ite_toNat_le (a b : Byte) :
    (if (b.toNat : Int) ≥ a.toNat then 1 else 0 : Int) = if decide (a ≤ b) then 1 else 0 := by
  simp only [decide_eq_true_eq]
  exact if_congr (Int.ofNat_le.trans BitVec.le_def.symm) rfl rfl

theorem subtract_does (w : Word) : Does (subtract : Handler ρ) w (.subtract w.x w.y) := by
  intro _ _ _
  exact (register_checked w.x).bind ((register_checked w.y).bind
    (setWithFlag_checked w.x (sub_land_0xff _ _) (ite_toNat_le _ _)))

theorem subtractFrom_does (w : Word) : Does (subtractFrom : Handler ρ) w (.subtractFrom w.x w.y) := by
  intro _ _ _
  exact (register_checked w.x).bind ((register_checked w.y).bind
    (setWithFlag_checked w.x (sub_land_0xff _ _) (ite_toNat_le _ _)))

/-- A bit of a byte, taken out by a mask and a shift. -/
theorem land_bit (a : Byte) (k : Nat) {mask : Int} (hmask : mask = (2 ^ k : Nat)) :
    (a.toNat : Int).land mask >>> k = if a.getLsbD k then 1 else 0 := by
  rw [hmask]
  show (((a.toNat &&& 2 ^ k) >>> k : Nat) : Int) = _
  rw [Nat.and_two_pow, Nat.shiftRight_eq_div_pow, Nat.mul_div_cancel _ (Nat.two_pow_pos k), BitVec.testBit_toNat]
  cases a.getLsbD k <;> rfl

theorem shiftRight_does (w : Word) : Does (shiftRight : Handler ρ) w (.shiftRight w.x) := by
  intro m _ _
  have hvalue : (m.registers[w.x].toNat : Int) >>> 1 = (m.registers[w.x] >>> 1).toNat := by
    rw [BitVec.toNat_ushiftRight]
    rfl
  exact (register_checked w.x).bind
    (setWithFlag_checked w.x hvalue ((Int.shiftRight_zero _).symm.trans (land_bit m.registers[w.x] 0 rfl)))

theorem shiftLeft_does (w : Word) : Does (shiftLeft : Handler ρ) w (.shiftLeft w.x) := by
  intro m _ _
  have hvalue : ((m.registers[w.x].toNat : Int) <<< 1).land 0xff = (m.registers[w.x] <<< 1).toNat := by
    show ((m.registers[w.x].toNat <<< 1 : Nat) : Int).land 0xff = _
    rw [land_0xff, BitVec.ofInt_natCast, BitVec.toNat_ofNat, BitVec.toNat_shiftLeft]
  exact (register_checked w.x).bind (setWithFlag_checked w.x hvalue (land_bit m.registers[w.x] 7 rfl))

/-! ### Keys and timers -/

theorem key_land_0xf (v : Byte) :
    Yields (key ((v.toNat : Int).land 0xf)) (m.checked source) (m.keypad.isDown (v.setWidth 4))
      (m.checked source) := by
  have hkey : Nibble.ofInt ((v.toNat : Int).land 0xf) = v.setWidth 4 := by
    rw [land_0xf, Nibble.ofInt, ofInt_toNat, ofInt_toNat, BitVec.setWidth_eq]
  exact hkey ▸ key_checked _

theorem skipIfDown_does (w : Word) : Does (skipIfDown : Handler ρ) w (.skipIfDown w.x) := by
  intro _ _ _
  exact (register_checked w.x).bind ((key_land_0xf _).bind (skipIf_checked _))

theorem skipUnlessDown_does (w : Word) : Does (skipUnlessDown : Handler ρ) w (.skipUnlessDown w.x) := by
  intro _ _ _
  exact (register_checked w.x).bind ((key_land_0xf _).bind (skipIf_checked _))

theorem waitKey_does (w : Word) : Does (waitKey : Handler ρ) w (.waitKey w.x) := by
  intro m source _
  have hkeys : List.range 16 = Keypad.keys.map BitVec.toNat := by decide
  have hfirst : Yields _ (m.checked source) _ _ := firstKey?_checked Keypad.keys
  show Yields (waitKey _) _ () ((m.waitKey w.x).checked source)
  unfold waitKey Machine.waitKey Keypad.first?
  rw [hkeys]
  refine hfirst.bind ?_
  cases Keypad.keys.find? m.keypad.isDown with
  | some k =>
    refine setRegister_checked w.x ?_
    rw [BitVec.toNat_setWidth_of_le (by decide)]
  | none =>
    have hpc : ((m.pc.toNat : Int) - 2).land 0xfff = (m.pc - 2).toNat := by
      rw [land_0xfff, ofInt_sub, ofInt_toNat, BitVec.setWidth_eq]
      rfl
    refine Yields.modify ?_
    show { m.checked source with pc := ((m.pc.toNat : Int) - 2).land 0xfff } = _
    rw [hpc]
    rfl

theorem readDelay_does (w : Word) : Does (readDelay : Handler ρ) w (.readDelay w.x) := by
  intro _ _ _
  exact .get (setRegister_checked w.x rfl)

theorem setDelay_does (w : Word) : Does (setDelay : Handler ρ) w (.setDelay w.x) := by
  intro _ _ _
  exact (register_checked w.x).bind (.modify rfl)

theorem setSound_does (w : Word) : Does (setSound : Handler ρ) w (.setSound w.x) := by
  intro _ _ _
  exact (register_checked w.x).bind (.modify rfl)

/-! ### The index -/

theorem setIndex_does (w : Word) : Does (setIndex : Handler ρ) w (.setIndex w.nnn) := by
  intro m source _
  have hindex : (w.nnn.toNat : Int) = (w.nnn.setWidth 16).toNat := by
    rw [BitVec.toNat_setWidth_of_le (by decide)]
  refine Yields.modify ?_
  show { m.checked source with index := (w.nnn.toNat : Int) } = _
  rw [hindex]
  rfl

theorem addIndex_does (w : Word) : Does (addIndex : Handler ρ) w (.addIndex w.x) := by
  intro m source _
  have hindex : ((m.index.toNat : Int) + (m.registers[w.x].toNat : Int)).land 0xffff =
      (m.index + m.registers[w.x].setWidth 16).toNat := by
    rw [land_0xffff, BitVec.ofInt_add, ofInt_toNat, ofInt_toNat, BitVec.setWidth_eq]
  refine (register_checked w.x).bind (.modify ?_)
  show { m.checked source with index := ((m.index.toNat : Int) + (m.registers[w.x].toNat : Int)).land 0xffff } = _
  rw [hindex]
  rfl

/-- No mask is needed: five times a byte is a word. -/
theorem glyph_does (w : Word) : Does (glyph : Handler ρ) w (.glyph w.x) := by
  intro m source _
  have hindex : (m.registers[w.x].toNat : Int) * 5 =
      (m.registers[w.x].setWidth 16 * BitVec.ofNat 16 glyphSize).toNat := by
    have hlt := m.registers[w.x].isLt
    rw [BitVec.toNat_mul, BitVec.toNat_setWidth_of_le (by decide), BitVec.toNat_ofNat,
      Nat.mod_eq_of_lt (show glyphSize < 2 ^ 16 by decide), Nat.mod_eq_of_lt (by unfold glyphSize; omega)]
    rfl
  refine (register_checked w.x).bind (.modify ?_)
  show { m.checked source with index := (m.registers[w.x].toNat : Int) * 5 } = _
  rw [hindex]
  rfl

/-! ### Drawing -/

theorem land_column (bits : Byte) {column : Nat} (h : column < 8) :
    (bits.toNat : Int).land ((0x80 : Int) >>> column) ≠ 0 ↔ bits.getMsbD column = true := by
  have hmask : (0x80 : Int) >>> column = (2 ^ (7 - column) : Nat) := by
    show ((0x80 >>> column : Nat) : Int) = _
    rw [Nat.shiftRight_eq_div_pow, show 0x80 = 2 ^ 7 from rfl, Nat.pow_div (by omega) (by decide)]
  rw [hmask]
  show ((bits.toNat &&& 2 ^ (7 - column) : Nat) : Int) ≠ 0 ↔ _
  rw [Nat.and_two_pow, BitVec.getMsbD, decide_eq_true h, Bool.true_and, ← BitVec.testBit_toNat,
    show 8 - 1 - column = 7 - column from rfl]
  cases bits.toNat.testBit (7 - column) <;> simp

theorem drawRow_checked {x y : Nat} (hy : y < 32) (bits : Byte) (collision : Bool) {column n : Nat}
    (hn : column + n = 8) {d : Display} {erased : Bool}
    (h : m.display.toggleEach (Framebuffer.spriteRow 64 32 x y bits (List.range' column n)) = (d, erased)) :
    Yields (drawRow bits.toNat x y (List.range' column n) collision) (m.checked source) (collision || erased)
      ({ m with display := d }.checked source) := by
  -- on the columns that are left: their cells are flipped one by one, and `d` is what this comes to
  induction n generalizing m column collision d erased with
  | zero =>
    obtain ⟨rfl, rfl⟩ := Prod.mk.inj h
    exact (Bool.or_false collision).symm ▸ .pure collision _
  | succ n ih =>
    rw [List.range'_succ] at h ⊢
    rw [drawRow]
    by_cases hx : 64 ≤ x + column
    · rw [Framebuffer.spriteRow_of_width_le fun c hc => ?_] at h
      · obtain ⟨rfl, rfl⟩ := Prod.mk.inj h
        rw [if_pos (by omega)]
        exact (Bool.or_false collision).symm ▸ .pure collision _
      · rw [← List.range'_succ] at hc
        exact Nat.le_trans hx (Nat.add_le_add_left (List.mem_range'_1.1 hc).1 x)
    · rw [if_neg (by omega)]
      rw [Framebuffer.spriteRow_cons (show x + column < (64 : Int).toNat by omega)
        (show y < (32 : Int).toNat from hy)] at h
      by_cases hbit : bits.getMsbD column = true
      · rw [if_pos hbit] at h
        obtain ⟨rfl, rfl⟩ := Prod.mk.inj h
        rw [if_pos ((land_column bits (by omega)).2 hbit), ← Bool.or_assoc]
        exact (toggle_checked (x := x + column) (by omega) hy).bind (ih _ (by omega) rfl)
      · rw [if_neg hbit] at h
        rw [if_neg (fun hmask => hbit ((land_column bits (by omega)).1 hmask))]
        exact ih collision (by omega) h

theorem readByte_index (d : Nat) :
    Yields (do readByte ((← get).index + d)) (m.checked source)
      ((m.memory[m.indexAddress + BitVec.ofNat 12 d]).toNat : Int) (m.checked source) :=
  m.ofInt_index_add d ▸ readByte_checked ((m.index.toNat : Int) + d)

theorem drawRows_checked (x y : Nat) (collision : Bool) {row n : Nat} {d : Display} {erased : Bool}
    (h : m.display.toggleEach (Framebuffer.spriteFrom 64 32 x (y + row)
      (m.memory.slice (m.indexAddress + BitVec.ofNat 12 row) n)) = (d, erased)) :
    Yields (drawRows x y (List.range' row n) collision) (m.checked source) (collision || erased)
      ({ m with display := d }.checked source) := by
  induction n generalizing m row collision d erased with
  | zero =>
    obtain ⟨rfl, rfl⟩ := Prod.mk.inj h
    exact (Bool.or_false collision).symm ▸ .pure collision _
  | succ n ih =>
    rw [List.range'_succ, drawRows]
    by_cases hy : 32 ≤ y + row
    · rw [Framebuffer.spriteFrom_of_height_le hy] at h
      obtain ⟨rfl, rfl⟩ := Prod.mk.inj h
      rw [if_pos (by omega)]
      exact (Bool.or_false collision).symm ▸ .pure collision _
    · have hnext : m.indexAddress + BitVec.ofNat 12 row + 1 = m.indexAddress + BitVec.ofNat 12 (row + 1) := by
        rw [BitVec.add_assoc, BitVec.ofNat_add]
        rfl
      rw [Memory.slice, Framebuffer.spriteFrom, Framebuffer.toggleEach_append, hnext] at h
      obtain ⟨rfl, rfl⟩ := Prod.mk.inj h
      rw [if_neg (by omega), List.range_eq_range', ← Bool.or_assoc]
      exact (readByte_index row).bind ((drawRow_checked (by omega) _ collision rfl rfl).bind (ih _ rfl))

theorem draw_does (w : Word) : Does (draw : Handler ρ) w (.draw w.x w.y w.n) := by
  intro m _ value
  obtain ⟨d, erased, hdraw⟩ : ∃ d erased, m.display.draw (m.registers[w.x].toNat % 64) (m.registers[w.y].toNat % 64)
      (m.memory.slice m.indexAddress w.n.toNat) = (d, erased) := ⟨_, _, rfl⟩
  have heach := m.display.toggleEach_spriteCells (m.registers[w.x].toNat % 64) (m.registers[w.y].toNat % 64)
    (m.memory.slice (m.indexAddress + BitVec.ofNat 12 0) w.n.toNat)
  have hflag : (if (false || erased) = true then 1 else 0 : Int) =
      ((if erased then 1 else 0 : Byte).toNat : Int) := by
    cases erased <;> rfl
  have hexecute : m.execute value (.draw w.x w.y w.n) =
      { ({ m with display := d } : Machine).setRegister flagRegister (if erased then 1 else 0) with
        drawn := true } := by
    simp only [Machine.execute, Machine.drawSprite, hdraw]
    rfl
  rw [BitVec.add_zero, hdraw, ← BitVec.add_zero m.indexAddress] at heach
  rw [hexecute]
  unfold draw
  rw [List.range_eq_range']
  exact (register_checked w.x).bind ((register_checked w.y).bind ((drawRows_checked _ _ false heach).bind
    ((setRegister_checked flagRegister hflag).bind (.modify rfl))))

theorem clearScreen_does (w : Word) : Does (clearScreen : Handler ρ) w .clearScreen := by
  intro m source _
  refine Yields.modify ?_
  show { m.checked source with cells := List.replicate (cellCount 64 32) 0, drawn := true } = _
  rw [← Framebuffer.integers_blank]
  rfl

/-! ### Memory -/

theorem writeByte_index (d : Nat) {address value : Int} {b : Byte} (ha : address = m.index.toNat + d)
    (hb : value = b.toNat) :
    Yields (writeByte address value) (m.checked source) ()
      ({ m with memory := m.memory.set (m.indexAddress + BitVec.ofNat 12 d) b }.checked source) := by
  have hset : m.memory.write address value = m.memory.set (m.indexAddress + BitVec.ofNat 12 d) b := by
    rw [Memory.write, ha, m.ofInt_index_add, hb, Byte.ofInt, ofInt_toNat, BitVec.setWidth_eq]
  exact hset ▸ writeByte_checked address value

theorem storeDigits_does (w : Word) : Does (storeDigits : Handler ρ) w (.storeDigits w.x) := by
  intro m _ value
  have hexecute : m.execute value (.storeDigits w.x) = { m with
      memory := ((m.memory.set (m.indexAddress + BitVec.ofNat 12 0) (m.registers[w.x] / 100)).set
        (m.indexAddress + BitVec.ofNat 12 1) (m.registers[w.x] / 10 % 10)).set
        (m.indexAddress + BitVec.ofNat 12 2) (m.registers[w.x] % 10) } := by
    rw [BitVec.add_zero, show BitVec.ofNat 12 2 = 1 + 1 from rfl, ← BitVec.add_assoc]
    rfl
  have hhundreds : (m.registers[w.x].toNat : Int) / 100 = (m.registers[w.x] / 100).toNat := by
    rw [BitVec.toNat_udiv]
    rfl
  have htens : (m.registers[w.x].toNat : Int) / 10 % 10 = (m.registers[w.x] / 10 % 10).toNat := by
    rw [BitVec.toNat_umod, BitVec.toNat_udiv]
    rfl
  have hones : (m.registers[w.x].toNat : Int) % 10 = (m.registers[w.x] % 10).toNat := by
    rw [BitVec.toNat_umod]
    rfl
  rw [hexecute]
  exact (register_checked w.x).bind (.get ((writeByte_index 0 (Int.add_zero _).symm hhundreds).bind
    (.get ((writeByte_index 1 rfl htens).bind (.get (writeByte_index 2 rfl hones))))))

theorem toNat_register {x : Nat} (hx : x < 16) : (BitVec.ofNat 4 x).toNat = x :=
  (BitVec.toNat_ofNat ..).trans (Nat.mod_eq_of_lt hx)

theorem drop_registers (m : Machine) {x : Nat} (hx : x < 16) : m.registers.toList.drop x =
    m.registers[BitVec.ofNat 4 x] :: m.registers.toList.drop (x + 1) := by
  have hlt : x < m.registers.toList.length := by
    rw [Table.length_toList]
    exact hx
  have hget := m.registers.getElem?_toList (BitVec.ofNat 4 x)
  rw [toNat_register hx, List.getElem?_eq_getElem hlt] at hget
  rw [List.drop_eq_getElem_cons hlt, Option.some.inj hget]

theorem storeEach_checked {x n : Nat} (hn : x + n ≤ 16) :
    Yields (storeEach (List.range' x n)) (m.checked source) ()
      ({ m with
        memory := m.memory.store (m.indexAddress + BitVec.ofNat 12 x) ((m.registers.toList.drop x).take n)
        }.checked source) := by
  induction n generalizing m x with
  | zero =>
    rw [List.take_zero]
    exact .pure _ _
  | succ n ih =>
    have hx : x < 16 := by omega
    have hnext : m.indexAddress + BitVec.ofNat 12 x + 1 = m.indexAddress + BitVec.ofNat 12 (x + 1) := by
      rw [BitVec.add_assoc, BitVec.ofNat_add]
      rfl
    have hregister : Yields _ (m.checked source) _ _ := register_checked (BitVec.ofNat 4 x)
    rw [toNat_register hx] at hregister
    rw [List.range'_succ, drop_registers m hx, List.take_succ_cons, Memory.store, hnext]
    exact hregister.bind ((writeByte_index x rfl rfl).bind (ih (by omega)))

theorem storeRegisters_does (w : Word) : Does (storeRegisters : Handler ρ) w (.storeRegisters w.x) := by
  intro m source _
  have hx := w.x.isLt
  have h : Yields _ (m.checked source) _ _ := storeEach_checked (x := 0) (n := w.x.toNat + 1) (by omega)
  rw [List.drop_zero, BitVec.add_zero, ← List.range_eq_range'] at h
  exact h

/-- The registers with `n` of them from `x` on loaded from memory. -/
def loaded (m : Machine) (x n : Nat) : Table 4 Byte := .ofFn fun i =>
  if x ≤ i.toNat ∧ i.toNat < x + n then m.memory[m.indexAddress + i.setWidth 12] else m.registers[i]

theorem loadEach_checked {x n : Nat} (hn : x + n ≤ 16) :
    Yields (loadEach (List.range' x n)) (m.checked source) ()
      ({ m with registers := loaded m x n }.checked source) := by
  induction n generalizing m x with
  | zero =>
    have hnone : loaded m x 0 = m.registers := by
      refine Table.ext fun i => ?_
      rw [loaded, Table.getElem_ofFn, if_neg (by omega)]
    rw [hnone]
    exact .pure _ _
  | succ n ih =>
    have hx : x < 16 := by omega
    let b := m.memory[m.indexAddress + BitVec.ofNat 12 x]
    -- register `x` is loaded first, and then `n` others by the machine that has it
    have hstep : loaded (m.setRegister (BitVec.ofNat 4 x) b) (x + 1) n = loaded m x (n + 1) := by
      refine Table.ext fun i => ?_
      rw [loaded, loaded, Table.getElem_ofFn, Table.getElem_ofFn]
      show (if x + 1 ≤ i.toNat ∧ i.toNat < x + 1 + n then m.memory[m.indexAddress + i.setWidth 12]
        else (m.registers.set (BitVec.ofNat 4 x) b)[i]) = _
      rw [Table.getElem_set]
      by_cases hi : BitVec.ofNat 4 x = i
      · have hix : i.toNat = x := hi ▸ toNat_register hx
        rw [if_neg (by omega), if_pos hi, if_pos (by omega), ← hi, BitVec.setWidth_ofNat_of_le_of_lt (by decide) hx]
      · have hix : i.toNat ≠ x := fun h => hi (BitVec.eq_of_toNat_eq ((toNat_register hx).trans h.symm))
        rw [if_neg hi]
        exact if_congr (by omega) rfl rfl
    have hregister : Yields _ (m.checked source) _ _ := setRegister_checked (BitVec.ofNat 4 x) (b := b) rfl
    rw [toNat_register hx] at hregister
    rw [List.range'_succ, ← hstep]
    exact (readByte_index x).bind (hregister.bind (ih (by omega)))

theorem loadRegisters_does (w : Word) : Does (loadRegisters : Handler ρ) w (.loadRegisters w.x) := by
  intro m source _
  have hx := w.x.isLt
  have hloaded : m.loadRegisters w.x = { m with registers := loaded m 0 (w.x.toNat + 1) } := by
    have hle (i : Nibble) : i ≤ w.x ↔ 0 ≤ i.toNat ∧ i.toNat < 0 + (w.x.toNat + 1) := by
      rw [BitVec.le_def]
      omega
    unfold Machine.loadRegisters loaded
    simp only [hle]
  have h : Yields _ (m.checked source) _ _ := loadEach_checked (x := 0) (n := w.x.toNat + 1) (by omega)
  rw [← hloaded, ← List.range_eq_range'] at h
  exact h

end ChipEight.Checked.Handler
