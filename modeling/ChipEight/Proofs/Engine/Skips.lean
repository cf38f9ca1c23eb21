import ChipEight.Monitor.Request
import ChipEight.Proofs.Engine.Cycle

/-!
# Skips

Three tests decide a skip, and each of them has two families of words: those that skip if it holds, and those that skip
unless it does. A cycle on either moves on by one word or by two and lets the timers tick, and leaves all else as it was
(`passed_skipIf`). So of two copies with opposite skips exactly one skips.
-/

namespace ChipEight

/-- What a skip looks at. -/
inductive SkipTest where
  /-- A register holds a constant. -/
  | constant (x : Nibble) (k : Byte)
  /-- Two registers hold the same. -/
  | same (x y : Nibble)
  /-- The key is down that the low digit of a register names. -/
  | key (x : Nibble)
deriving DecidableEq, Repr

namespace SkipTest

def holds (m : Machine) : SkipTest → Bool
  | .constant x k => m.registers[x] = k
  | .same x y => m.registers[x] = m.registers[y]
  | .key x => m.keypad.isDown (.ofNat 4 (m.registers[x].toNat % 16))

/-- The words that skip if the test holds. -/
def SkipsIf (w : Word) : SkipTest → Prop
  | .constant x k => w.kind = 0x3 ∧ w.x = x ∧ w.kk = k
  | .same x y => w.kind = 0x5 ∧ w.x = x ∧ w.y = y
  | .key x => w.kind = 0xe ∧ w.kk = 0x9e ∧ w.x = x

/-- The words that skip unless the test holds. -/
def SkipsUnless (w : Word) : SkipTest → Prop
  | .constant x k => w.kind = 0x4 ∧ w.x = x ∧ w.kk = k
  | .same x y => w.kind = 0x9 ∧ w.x = x ∧ w.y = y
  | .key x => w.kind = 0xe ∧ w.kk = 0xa1 ∧ w.x = x

variable {t : SkipTest} {w : Word}

theorem key_eq (b : Byte) : BitVec.ofNat 4 (b.toNat % 16) = b.setWidth 4 :=
  BitVec.eq_of_toNat_eq (by rw [BitVec.toNat_ofNat, BitVec.toNat_setWidth, Nat.mod_mod])

theorem SkipsIf.execute (h : t.SkipsIf w) (m : Machine) (value : Int) :
    m.execute value (.ofWord w) = m.skipIf (t.holds m) := by
  cases t with
  | constant x k =>
    obtain ⟨hkind, rfl, rfl⟩ := h
    exact congrArg _ (Instruction.ofWord_eq_iff (i := .skipIfEqual w.x w.kk).2 ⟨hkind, rfl, rfl⟩)
  | same x y =>
    obtain ⟨hkind, rfl, rfl⟩ := h
    exact congrArg _ (Instruction.ofWord_eq_iff (i := .skipIfSame w.x w.y).2 ⟨hkind, rfl, rfl⟩)
  | key x =>
    obtain ⟨hkind, hkk, rfl⟩ := h
    rw [Instruction.ofWord_eq_iff (i := .skipIfDown w.x).2 ⟨hkind, hkk, rfl⟩, holds, key_eq]
    rfl

theorem SkipsUnless.execute (h : t.SkipsUnless w) (m : Machine) (value : Int) :
    m.execute value (.ofWord w) = m.skipIf (!t.holds m) := by
  cases t with
  | constant x k =>
    obtain ⟨hkind, rfl, rfl⟩ := h
    rw [Instruction.ofWord_eq_iff (i := .skipUnlessEqual w.x w.kk).2 ⟨hkind, rfl, rfl⟩, Machine.execute,
      decide_not]
    rfl
  | same x y =>
    obtain ⟨hkind, rfl, rfl⟩ := h
    rw [Instruction.ofWord_eq_iff (i := .skipUnlessSame w.x w.y).2 ⟨hkind, rfl, rfl⟩, Machine.execute,
      decide_not]
    rfl
  | key x =>
    obtain ⟨hkind, hkk, rfl⟩ := h
    rw [Instruction.ofWord_eq_iff (i := .skipUnlessDown w.x).2 ⟨hkind, hkk, rfl⟩, holds, key_eq]
    rfl

theorem SkipsIf.kind_ne (h : t.SkipsIf w) : w.kind ≠ 0xc := by
  cases t <;> rw [h.1] <;> decide

theorem SkipsUnless.kind_ne (h : t.SkipsUnless w) : w.kind ≠ 0xc := by
  cases t <;> rw [h.1] <;> decide

/-- No test looks at memory or at the program counter. -/
theorem holds_enterWord (t : SkipTest) (w : Word) (m : Machine) :
    t.holds (Engine.enterWord w m).advance = t.holds m := by
  cases t <;> rfl

end SkipTest

/-- The machine `m'` has entered the word `w`, passed `step` bytes, and let the timers tick. -/
structure Machine.Passed (w : Word) (step : Nat) (m m' : Machine) : Prop where
  pc : m'.pc.toNat = (m.pc.toNat + step) % 4096
  word : m'.memory.word m.pc = w
  memory : ∀ a : Address, a ≠ m.pc → a ≠ m.pc + 1 → m'.memory[a] = m.memory[a]
  delay : m'.delay.toNat = m.delay.toNat - 1
  sound : m'.sound.toNat = m.sound.toNat - 1
  others : m' = { m with
    memory := m'.memory, pc := m'.pc, delay := m'.delay, sound := m'.sound, drawn := false }

namespace Engine
variable {w : Word} {m : Machine}

theorem fetch_enterWord (w : Word) (m : Machine) : (enterWord w m).fetch = w := Memory.word_store ..

theorem memory_enterWord_of_ne {a : Address} (h : a ≠ m.pc) (h' : a ≠ m.pc + 1) :
    (enterWord w m).memory[a] = m.memory[a] :=
  (Table.getElem_set_ne _ _ h'.symm).trans (Table.getElem_set_ne _ _ h.symm)

theorem passed_skipIf (w : Word) (m : Machine) (condition : Bool) :
    m.Passed w (if condition then 4 else 2) ((enterWord w m).advance.skipIf condition).tick := by
  have hpc : ((enterWord w m).advance.skipIf condition).pc.toNat =
      (m.pc.toNat + if condition then 4 else 2) % 4096 := by
    rw [Machine.skipIf_eq]
    cases condition with
    | true =>
      show (m.pc + 2 + 2).toNat = _
      rw [BitVec.add_assoc, BitVec.toNat_add]
      rfl
    | false => exact BitVec.toNat_add ..
  rw [Machine.skipIf_eq] at hpc ⊢
  exact ⟨hpc, Memory.word_store .., fun a h h' => memory_enterWord_of_ne h h', Machine.toNat_countDown _,
    Machine.toNat_countDown _, rfl⟩

variable {ρ : Type} [RandomSource ρ]

theorem cycle_enterWord (hkind : w.kind ≠ 0xc) (e : Engine ρ) (tracing : Bool) :
    (e.mapMachine (enterWord w)).cycle tracing =
      ⟨⟨((enterWord w e.machine).advance.execute 0 (.ofWord w)).tick, e.source⟩, none,
        if tracing then [⟨e.machine.pc, .ofWord w⟩] else []⟩ := by
  have hfetch : (e.mapMachine (enterWord w)).machine.fetch = w := fetch_enterWord w e.machine
  have hkind' : (e.mapMachine (enterWord w)).machine.fetch.kind ≠ 0xc := by rwa [hfetch]
  rw [cycle_of_kind hkind', nextTrace, next, hfetch]
  rfl

/-- Of two copies of an engine with opposite skips at the program counter, one passes two words and the other one. They
agree on all but the program counter and the bytes of the skip. -/
theorem opposite_skips_part (e : Engine ρ) (tracing : Bool) (t : SkipTest) {w w' : Word} (h : t.SkipsIf w)
    (h' : t.SkipsUnless w') :
    let out := (e.mapMachine (enterWord w)).cycle tracing
    let out' := (e.mapMachine (enterWord w')).cycle tracing
    let m := out.engine.machine
    let m' := out'.engine.machine
    out.fault = none ∧ out'.fault = none ∧ out.engine.source = e.source ∧ out'.engine.source = e.source ∧
      e.machine.Passed w (if t.holds e.machine then 4 else 2) m ∧
      e.machine.Passed w' (if t.holds e.machine then 2 else 4) m' ∧
      m' = { m with memory := m'.memory, pc := m'.pc } ∧
      ∀ a : Address, a ≠ e.machine.pc → a ≠ e.machine.pc + 1 → m'.memory[a] = m.memory[a] := by
  intro out out' m m'
  have hout : out = _ := cycle_enterWord h.kind_ne e tracing
  have hout' : out' = _ := cycle_enterWord h'.kind_ne e tracing
  have hm : m = ((enterWord w e.machine).advance.skipIf (t.holds e.machine)).tick := by
    rw [show m = out.engine.machine from rfl, hout, h.execute, t.holds_enterWord]
  have hm' : m' = ((enterWord w' e.machine).advance.skipIf (!t.holds e.machine)).tick := by
    rw [show m' = out'.engine.machine from rfl, hout', h'.execute, t.holds_enterWord]
  have hpassed : e.machine.Passed w (if t.holds e.machine then 4 else 2) m := hm ▸ passed_skipIf w e.machine _
  have hpassed' : e.machine.Passed w' (if t.holds e.machine then 2 else 4) m' := by
    rw [hm']
    cases t.holds e.machine with
    | true => exact passed_skipIf w' e.machine false
    | false => exact passed_skipIf w' e.machine true
  refine ⟨by rw [hout], by rw [hout'], by rw [hout], by rw [hout'], hpassed, hpassed', ?_, fun a ha ha' => ?_⟩
  · rw [hm, hm', Machine.skipIf_eq, Machine.skipIf_eq]
    rfl
  · rw [hpassed.memory a ha ha', hpassed'.memory a ha ha']

/-- The program counter at the last byte of memory, and key 12 down, which the low digit of a register names. -/
def keyAtTheEnd : Engine Random.Script :=
  ⟨{ Machine.fresh with
      pc := 0xfff
      keypad := Keypad.released.set 0xc true
      registers := (Table.replicate 4 0).set 3 0x5c
      delay := 1 }, ⟨[]⟩⟩

theorem opposite_skips_part_over_the_end :
    (SkipTest.key 3).SkipsIf 0xe39e ∧ (SkipTest.key 3).SkipsUnless 0xe3a1 ∧
    let m := ((keyAtTheEnd.mapMachine (enterWord 0xe39e)).cycle true).engine.machine
    let m' := ((keyAtTheEnd.mapMachine (enterWord 0xe3a1)).cycle true).engine.machine
    m.pc.toNat = 3 ∧ m'.pc.toNat = 1 ∧ m.delay.toNat = 0 ∧ m'.delay.toNat = 0 := by
  have hif : (SkipTest.key 3).SkipsIf 0xe39e := ⟨by decide, by decide, by decide⟩
  have hunless : (SkipTest.key 3).SkipsUnless 0xe3a1 := ⟨by decide, by decide, by decide⟩
  have hdown : (SkipTest.key 3).holds keyAtTheEnd.machine = true := by decide +kernel
  refine ⟨hif, hunless, ?_⟩
  intro m m'
  obtain ⟨-, -, -, -, hpassed, hpassed', -⟩ := opposite_skips_part keyAtTheEnd true (.key 3) hif hunless
  rw [hdown] at hpassed hpassed'
  exact ⟨hpassed.pc, hpassed'.pc, hpassed.delay, hpassed'.delay⟩

end Engine
end ChipEight
