import ChipEight.Proofs.Engine.Footprint

/-!
# Arithmetic with a flag

The result of an arithmetic word is a byte, and its flag stands for what the byte has no room for. Together they satisfy
an equation of integers (`Word.Balances`) that has one solution only. The flag is written after the result, so
it is there also if both go to the flag register (`exists_setWithFlag`).
-/

namespace ChipEight

/-- The words of kind 8 that write the flag register besides their own. -/
def Word.Flags (w : Word) : Prop := w.kind = 0x8 ∧ w.n ∈ [0x4, 0x5, 0x6, 0x7, 0xe]

instance (w : Word) : Decidable w.Flags := inferInstanceAs (Decidable (_ ∧ _))

/-- The equation between the operands of such a word, its result and its flag. -/
def Word.Balances (w : Word) (a b result flag : Int) : Prop :=
  match w.n with
  | 0x4#4 => result + 256 * flag = a + b
  | 0x5#4 => result = a - b + 256 * (1 - flag)
  | 0x6#4 => 2 * result + flag = a
  | 0x7#4 => result = b - a + 256 * (1 - flag)
  | 0xe#4 => result + 256 * flag = 2 * a
  | _ => False

/-! ### Bytes -/

namespace Byte
variable (a b : Byte)

theorem toNat_decide (p : Prop) [Decidable p] : (decide p).toNat = if p then 1 else 0 :=
  apply_ite Bool.toNat p true false

theorem add_carry : ((a + b).toNat : Int) + 256 * (decide (255 < a.toNat + b.toNat)).toNat = a.toNat + b.toNat := by
  have ha := a.isLt
  have hb := b.isLt
  rw [BitVec.toNat_add, toNat_decide]
  split <;> omega

theorem sub_borrow : ((a - b).toNat : Int) = a.toNat - b.toNat + 256 * (1 - (decide (b ≤ a)).toNat) := by
  have ha := a.isLt
  have hb := b.isLt
  rw [BitVec.toNat_sub, toNat_decide]
  split
  next h =>
    have hle : b.toNat ≤ a.toNat := h
    omega
  next h =>
    have hlt : ¬b.toNat ≤ a.toNat := h
    omega

theorem shiftRight_out : 2 * ((a >>> 1).toNat : Int) + (a.getLsbD 0).toNat = a.toNat := by
  rw [← BitVec.testBit_toNat, Nat.testBit_zero, BitVec.toNat_ushiftRight, Nat.shiftRight_eq_div_pow,
    toNat_decide]
  split <;> omega

theorem shiftLeft_out : ((a <<< 1).toNat : Int) + 256 * (a.getLsbD 7).toNat = 2 * a.toNat := by
  have ha := a.isLt
  have hbit : a.getLsbD 7 = decide (128 ≤ a.toNat) := a.msb_eq_getLsbD_last.symm.trans a.msb_eq_decide
  rw [hbit, BitVec.toNat_shiftLeft, Nat.shiftLeft_eq, toNat_decide]
  split <;> omega

end Byte

/-! ### Registers -/

namespace Machine

/-- What an arithmetic word makes of the registers. The result is discarded if it goes to the flag register. -/
structure Computed (m m' : Machine) (w : Word) : Prop where
  balance : w.Flags → ∃ result flag : Nat, result ≤ 255 ∧ flag ≤ 1 ∧
    w.Balances m.registers[w.x].toNat m.registers[w.y].toNat result flag ∧
    (w.x ≠ flagRegister → m'.registers[w.x].toNat = result) ∧ m'.registers[flagRegister].toNat = flag
  others : ∀ r : Nibble, r ≠ w.x → r ≠ flagRegister → m'.registers[r] = m.registers[r]
  unflagged : ¬w.Flags → ∀ r : Nibble, r ≠ w.x → m'.registers[r] = m.registers[r]

variable {m : Machine} {w : Word}

theorem exists_setWithFlag (h : w.Flags) (m : Machine) (value : Int) : ∃ (result : Byte) (flag : Bool),
    m.execute value (.ofWord w) = m.setWithFlag w.x result flag ∧
      w.Balances m.registers[w.x].toNat m.registers[w.y].toNat result.toNat flag.toNat := by
  obtain ⟨hkind, hn⟩ := h
  simp only [List.mem_cons, List.not_mem_nil, or_false] at hn
  rcases hn with hn | hn | hn | hn | hn <;> simp only [Word.Balances, hn]
  · have hadd : Instruction.ofWord w = .add w.x w.y := Instruction.ofWord_eq_iff.2 ⟨hkind, hn, rfl, rfl⟩
    exact ⟨_, _, congrArg _ hadd, Byte.add_carry ..⟩
  · have hsubtract : Instruction.ofWord w = .subtract w.x w.y := Instruction.ofWord_eq_iff.2 ⟨hkind, hn, rfl, rfl⟩
    exact ⟨_, _, congrArg _ hsubtract, Byte.sub_borrow ..⟩
  · have hright : Instruction.ofWord w = .shiftRight w.x := Instruction.ofWord_eq_iff.2 ⟨hkind, hn, rfl⟩
    exact ⟨_, _, congrArg _ hright, Byte.shiftRight_out _⟩
  · have hsubtract : Instruction.ofWord w = .subtractFrom w.x w.y := Instruction.ofWord_eq_iff.2 ⟨hkind, hn, rfl, rfl⟩
    exact ⟨_, _, congrArg _ hsubtract, Byte.sub_borrow ..⟩
  · have hleft : Instruction.ofWord w = .shiftLeft w.x := Instruction.ofWord_eq_iff.2 ⟨hkind, hn, rfl⟩
    exact ⟨_, _, congrArg _ hleft, Byte.shiftLeft_out _⟩

theorem writes_of_arithmetic {p : Keypad} {r : Nibble} (h : w.kind = 0x7 ∨ w.kind = 0x8)
    (hw : (Instruction.ofWord w).Writes p r) : r = w.x ∨ r = flagRegister ∧ w.Flags := by
  rcases (Instruction.ofWord_encodes w).of_writes hw with ⟨hx, -⟩ | ⟨hflag, hkind⟩ | ⟨-, hkind, -⟩
  · exact .inl hx
  · refine .inr ⟨hflag, ?_⟩
    rcases hkind with hkind | hkind
    · refine ⟨hkind.1, ?_⟩
      have hn := hkind.2
      simp only [List.mem_cons, List.not_mem_nil, or_false]
      bv_omega
    · rw [hkind] at h
      cases h <;> contradiction
  · rw [hkind] at h
    cases h <;> contradiction

theorem computed_execute (h : w.kind = 0x7 ∨ w.kind = 0x8) (m : Machine) (value : Int) :
    m.Computed (m.execute value (.ofWord w)) w where
  balance hw := by
    obtain ⟨result, flag, hexecute, hbalance⟩ := exists_setWithFlag hw m value
    rw [hexecute]
    refine ⟨result.toNat, flag.toNat, Nat.le_of_lt_succ result.isLt, Bool.toNat_le flag, hbalance, fun hx => ?_, ?_⟩
    · rw [getElem_setWithFlag_self result flag hx]
    · exact toNat_flag_setWithFlag ..
  others _ hx hflag := execute_registers_of_not_writes value fun hr =>
    (writes_of_arithmetic h hr).elim hx fun hr => hflag hr.1
  unflagged hw _ hx := execute_registers_of_not_writes value fun hr =>
    (writes_of_arithmetic h hr).elim hx fun hr => hw hr.2

end Machine

namespace Engine
variable {ρ : Type} [RandomSource ρ]

/-- After an arithmetic word the result and the flag satisfy the equation of its operands, also if they are the same
register or if one of them is the flag register. The words without a flag change only their own register. -/
theorem arithmetic_is_exact (e : Engine ρ) (tracing : Bool) {w : Word} (h : w.kind = 0x7 ∨ w.kind = 0x8) :
    let out := e.execute tracing (.ofWord w)
    let cycled := e.cycle tracing
    (out.fault = none ∧ e.machine.Computed out.engine.machine w) ∧
    (e.machine.fetch = w → cycled.fault = none ∧ e.machine.Computed cycled.engine.machine w) := by
  intro out cycled
  have hkind : w.kind ≠ 0xc := by
    rcases h with h | h <;> rw [h] <;> decide
  constructor
  · have hout : out = _ := execute_of_kind hkind tracing e
    rw [hout]
    exact ⟨rfl, Machine.computed_execute h e.machine 0⟩
  · rintro rfl
    have hcycled : cycled = _ := cycle_of_kind hkind tracing
    rw [hcycled]
    -- neither the step over the word nor the timers touch a register
    exact ⟨rfl, { Machine.computed_execute h e.machine.advance 0 with }⟩

/-- The word `8FF4`, which adds the flag register to itself. -/
def doubleFlag : Engine Random.Script :=
  ⟨{ Machine.fresh with
      memory := Machine.fresh.memory.store 0x200 [0x8f, 0xf4]
      registers := (Table.replicate 4 200).set 1 3 }, ⟨[]⟩⟩

theorem arithmetic_is_exact_on_flag_register :
    (0x8ff4 : Word).kind = 0x8 ∧ (0x8125 : Word).kind = 0x8 ∧
    let doubled := (doubleFlag.cycle true).engine.machine
    let lessened := (doubleFlag.execute true (.ofWord 0x8125)).engine.machine
    doubled.registers[flagRegister].toNat = 1 ∧ doubled.registers[(1 : Nibble)].toNat = 3 ∧
      lessened.registers[(1 : Nibble)].toNat = 59 ∧ lessened.registers[flagRegister].toNat = 0 := by
  refine ⟨by decide, by decide, ?_⟩
  intro doubled lessened
  obtain ⟨-, hcycle⟩ := arithmetic_is_exact doubleFlag true (w := 0x8ff4) (.inr (by decide))
  obtain ⟨⟨-, hlessened⟩, -⟩ := arithmetic_is_exact doubleFlag true (w := 0x8125) (.inr (by decide))
  obtain ⟨-, hdoubled⟩ := hcycle (by decide +kernel)
  obtain ⟨sum, carry, hsum, hcarry, hadd, -, hflag⟩ := hdoubled.balance (by decide)
  obtain ⟨difference, borrow, hdifference, hborrow, hsubtract, hresult, hflag'⟩ := hlessened.balance (by decide)
  have hadd' : (sum : Int) + 256 * carry = 200 + 200 := hadd
  have hsubtract' : (difference : Int) = 3 - 200 + 256 * (1 - borrow) := hsubtract
  refine ⟨?_, ?_, ?_, ?_⟩
  · rw [hflag]
    omega
  · rw [hdoubled.others 1 (by decide) (by decide)]
    decide +kernel
  · refine (hresult (by decide)).trans ?_
    omega
  · rw [hflag']
    omega

end Engine
end ChipEight
