import ChipEight.Proofs.Engine.Schedule

/-!
# Calls return

A call puts the address behind it on the stack, and the return that matches it comes back to this address
with the stack pointer where it was. Between them the stack may hold up to sixteen addresses: while the depth
`d` of calls stays between 1 and 16, the pointer is `d` slots above its start and nothing reaches the slot of
the first call (`Within`). A seventeenth call would.
-/

namespace ChipEight

def Instruction.depthChange : Instruction → Int
  | .call _ => 1
  | .ret => -1
  | _ => 0

/-- The depth of calls: the calls less the returns. -/
def Instruction.depth : List Instruction → Int
  | [] => 0
  | i :: is => i.depthChange + depth is

namespace Instruction

@[simp] theorem depth_nil : depth [] = 0 := rfl

@[simp] theorem depth_cons (i : Instruction) (is : List Instruction) :
    depth (i :: is) = i.depthChange + depth is := rfl

theorem depth_append (is js : List Instruction) : depth (is ++ js) = depth is + depth js := by
  induction is with
  | nil => simp
  | cons i is ih => rw [List.cons_append, depth_cons, depth_cons, ih, Int.add_assoc]

theorem eq_ret_of_depthChange_neg {i : Instruction} (h : i.depthChange < 0) : i = .ret := by
  cases i with
  | ret => rfl
  | _ => simp [depthChange] at h

end Instruction

namespace Engine
variable {ρ : Type}

/-- The engine is `d` calls deep above the stack pointer `s`, and the first of these calls returns to `p`. -/
structure Within (s : Nibble) (p : Address) (d : Int) (e : Engine ρ) : Prop where
  pointer : e.machine.stack.pointer = s + BitVec.ofInt 4 d
  slot : e.machine.stack.slots[s + 1] = p

namespace Within
variable {s : Nibble} {p : Address} {d : Int} {e e' : Engine ρ}

theorem of_stack_eq (h : e.Within s p d) (hs : e'.machine.stack = e.machine.stack) : e'.Within s p d :=
  ⟨by rw [hs, h.pointer], by rw [hs, h.slot]⟩

/-- The slots above the first one, up to the sixteenth, are others than it. -/
theorem slot_ne (h₁ : 1 ≤ d) (h₁₆ : d + 1 ≤ 16) : s + BitVec.ofInt 4 d + 1 ≠ s + 1 := by
  intro h
  have hd : (s + BitVec.ofInt 4 d).toNat = s.toNat := congrArg BitVec.toNat (by simpa using h)
  rw [BitVec.toNat_add, BitVec.toNat_ofInt] at hd
  omega

theorem push (h : e.Within s p d) (h₁ : 1 ≤ d) (h₁₆ : d + 1 ≤ 16) {a : Address}
    (hs : e'.machine.stack = e.machine.stack.push a) : e'.Within s p (d + 1) := by
  constructor
  · rw [hs, Stack.pointer_push, h.pointer, BitVec.ofInt_add, BitVec.add_assoc]
    rfl
  · rw [hs]
    show (e.machine.stack.slots.set (e.machine.stack.pointer + 1) a)[s + 1] = p
    rw [h.pointer, Table.getElem_set_ne _ _ (slot_ne h₁ h₁₆), h.slot]

theorem pop (h : e.Within s p d) (hs : e'.machine.stack = e.machine.stack.pop.2) :
    e'.Within s p (d - 1) := by
  constructor
  · rw [hs]
    show e.machine.stack.pointer - 1 = _
    rw [h.pointer, Int.sub_eq_add_neg, BitVec.ofInt_add, BitVec.sub_eq_add_neg, BitVec.add_assoc]
    rfl
  · rw [hs]
    exact h.slot

variable [RandomSource ρ]

theorem cycle (h : e.Within s p d) (h₁ : 1 ≤ d) (h₁₆ : d + e.next.depthChange ≤ 16) :
    (e.act .cycle).Within s p (d + e.next.depthChange) := by
  rw [act_cycle]
  have hs := cycle_stack false e
  cases hi : e.next with
  | call target =>
    rw [hi] at hs h₁₆
    exact h.push h₁ h₁₆ hs
  | ret =>
    rw [hi] at hs
    exact h.pop hs
  | _ =>
    rw [hi] at hs
    simpa only [Instruction.depthChange, Int.add_zero] using h.of_stack_eq hs

/-- What is done between two cycles does not touch the stack. -/
theorem outside (h : e.Within s p d) {a : Action} (ha : a ≠ .cycle) : (e.act a).Within s p d := by
  cases a with
  | cycle => exact absurd rfl ha
  | write | load | setKey | releaseAll => exact h.of_stack_eq rfl

/-- The depth is kept by a whole schedule, if it stays from 1 to 16 all the way. -/
theorem after {as : List Action} (h : e.Within s p d)
    (hd : ∀ b, b <+: as → 1 ≤ d + Instruction.depth (e.executed b) ∧
      d + Instruction.depth (e.executed b) ≤ 16) :
    (e.after as).Within s p (d + Instruction.depth (e.executed as)) := by
  -- on the schedule: the prefixes of the rest are those of the whole that have the first action
  induction as generalizing e d with
  | nil => simpa [executed, Engine.after] using h
  | cons a as ih =>
    have h₁ : 1 ≤ d := by
      have := (hd [] List.nil_prefix).1
      simpa [executed] using this
    by_cases ha : a = .cycle
    · subst ha
      have hsum (b : List Action) : d + Instruction.depth (e.executed (.cycle :: b)) =
          d + e.next.depthChange + Instruction.depth ((e.act .cycle).executed b) := by
        rw [executed, Instruction.depth_cons, Int.add_assoc]
      have h₁₆ := (hd [.cycle] (List.prefix_append _ as)).2
      rw [hsum] at h₁₆ ⊢
      refine ih (h.cycle h₁ (by simpa [executed] using h₁₆)) fun b hb => ?_
      rw [← hsum]
      exact hd _ (List.cons_prefix_cons.2 ⟨rfl, hb⟩)
    · have hex (b : List Action) : e.executed (a :: b) = (e.act a).executed b := by
        cases a with
        | cycle => exact absurd rfl ha
        | write | load | setKey | releaseAll => rfl
      rw [hex]
      refine ih (h.outside ha) fun b hb => ?_
      rw [← hex]
      exact hd _ (List.cons_prefix_cons.2 ⟨rfl, hb⟩)

end Within

theorem next_of_kind_two {e : Engine ρ} (h : e.machine.fetch.kind = 2) : ∃ target, e.next = .call target := by
  refine ⟨e.machine.fetch.nnn, ?_⟩
  simp only [next, Instruction.ofWord, h]
  rfl

variable [RandomSource ρ]

theorem within_of_call {e : Engine ρ} {target : Address} (h : e.next = .call target) :
    (e.act .cycle).Within e.machine.stack.pointer (e.machine.pc + 2) 1 := by
  have hs := cycle_stack false e
  rw [h] at hs
  rw [act_cycle]
  refine ⟨?_, ?_⟩ <;> rw [hs]
  · rfl
  · exact Table.getElem_set_self ..

theorem Within.ret {s : Nibble} {p : Address} {e : Engine ρ} (h : e.Within s p 1) (hret : e.next = .ret) :
    (e.act .cycle).machine.pc = p ∧ (e.act .cycle).machine.stack.pointer = s := by
  have hp : e.machine.stack.pointer = s + 1 := h.pointer
  rw [act_cycle]
  constructor
  · rw [cycle_pc_of_ret hret, Stack.top, hp, h.slot]
  · have hs := cycle_stack false e
    rw [hret] at hs
    rw [hs]
    show e.machine.stack.pointer - 1 = s
    rw [hp, BitVec.add_sub_cancel]

/-- A call and the return that matches it: the depth of calls, which the call makes 1, stays from 1 to 16 until
a return makes it 0. -/
theorem call_returns (e : Engine ρ) (between : List Action) (hcall : e.machine.fetch.kind = 2)
    (hdepth : ∀ b, b <+: between →
      1 ≤ Instruction.depth (e.executed (.cycle :: b)) ∧ Instruction.depth (e.executed (.cycle :: b)) ≤ 16)
    (hzero : Instruction.depth (e.executed (.cycle :: between ++ [.cycle])) = 0) :
    (e.after (.cycle :: between ++ [.cycle])).machine.pc.toNat = (e.machine.pc.toNat + 2) % 0x1000 ∧
    (e.after (.cycle :: between ++ [.cycle])).machine.stack.pointer = e.machine.stack.pointer := by
  obtain ⟨target, hnext⟩ := next_of_kind_two hcall
  have hsum (b : List Action) : Instruction.depth (e.executed (.cycle :: b)) =
      1 + Instruction.depth ((e.act .cycle).executed b) := by
    rw [executed, Instruction.depth_cons, hnext]
    rfl
  have hw := (within_of_call hnext).after fun b hb => hsum b ▸ hdepth b hb
  -- the last cycle lowers the depth from at least 1 to 0, so it is a return and starts at depth 1
  have hlast : Instruction.depth (e.executed (.cycle :: between)) +
      (e.after (.cycle :: between)).next.depthChange = 0 := by
    rw [executed_append, Instruction.depth_append] at hzero
    simpa only [executed, Instruction.depth_cons, Instruction.depth_nil, Int.add_zero] using hzero
  have hpos := (hdepth between (List.prefix_refl _)).1
  have hret := Instruction.eq_ret_of_depthChange_neg
    (show (e.after (.cycle :: between)).next.depthChange < 0 by omega)
  have hone : 1 + Instruction.depth ((e.act .cycle).executed between) = 1 := by
    rw [hret, hsum, Instruction.depthChange] at hlast
    omega
  rw [hone] at hw
  rw [after_append]
  obtain ⟨hpc, hsp⟩ := hw.ret hret
  refine ⟨?_, hsp⟩
  rw [show (after (e.after (.cycle :: between)) [.cycle]).machine.pc = e.machine.pc + 2 from hpc,
    BitVec.toNat_add]
  rfl

/-- An engine with a call of `0x020` in every word of its memory and its stack pointer in the middle. -/
def callingEverywhere : Engine Random.Script :=
  ⟨{ Machine.fresh with memory := .replicate 12 0x20, stack := ⟨.replicate 4 0, 9⟩ }, ⟨[]⟩⟩

/-- Fifteen more calls, and as many returns after returns were written over the calls. -/
def sixteenDeep : List Action :=
  .replicate 15 .cycle ++ [.write 0x20 0x00, .write 0x21 0xee, .write 0x22 0x00, .write 0x23 0xee] ++
    .replicate 15 .cycle

theorem call_returns_from_sixteen_deep :
    callingEverywhere.machine.fetch.kind = 2 ∧
    ((callingEverywhere.after (.cycle :: sixteenDeep ++ [.cycle])).machine.pc.toNat =
        (callingEverywhere.machine.pc.toNat + 2) % 0x1000 ∧
      (callingEverywhere.after (.cycle :: sixteenDeep ++ [.cycle])).machine.stack.pointer =
        callingEverywhere.machine.stack.pointer) := by
  have hcall : callingEverywhere.machine.fetch.kind = 2 := by decide +kernel
  have hdepth : ∀ n < 35, 1 ≤ Instruction.depth (callingEverywhere.executed (.cycle :: sixteenDeep.take n)) ∧
      Instruction.depth (callingEverywhere.executed (.cycle :: sixteenDeep.take n)) ≤ 16 := by
    decide +kernel
  refine ⟨hcall, call_returns callingEverywhere sixteenDeep hcall (fun b hb => ?_) (by decide +kernel)⟩
  rw [List.prefix_iff_eq_take.1 hb]
  exact hdepth _ (Nat.lt_succ_of_le hb.length_le)

end Engine
end ChipEight
