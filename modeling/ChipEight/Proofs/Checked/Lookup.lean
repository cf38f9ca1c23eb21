import ChipEight.Proofs.Checked.Parts

/-!
# The tables lead to the methods

Each word leads through the tables to the method of its instruction (`lookup_ofWord`), from every state. Executing an
opcode calls the method that its operands lead to (`execute_eq_lookup`).
-/

namespace ChipEight

/-- The method that handles an instruction. -/
def Instruction.method : Instruction → Checked.Method
  | .clearScreen => .clearScreen
  | .ret => .ret
  | .jump _ => .jump
  | .call _ => .call
  | .skipIfEqual _ _ => .skipIfEqual
  | .skipUnlessEqual _ _ => .skipUnlessEqual
  | .skipIfSame _ _ => .skipIfSame
  | .setConstant _ _ => .setConstant
  | .addConstant _ _ => .addConstant
  | .copy _ _ => .copy
  | .or _ _ => .or
  | .and _ _ => .and
  | .xor _ _ => .xor
  | .add _ _ => .add
  | .subtract _ _ => .subtract
  | .shiftRight _ => .shiftRight
  | .subtractFrom _ _ => .subtractFrom
  | .shiftLeft _ => .shiftLeft
  | .skipUnlessSame _ _ => .skipUnlessSame
  | .setIndex _ => .setIndex
  | .jumpPlus _ => .jumpPlus
  | .random _ _ => .random
  | .draw _ _ _ => .draw
  | .skipIfDown _ => .skipIfDown
  | .skipUnlessDown _ => .skipUnlessDown
  | .readDelay _ => .readDelay
  | .waitKey _ => .waitKey
  | .setDelay _ => .setDelay
  | .setSound _ => .setSound
  | .addIndex _ => .addIndex
  | .glyph _ => .glyph
  | .storeDigits _ => .storeDigits
  | .storeRegisters _ => .storeRegisters
  | .loadRegisters _ => .loadRegisters
  | .unknown _ => .unknown

theorem Instruction.method_eq_unknown_iff {i : Instruction} : i.method = .unknown ↔ ∃ v, i = .unknown v := by
  cases i <;> simp [method]

namespace Checked
variable {ρ : Type}

/-! ### The tables of the families -/

theorem getElem?_tableOf {size k : Nat} (rows : List (Nat × Method)) (hk : k < size) :
    (tableOf size rows)[k]? = some ((rows.lookup k).getD .unknown) := by
  have hlength (rows : List (Nat × Method)) : (tableOf size rows).length = size := by
    induction rows with
    | nil => exact List.length_replicate
    | cons row rows ih => exact List.length_set.trans ih
  induction rows with
  | nil => exact List.getElem?_replicate_of_lt hk
  | cons row rows ih =>
    show ((tableOf size rows).set row.1 row.2)[k]? = _
    rw [List.getElem?_set, List.lookup_cons, hlength]
    by_cases hrow : row.1 = k
    · rw [if_pos hrow, if_pos (hrow ▸ hk), beq_iff_eq.2 hrow.symm]
      rfl
    · rw [if_neg hrow, beq_false_of_ne (Ne.symm hrow), ih]

/-- The place of a word in a table is not that of another word. -/
theorem ne_toNat {w : Nat} {b : BitVec w} {k : Nat} (h : b = BitVec.ofNat w k → False) : k ≠ b.toNat := fun hk => by
  refine h ?_
  rw [hk, BitVec.ofNat_toNat, BitVec.setWidth_eq]

theorem getD_lookup_unknown {k : Nat} {rows : List (Nat × Method)} (h : ∀ row ∈ rows, row.1 ≠ k) :
    (rows.lookup k).getD .unknown = .unknown := by
  rw [List.lookup_eq_none_iff.2 fun row hrow => bne_iff_ne.2 (h row hrow).symm]
  rfl

namespace Family

theorem system_rows (w : Word) :
    (rows .system |>.lookup w.kk.toNat).getD .unknown = (Instruction.ofSystemWord w).method := by
  unfold Instruction.ofSystemWord
  split
  case h_3 h₁ h₂ =>
    refine getD_lookup_unknown ?_
    simp only [rows, List.forall_mem_cons]
    exact ⟨ne_toNat h₁, ne_toNat h₂, nofun⟩
  all_goals
    rename_i hkk
    rw [hkk]
    rfl

theorem arithmetic_rows (w : Word) :
    (rows .arithmetic |>.lookup w.n.toNat).getD .unknown = (Instruction.ofArithmeticWord w).method := by
  unfold Instruction.ofArithmeticWord
  split
  case h_10 h₀ h₁ h₂ h₃ h₄ h₅ h₆ h₇ h₁₄ =>
    refine getD_lookup_unknown ?_
    simp only [rows, List.forall_mem_cons]
    exact ⟨ne_toNat h₀, ne_toNat h₁, ne_toNat h₂, ne_toNat h₃, ne_toNat h₄, ne_toNat h₅, ne_toNat h₆, ne_toNat h₇,
      ne_toNat h₁₄, nofun⟩
  all_goals
    rename_i hn
    rw [hn]
    rfl

theorem key_rows (w : Word) :
    (rows .key |>.lookup w.kk.toNat).getD .unknown = (Instruction.ofKeyWord w).method := by
  unfold Instruction.ofKeyWord
  split
  case h_3 h₁ h₂ =>
    refine getD_lookup_unknown ?_
    simp only [rows, List.forall_mem_cons]
    exact ⟨ne_toNat h₁, ne_toNat h₂, nofun⟩
  all_goals
    rename_i hkk
    rw [hkk]
    rfl

theorem device_rows (w : Word) :
    (rows .device |>.lookup w.kk.toNat).getD .unknown = (Instruction.ofDeviceWord w).method := by
  unfold Instruction.ofDeviceWord
  split
  case h_10 h₁ h₂ h₃ h₄ h₅ h₆ h₇ h₈ h₉ =>
    refine getD_lookup_unknown ?_
    simp only [rows, List.forall_mem_cons]
    exact ⟨ne_toNat h₁, ne_toNat h₂, ne_toNat h₃, ne_toNat h₄, ne_toNat h₅, ne_toNat h₆, ne_toNat h₇, ne_toNat h₈,
      ne_toNat h₉, nofun⟩
  all_goals
    rename_i hkk
    rw [hkk]
    rfl

end Family

/-! ### Lookup -/

section
variable {w : Word} {f : Family} {m : Method} (s : State ρ)

theorem lookup_of_method (hentry : primary[w.kind.toNat]? = some (.method m)) :
    Yields (lookup (.ofWord w)) s m s :=
  (item_of_getElem? hentry).bind (.pure _ _)

theorem lookup_of_forward {k : Nat} (hentry : primary[w.kind.toNat]? = some (.forward f))
    (hplace : f.place (.ofWord w) = k) (hk : k < f.size) (hrows : (f.rows.lookup k).getD .unknown = m) :
    Yields (lookup (.ofWord w)) s m s := by
  have hplaced : Yields (item f.table (f.place (.ofWord w))) s m s := by
    rw [hplace, ← hrows]
    exact item_of_getElem? (getElem?_tableOf f.rows hk)
  exact (item_of_getElem? hentry).bind hplaced

/-- Each word leads to the method of its instruction. -/
theorem lookup_ofWord (w : Word) : Yields (lookup (.ofWord w)) s (Instruction.ofWord w).method s := by
  unfold Instruction.ofWord
  split
  case h_1 hk => exact lookup_of_forward s (by rw [hk]; rfl) rfl w.kk.isLt (Family.system_rows w)
  case h_9 hk => exact lookup_of_forward s (by rw [hk]; rfl) rfl w.n.isLt (Family.arithmetic_rows w)
  case h_15 hk => exact lookup_of_forward s (by rw [hk]; rfl) rfl w.kk.isLt (Family.key_rows w)
  case h_16 =>
    have hk : w.kind = 0xf := by
      simp only [imp_false] at *
      bv_omega
    exact lookup_of_forward s (by rw [hk]; rfl) rfl w.kk.isLt (Family.device_rows w)
  all_goals
    rename_i hk
    exact lookup_of_method s (by rw [hk]; rfl)

theorem lookup_decode (opcode : Int) :
    Yields (lookup (decode opcode)) s (Instruction.ofWord (.ofInt opcode)).method s := by
  rw [decode_eq]
  exact lookup_ofWord s (.ofInt opcode)

end

/-- Executing an opcode calls the method that its operands lead to. -/
theorem execute_eq_lookup [RandomSource ρ] (opcode : Int) :
    (execute opcode : Routine ρ Unit) = lookup (decode opcode) >>= fun m => m.handler (decode opcode) := by
  unfold execute lookup
  rw [bind_assoc]
  refine bind_congr fun entry => ?_
  cases entry with
  | method m =>
    rw [pure_bind]
    rfl
  | forward f => rfl

theorem execute_run_method [RandomSource ρ] (opcode : Int) (s : State ρ) :
    (execute opcode).run s = ((Instruction.ofWord (.ofInt opcode)).method.handler (decode opcode)).run s := by
  rw [execute_eq_lookup]
  exact run_bind_of_ok (lookup_decode s opcode) _

end Checked
end ChipEight
