import ChipEight.Instruction.Chart

/-!
# The words of the instructions

`Instruction.Encodes` names the words of each instruction by their fields, and decoding inverts it (`ofWord_eq_iff`).
The words that are left name no instruction (`ofWord_eq_unknown_iff`). The chart has the same words in its rows, so that
looking a word up is the same as decoding it (`lookup_eq_ofWord`).
-/

namespace ChipEight

/-- The words that name an instruction. -/
def Word.Assigned (w : Word) : Prop :=
  w.kind = 0x0 ∧ w.kk ∈ [0xe0, 0xee] ∨
  w.kind ∈ [0x1, 0x2, 0x3, 0x4, 0x5, 0x6, 0x7, 0x9, 0xa, 0xb, 0xc, 0xd] ∨
  w.kind = 0x8 ∧ w.n ∈ [0x0, 0x1, 0x2, 0x3, 0x4, 0x5, 0x6, 0x7, 0xe] ∨
  w.kind = 0xe ∧ w.kk ∈ [0x9e, 0xa1] ∨
  w.kind = 0xf ∧ w.kk ∈ [0x07, 0x0a, 0x15, 0x18, 0x1e, 0x29, 0x33, 0x55, 0x65]

instance (w : Word) : Decidable w.Assigned := inferInstanceAs (Decidable (_ ∨ _))

namespace Instruction

/-- The word stands for the instruction. -/
def Encodes (w : Word) : Instruction → Prop
  | .clearScreen => w.kind = 0x0 ∧ w.kk = 0xe0
  | .ret => w.kind = 0x0 ∧ w.kk = 0xee
  | .jump a => w.kind = 0x1 ∧ a = w.nnn
  | .call a => w.kind = 0x2 ∧ a = w.nnn
  | .skipIfEqual x k => w.kind = 0x3 ∧ x = w.x ∧ k = w.kk
  | .skipUnlessEqual x k => w.kind = 0x4 ∧ x = w.x ∧ k = w.kk
  | .skipIfSame x y => w.kind = 0x5 ∧ x = w.x ∧ y = w.y
  | .setConstant x k => w.kind = 0x6 ∧ x = w.x ∧ k = w.kk
  | .addConstant x k => w.kind = 0x7 ∧ x = w.x ∧ k = w.kk
  | .copy x y => w.kind = 0x8 ∧ w.n = 0x0 ∧ x = w.x ∧ y = w.y
  | .or x y => w.kind = 0x8 ∧ w.n = 0x1 ∧ x = w.x ∧ y = w.y
  | .and x y => w.kind = 0x8 ∧ w.n = 0x2 ∧ x = w.x ∧ y = w.y
  | .xor x y => w.kind = 0x8 ∧ w.n = 0x3 ∧ x = w.x ∧ y = w.y
  | .add x y => w.kind = 0x8 ∧ w.n = 0x4 ∧ x = w.x ∧ y = w.y
  | .subtract x y => w.kind = 0x8 ∧ w.n = 0x5 ∧ x = w.x ∧ y = w.y
  | .shiftRight x => w.kind = 0x8 ∧ w.n = 0x6 ∧ x = w.x
  | .subtractFrom x y => w.kind = 0x8 ∧ w.n = 0x7 ∧ x = w.x ∧ y = w.y
  | .shiftLeft x => w.kind = 0x8 ∧ w.n = 0xe ∧ x = w.x
  | .skipUnlessSame x y => w.kind = 0x9 ∧ x = w.x ∧ y = w.y
  | .setIndex a => w.kind = 0xa ∧ a = w.nnn
  | .jumpPlus a => w.kind = 0xb ∧ a = w.nnn
  | .random x k => w.kind = 0xc ∧ x = w.x ∧ k = w.kk
  | .draw x y n => w.kind = 0xd ∧ x = w.x ∧ y = w.y ∧ n = w.n
  | .skipIfDown x => w.kind = 0xe ∧ w.kk = 0x9e ∧ x = w.x
  | .skipUnlessDown x => w.kind = 0xe ∧ w.kk = 0xa1 ∧ x = w.x
  | .readDelay x => w.kind = 0xf ∧ w.kk = 0x07 ∧ x = w.x
  | .waitKey x => w.kind = 0xf ∧ w.kk = 0x0a ∧ x = w.x
  | .setDelay x => w.kind = 0xf ∧ w.kk = 0x15 ∧ x = w.x
  | .setSound x => w.kind = 0xf ∧ w.kk = 0x18 ∧ x = w.x
  | .addIndex x => w.kind = 0xf ∧ w.kk = 0x1e ∧ x = w.x
  | .glyph x => w.kind = 0xf ∧ w.kk = 0x29 ∧ x = w.x
  | .storeDigits x => w.kind = 0xf ∧ w.kk = 0x33 ∧ x = w.x
  | .storeRegisters x => w.kind = 0xf ∧ w.kk = 0x55 ∧ x = w.x
  | .loadRegisters x => w.kind = 0xf ∧ w.kk = 0x65 ∧ x = w.x
  | .unknown v => ¬w.Assigned ∧ v = w

variable {w : Word} {i : Instruction}

/-! ### Decoding -/

theorem ofSystemWord_encodes (h : w.kind = 0x0) : (ofSystemWord w).Encodes w := by
  unfold ofSystemWord
  split
  case h_3 h₁ h₂ =>
    refine ⟨?_, rfl⟩
    simpa [Word.Assigned, h] using ⟨h₁, h₂⟩
  all_goals exact ⟨h, by assumption⟩

theorem ofArithmeticWord_encodes (h : w.kind = 0x8) : (ofArithmeticWord w).Encodes w := by
  unfold ofArithmeticWord
  split
  case h_10 h₀ h₁ h₂ h₃ h₄ h₅ h₆ h₇ h₁₄ =>
    refine ⟨?_, rfl⟩
    simpa [Word.Assigned, h] using ⟨h₀, h₁, h₂, h₃, h₄, h₅, h₆, h₇, h₁₄⟩
  all_goals exact ⟨h, by assumption, by simp⟩

theorem ofKeyWord_encodes (h : w.kind = 0xe) : (ofKeyWord w).Encodes w := by
  unfold ofKeyWord
  split
  case h_3 h₁ h₂ =>
    refine ⟨?_, rfl⟩
    simpa [Word.Assigned, h] using ⟨h₁, h₂⟩
  all_goals exact ⟨h, by assumption, rfl⟩

theorem ofDeviceWord_encodes (h : w.kind = 0xf) : (ofDeviceWord w).Encodes w := by
  unfold ofDeviceWord
  split
  case h_10 h₁ h₂ h₃ h₄ h₅ h₆ h₇ h₈ h₉ =>
    refine ⟨?_, rfl⟩
    simpa [Word.Assigned, h] using ⟨h₁, h₂, h₃, h₄, h₅, h₆, h₇, h₈, h₉⟩
  all_goals exact ⟨h, by assumption, rfl⟩

theorem ofWord_encodes (w : Word) : (ofWord w).Encodes w := by
  unfold ofWord
  split
  case h_1 h => exact ofSystemWord_encodes h
  case h_9 h => exact ofArithmeticWord_encodes h
  case h_15 h => exact ofKeyWord_encodes h
  case h_16 =>
    refine ofDeviceWord_encodes ?_
    simp only [imp_false] at *
    bv_omega
  all_goals exact ⟨by assumption, by simp⟩

theorem Encodes.assigned (h : i.Encodes w) (hi : i ≠ .unknown w) : w.Assigned := by
  cases i with
  | unknown v => exact absurd (congrArg unknown h.2) hi
  | _ =>
    unfold Encodes at h
    simp [Word.Assigned, h]

/-- A word stands for one instruction only. -/
theorem Encodes.eq_ofWord (h : i.Encodes w) : i = ofWord w := by
  cases i with
  | unknown v =>
    obtain ⟨hw, rfl⟩ := h
    exact Decidable.byContradiction fun hne => hw ((ofWord_encodes v).assigned (Ne.symm hne))
  | _ =>
    unfold Encodes at h
    simp [ofWord, ofSystemWord, ofArithmeticWord, ofKeyWord, ofDeviceWord, h]

theorem ofWord_eq_iff : ofWord w = i ↔ i.Encodes w :=
  ⟨fun h => h ▸ ofWord_encodes w, fun h => h.eq_ofWord.symm⟩

theorem ofWord_eq_unknown_iff : ofWord w = .unknown w ↔ ¬w.Assigned :=
  ofWord_eq_iff.trans (and_iff_left rfl)

/-- Only the words of kind 12 stand for `random`. -/
theorem kind_of_random {x : Nibble} {k : Byte} (h : ofWord w = .random x k) : w.kind = 0xc :=
  (ofWord_eq_iff.1 h).1

theorem ofWord_eq_random (h : w.kind = 0xc) : ofWord w = .random w.x w.kk := ofWord_eq_iff.2 ⟨h, rfl, rfl⟩

end Instruction

/-! ### The chart -/

namespace Word

theorem ext_nibbles {v w : Word} (hkind : v.kind = w.kind) (hx : v.x = w.x) (hy : v.y = w.y) (hn : v.n = w.n) :
    v = w := by
  rw [← Fields.nibbles_append v, ← Fields.nibbles_append w, hkind, hx, hy, hn]

theorem kk_eq_append (w : Word) : w.kk = w.y ++ w.n := by
  have h : w.extractLsb' 4 4 ++ w.extractLsb' 0 4 = w.extractLsb' 0 8 :=
    BitVec.extractLsb'_append_extractLsb'_eq_extractLsb' rfl
  exact h.symm

theorem kk_eq_iff {v w : Word} : w.kk = v.kk ↔ w.y = v.y ∧ w.n = v.n := by
  have hy (u : Word) : u.kk.extractLsb' 4 4 = u.y := BitVec.extractLsb'_extractLsb'_of_le (by decide)
  have hn (u : Word) : u.kk.extractLsb' 0 4 = u.n := BitVec.extractLsb'_extractLsb'_of_le (by decide)
  constructor
  · intro h
    rw [← hy, ← hy v, ← hn, ← hn v, h]
    exact ⟨rfl, rfl⟩
  · rintro ⟨hy, hn⟩
    rw [kk_eq_append, kk_eq_append, hy, hn]

theorem ext_kk {v w : Word} (hkind : v.kind = w.kind) (hx : v.x = w.x) (hkk : v.kk = w.kk) : v = w :=
  ext_nibbles hkind hx (kk_eq_iff.1 hkk).1 (kk_eq_iff.1 hkk).2

theorem ext_nnn {v w : Word} (hkind : v.kind = w.kind) (hnnn : v.nnn = w.nnn) : v = w := by
  have hx (u : Word) : u.nnn.extractLsb' 8 4 = u.x := BitVec.extractLsb'_extractLsb'_of_le (by decide)
  have hkk (u : Word) : u.nnn.extractLsb' 0 8 = u.kk := BitVec.extractLsb'_extractLsb'_of_le (by decide)
  exact ext_kk hkind (by rw [← hx, ← hx w, hnnn]) (by rw [← hkk, ← hkk w, hnnn])

end Word

namespace Pattern
variable {w value : Word} {f : Word → Instruction}

theorem matches_iff {p : Pattern} : p.Matches w ↔
    w.kind &&& p.mask.kind = p.value.kind ∧ w.x &&& p.mask.x = p.value.x ∧
      w.y &&& p.mask.y = p.value.y ∧ w.n &&& p.mask.n = p.value.n := by
  have hand (start : Nat) : (w &&& p.mask).extractLsb' start 4 =
      w.extractLsb' start 4 &&& p.mask.extractLsb' start 4 := BitVec.extractLsb'_and
  constructor
  · intro h
    rw [← show w &&& p.mask = p.value from h]
    exact ⟨(hand 12).symm, (hand 8).symm, (hand 4).symm, (hand 0).symm⟩
  · rintro ⟨hkind, hx, hy, hn⟩
    exact Word.ext_nibbles ((hand 12).trans hkind) ((hand 8).trans hx) ((hand 4).trans hy) ((hand 0).trans hn)

/-! The rows have three masks. -/

theorem matches_kind (hx : value.x = 0) (hy : value.y = 0) (hn : value.n = 0) :
    (⟨0xf000, value, f⟩ : Pattern).Matches w ↔ w.kind = value.kind := by
  have h : (0xf000 : Word).kind = .allOnes 4 ∧ (0xf000 : Word).x = 0 ∧ (0xf000 : Word).y = 0 ∧
      (0xf000 : Word).n = 0 := by decide
  simp only [matches_iff, h, hx, hy, hn, BitVec.and_allOnes]
  simp

theorem matches_kind_n (hx : value.x = 0) (hy : value.y = 0) :
    (⟨0xf00f, value, f⟩ : Pattern).Matches w ↔ w.kind = value.kind ∧ w.n = value.n := by
  have h : (0xf00f : Word).kind = .allOnes 4 ∧ (0xf00f : Word).x = 0 ∧ (0xf00f : Word).y = 0 ∧
      (0xf00f : Word).n = .allOnes 4 := by decide
  simp only [matches_iff, h, hx, hy, BitVec.and_allOnes]
  simp

theorem matches_kind_kk (hx : value.x = 0) :
    (⟨0xf0ff, value, f⟩ : Pattern).Matches w ↔ w.kind = value.kind ∧ w.kk = value.kk := by
  have h : (0xf0ff : Word).kind = .allOnes 4 ∧ (0xf0ff : Word).x = 0 ∧ (0xf0ff : Word).y = .allOnes 4 ∧
      (0xf0ff : Word).n = .allOnes 4 := by decide
  simp only [matches_iff, Word.kk_eq_iff, h, hx, BitVec.and_allOnes]
  simp

end Pattern

namespace Instruction
variable {w : Word}

theorem chart_encodes : ∀ p ∈ chart, p.Matches w → (p.instruction w).Encodes w := by
  simp (disch := decide) only [chart, List.forall_mem_cons, Pattern.matches_kind, Pattern.matches_kind_n,
    Pattern.matches_kind_kk]
  simp +decide [Encodes, Word.kind, Word.kk, Word.n]

theorem not_assigned_of_chart (h : ∀ p ∈ chart, ¬p.Matches w) : ¬w.Assigned := by
  simp (disch := decide) only [chart, List.forall_mem_cons, Pattern.matches_kind, Pattern.matches_kind_n,
    Pattern.matches_kind_kk] at h
  simp +decide [Word.Assigned, Word.kind, Word.kk, Word.n] at h ⊢
  grind

/-- The chart and the nested decoder agree on every word. -/
theorem lookup_eq_ofWord (w : Word) : lookup w = ofWord w := by
  unfold lookup
  cases h : chart.find? fun p => p.Matches w with
  | none =>
    have hno : ∀ p ∈ chart, ¬p.Matches w := by simpa using h
    exact (ofWord_eq_unknown_iff.2 (not_assigned_of_chart hno)).symm
  | some p =>
    have hp : p.Matches w := by simpa using List.find?_some h
    exact (chart_encodes p (List.mem_of_find?_eq_some h) hp).eq_ofWord

end Instruction
end ChipEight
