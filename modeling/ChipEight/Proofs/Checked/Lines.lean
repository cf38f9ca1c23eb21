import ChipEight.Proofs.Checked.Tracing
import ChipEight.Proofs.Checked.Validity
import ChipEight.Proofs.Instruction.Listing

/-!
# What a line of the trace tells

The line of a word leaves out the digits that the instruction does not read, and these only: the words with the same
line are the synonyms (`line_eq_iff`). They stand for one instruction with the same operands, so whoever has read the
line knows what the word does to each machine (`line_tells_effect`).
-/

namespace ChipEight

namespace Word

/-- The words are equal, or they differ only in digits that their instruction does not read. -/
def Synonym (v w : Word) : Prop :=
  v = w ∨ v.kind = w.kind ∧
    (v.kind = 0x0 ∧ v.kk = w.kk ∧ v.kk ∈ [0xe0, 0xee] ∨
      v.kind ∈ [0x5, 0x9] ∧ v.x = w.x ∧ v.y = w.y ∨
      v.kind = 0x8 ∧ v.n = w.n ∧ v.n ∈ [0x6, 0xe] ∧ v.x = w.x)

instance (v w : Word) : Decidable (v.Synonym w) := inferInstanceAs (Decidable (_ ∨ _))

end Word

namespace Instruction
variable {v w : Word} {i : Instruction}

theorem Encodes.synonym (hv : i.Encodes v) (hw : i.Encodes w) : v.Synonym w := by
  cases i with
  | jump | call | setIndex | jumpPlus =>
    exact .inl (Word.ext_nnn (hv.1.trans hw.1.symm) (hv.2.symm.trans hw.2))
  | skipIfEqual | skipUnlessEqual | setConstant | addConstant | random =>
    exact .inl (Word.ext_kk (hv.1.trans hw.1.symm) (hv.2.1.symm.trans hw.2.1) (hv.2.2.symm.trans hw.2.2))
  | skipIfDown | skipUnlessDown | readDelay | waitKey | setDelay | setSound | addIndex | glyph | storeDigits
  | storeRegisters | loadRegisters =>
    exact .inl (Word.ext_kk (hv.1.trans hw.1.symm) (hv.2.2.symm.trans hw.2.2) (hv.2.1.trans hw.2.1.symm))
  | copy | or | and | xor | add | subtract | subtractFrom =>
    exact .inl (Word.ext_nibbles (hv.1.trans hw.1.symm) (hv.2.2.1.symm.trans hw.2.2.1)
      (hv.2.2.2.symm.trans hw.2.2.2) (hv.2.1.trans hw.2.1.symm))
  | draw =>
    exact .inl (Word.ext_nibbles (hv.1.trans hw.1.symm) (hv.2.1.symm.trans hw.2.1) (hv.2.2.1.symm.trans hw.2.2.1)
      (hv.2.2.2.symm.trans hw.2.2.2))
  | unknown => exact .inl (hv.2.symm.trans hw.2)
  -- the instructions that leave a digit unread
  | clearScreen | ret =>
    exact .inr ⟨hv.1.trans hw.1.symm, .inl ⟨hv.1, hv.2.trans hw.2.symm, by simp [hv.2]⟩⟩
  | skipIfSame | skipUnlessSame =>
    exact .inr ⟨hv.1.trans hw.1.symm, .inr (.inl ⟨by simp [hv.1], hv.2.1.symm.trans hw.2.1, hv.2.2.symm.trans hw.2.2⟩)⟩
  | shiftRight | shiftLeft =>
    exact .inr ⟨hv.1.trans hw.1.symm,
      .inr (.inr ⟨hv.1, hv.2.1.trans hw.2.1.symm, by simp [hv.2.1], hv.2.2.symm.trans hw.2.2⟩)⟩

theorem Encodes.ofWord_eq (hv : i.Encodes v) (hw : i.Encodes w) : ofWord v = ofWord w :=
  hv.eq_ofWord.symm.trans hw.eq_ofWord

theorem ofWord_eq_of_synonym (h : v.Synonym w) : ofWord v = ofWord w := by
  rcases h with rfl | ⟨hkind, ⟨h0, hkk, hmem⟩ | ⟨hmem, hx, hy⟩ | ⟨h8, hn, hmem, hx⟩⟩
  · rfl
  · rcases List.mem_pair.1 hmem with he0 | hee
    · exact Encodes.ofWord_eq (i := .clearScreen) ⟨h0, he0⟩ ⟨hkind ▸ h0, hkk ▸ he0⟩
    · exact Encodes.ofWord_eq (i := .ret) ⟨h0, hee⟩ ⟨hkind ▸ h0, hkk ▸ hee⟩
  · rcases List.mem_pair.1 hmem with h5 | h9
    · exact Encodes.ofWord_eq (i := .skipIfSame v.x v.y) ⟨h5, rfl, rfl⟩ ⟨hkind ▸ h5, hx, hy⟩
    · exact Encodes.ofWord_eq (i := .skipUnlessSame v.x v.y) ⟨h9, rfl, rfl⟩ ⟨hkind ▸ h9, hx, hy⟩
  · rcases List.mem_pair.1 hmem with h6 | he
    · exact Encodes.ofWord_eq (i := .shiftRight v.x) ⟨h8, h6, rfl⟩ ⟨hkind ▸ h8, hn ▸ h6, hx⟩
    · exact Encodes.ofWord_eq (i := .shiftLeft v.x) ⟨h8, he, rfl⟩ ⟨hkind ▸ h8, hn ▸ he, hx⟩

theorem ofWord_eq_ofWord_iff : ofWord v = ofWord w ↔ v.Synonym w :=
  ⟨fun h => (ofWord_encodes v).synonym (h ▸ ofWord_encodes w), ofWord_eq_of_synonym⟩

end Instruction

theorem Word.line_eq_iff {a : Address} {v w : Word} : v.line a = w.line a ↔ v.Synonym w := by
  rw [← Instruction.ofWord_eq_ofWord_iff]
  constructor
  · exact fun h => congrArg TraceLine.instruction (TraceLine.text_injective h)
  · exact fun h => congrArg (fun i => TraceLine.text ⟨a, i⟩) h

namespace Checked
variable {ρ : Type} [RandomSource ρ]

theorem execute_run_word (e : Engine ρ) (w : Word) : (execute w.toNat).run e.checked =
    result (e.execute false (.ofWord w)).engine (e.execute false (.ofWord w)).fault := by
  have hrun := execute_run w.toNat e
  rwa [Word.ofInt_natCast_toNat] at hrun

/-- Executing a word prints its line. Two words with the same line at an address stand for the same instruction with the
same operands, so the tables lead them to the same method, and from every valid state they come to the same state and
the same fault. These are the synonyms: the line leaves out just the digits that do not matter. -/
theorem line_tells_effect (ρ : Type) [RandomSource ρ] (v w : Word) :
    (∀ e : Engine ρ, (e.execute true (.ofWord v)).trace.map TraceLine.text = [v.line (e.machine.pc - 2)]) ∧
    (∀ a : Address, v.line a = w.line a → Instruction.lookup v = Instruction.lookup w ∧
      ∀ s : State ρ, s.Valid → (execute v.toNat).run s = (execute w.toNat).run s) ∧
    (∀ a : Address, v.line a = w.line a ↔ v.Synonym w) ∧
    (∀ s : State ρ, Prints (executeTraced true v.toNat) (execute v.toNat) s [v.line (.ofInt (s.pc - 2))]) ∧
    ∀ a : Address, v.line a = w.line a → ∀ s : State ρ,
      ∃ m, Yields (lookup (decode v.toNat)) s m s ∧ Yields (lookup (decode w.toNat)) s m s := by
  have hsame {a : Address} (h : v.line a = w.line a) : Instruction.ofWord v = .ofWord w :=
    Instruction.ofWord_eq_ofWord_iff.2 (Word.line_eq_iff.1 h)
  refine ⟨fun e => ?_, fun a h => ⟨?_, fun s hs => ?_⟩, fun a => Word.line_eq_iff, fun s => ?_, fun a h s => ?_⟩
  · rw [Engine.execute_trace]
    rfl
  · rw [Instruction.lookup_eq_ofWord, Instruction.lookup_eq_ofWord, hsame h]
  · obtain ⟨e, rfl⟩ := (State.valid_iff s).1 hs
    rw [execute_run_word, execute_run_word, hsame h]
  · have hprints := executeTraced_prints true v.toNat s
    rwa [Word.ofInt_natCast_toNat] at hprints
  · have hv := lookup_decode s v.toNat
    have hw := lookup_decode s w.toNat
    rw [Word.ofInt_natCast_toNat] at hv hw
    exact ⟨_, hv, hsame h ▸ hw⟩

/-- The last digit of a word `5xyn` does not matter. -/
theorem line_tells_effect_of_skip :
    (0x5ab0 : Word).line 0x200 = (0x5abf : Word).line 0x200 ∧
    Instruction.lookup 0x5ab0 = Instruction.lookup 0x5abf ∧
    (execute 0x5ab0).run (State.fresh (Random.Script.mk [7])) =
      (execute 0x5abf).run (State.fresh (Random.Script.mk [7])) ∧
    let s := State.fresh (Random.Script.mk [7])
    ∃ m, Yields (lookup (decode 0x5ab0)) s m s ∧ Yields (lookup (decode 0x5abf)) s m s := by
  obtain ⟨-, hsame, hline, -, hmethod⟩ := line_tells_effect Random.Script 0x5ab0 0x5abf
  have h : (0x5ab0 : Word).line 0x200 = (0x5abf : Word).line 0x200 := (hline 0x200).2 (by decide)
  obtain ⟨hlookup, hrun⟩ := hsame 0x200 h
  exact ⟨h, hlookup, hrun _ (fresh_checked (Random.Script.mk [7]) ▸ checked_valid _), hmethod 0x200 h _⟩

end Checked
end ChipEight
