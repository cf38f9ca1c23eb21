import ChipEight.Instruction.Listing
import ChipEight.Proofs.Text.Fields
import ChipEight.Proofs.Text.Numeral

/-!
# Reading listings back

A listing is a mnemonic and its operands (`text_eq_listing`). The operands can be told from their texts
(`Operand.text_injective`), and with the mnemonic they give the instruction back (`assemble?_operands`). So no two
instructions have the same text, and no two lines of a trace are equal by chance (`TraceLine.text_injective`).
-/

namespace ChipEight

/-- What listings name without a number. -/
inductive Symbol where
  | index
  | atIndex
  | delay
  | sound
  | key
  | glyph
  | digits
deriving DecidableEq

def Symbol.text : Symbol → String
  | .index => "I"
  | .atIndex => "[I]"
  | .delay => "DT"
  | .sound => "ST"
  | .key => "K"
  | .glyph => "F"
  | .digits => "B"

theorem Symbol.text_injective : Function.Injective text := by
  intro p q h
  cases p <;> cases q <;> simp [text] at h ⊢

inductive Operand where
  | register (x : Nibble)
  /-- A number in `w + 1` hexadecimal digits. -/
  | number (w : Nat) (n : BitVec (4 * (w + 1)))
  | count (n : Nibble)
  | symbol (p : Symbol)

namespace Operand

def text : Operand → String
  | .register x => "V" ++ Text.decimal x.toNat
  | .number w n => "0x" ++ Text.hex (w + 1) n.toNat
  | .count n => Text.decimal n.toNat
  | .symbol p => p.text

/-- What stands behind the mnemonic. -/
def listText : List Operand → String
  | [] => ""
  | a :: rest => " " ++ String.intercalate ", " ((a :: rest).map text)

/-! ### Operands -/

open Text

theorem toList_register (x : Nibble) : (register x).text.toList = 'V' :: Nat.toDigits 10 x.toNat := by
  rw [text, String.toList_append, toList_decimal]
  rfl

theorem toList_number (w : Nat) (n : BitVec (4 * (w + 1))) :
    (number w n).text.toList = '0' :: 'x' :: hexDigits (w + 1) n.toNat := by
  rw [text, String.toList_append, toList_hex]
  rfl

theorem toList_count (n : Nibble) : (count n).text.toList = Nat.toDigits 10 n.toNat := toList_decimal _

theorem notMem_symbol {c : Char} (hc : c ∉ ['I', '[', ']', 'D', 'T', 'S', 'K', 'F', 'B']) (p : Symbol) :
    c ∉ (symbol p).text.toList := by
  have hsymbols : ∀ c ∈ p.text.toList, c ∈ ['I', '[', ']', 'D', 'T', 'S', 'K', 'F', 'B'] := by
    cases p <;> simp [Symbol.text]
  exact fun hmem => hc (hsymbols c hmem)

theorem notMem_digits {c : Char} (hc : ∀ d, Nat.digitChar d ≠ c) (n : Nat) : c ∉ Nat.toDigits 10 n :=
  notMem_toDigits (by decide) hc n

/-! Each kind of operand shows in the characters of the text. -/

theorem isRegister_iff {a : Operand} : 'V' ∈ a.text.toList ↔ ∃ x, a = .register x := by
  cases a with
  | register x => simp [toList_register]
  | number w n => simp [toList_number, notMem_hexDigits]
  | count n => simp [toList_count, notMem_digits]
  | symbol p => simp [notMem_symbol]

theorem isNumber_iff {a : Operand} : 'x' ∈ a.text.toList ↔ ∃ w n, a = .number w n := by
  cases a with
  | register x => simp [toList_register, notMem_digits]
  | number w n => simp [toList_number]
  | count n => simp [toList_count, notMem_digits]
  | symbol p => simp [notMem_symbol]

theorem isCount_iff {a : Operand} : (∀ c ∈ a.text.toList, c.isDigit = true) ↔ ∃ n, a = .count n := by
  cases a with
  | register x => simp [toList_register]
  | number w n => simp [toList_number]
  | count n =>
    have hdigits : ∀ c ∈ (count n).text.toList, c.isDigit = true := fun c hc =>
      Nat.isDigit_of_mem_toDigits (by decide) (by decide) (toList_count n ▸ hc)
    exact iff_of_true hdigits ⟨n, rfl⟩
  | symbol p => cases p <;> simp [text, Symbol.text]

theorem number_inj {w w' : Nat} {n : BitVec (4 * (w + 1))} {n' : BitVec (4 * (w' + 1))}
    (h : (number w n).text = (number w' n').text) : number w n = number w' n' := by
  have hlength {w : Nat} (n : BitVec (4 * (w + 1))) : (hexDigits (w + 1) n.toNat).length = w + 1 :=
    length_hexDigits (Nat.lt_of_lt_of_eq n.isLt (Nat.pow_mul (a := 2) (m := 4) (n := w + 1)))
  rw [← String.toList_inj, toList_number, toList_number, List.cons_inj_right, List.cons_inj_right] at h
  -- the width is the number of the digits
  obtain rfl : w = w' := Nat.succ.inj ((hlength n).symm.trans ((congrArg List.length h).trans (hlength n')))
  rw [BitVec.eq_of_toNat_eq (hexDigits_injective w h)]

theorem text_injective : Function.Injective text := by
  intro a b h
  cases a with
  | register x =>
    obtain ⟨y, rfl⟩ := isRegister_iff.1 (h ▸ isRegister_iff.2 ⟨x, rfl⟩)
    rw [← String.toList_inj, toList_register, toList_register, List.cons_inj_right] at h
    rw [BitVec.eq_of_toNat_eq (toDigits_injective (by decide) (by decide) h)]
  | number w n =>
    obtain ⟨w', n', rfl⟩ := isNumber_iff.1 (h ▸ isNumber_iff.2 ⟨w, n, rfl⟩)
    exact number_inj h
  | count n =>
    obtain ⟨n', rfl⟩ := isCount_iff.1 (h ▸ isCount_iff.2 ⟨n, rfl⟩)
    rw [BitVec.eq_of_toNat_eq (decimal_injective h)]
  | symbol p =>
    cases b with
    | symbol q => rw [Symbol.text_injective h]
    | register x =>
      obtain ⟨y, hy⟩ := isRegister_iff.1 (h ▸ isRegister_iff.2 ⟨x, rfl⟩)
      cases hy
    | number w n =>
      obtain ⟨w', n', hn⟩ := isNumber_iff.1 (h ▸ isNumber_iff.2 ⟨w, n, rfl⟩)
      cases hn
    | count n =>
      obtain ⟨n', hn⟩ := isCount_iff.1 (h ▸ isCount_iff.2 ⟨n, rfl⟩)
      cases hn

theorem text_ne_empty (a : Operand) : a.text ≠ "" := by
  intro h
  rw [← String.toList_inj, String.toList_empty] at h
  cases a with
  | register x => cases (toList_register x).symm.trans h
  | number w n => cases (toList_number w n).symm.trans h
  | count n => exact Nat.toDigits_ne_nil ((toList_count n).symm.trans h)
  | symbol p => cases p <;> cases h

theorem comma_notMem_text (a : Operand) : ',' ∉ a.text.toList := by
  cases a with
  | register x => simp [toList_register, notMem_digits]
  | number w n => simp [toList_number, notMem_hexDigits]
  | count n => simp [toList_count, notMem_digits]
  | symbol p => simp [notMem_symbol]

theorem listText_injective : Function.Injective listText := by
  intro l l' h
  rw [← String.toList_inj] at h
  cases l with
  | nil =>
    cases l' with
    | nil => rfl
    | cons b l' => simp [listText] at h
  | cons a l =>
    cases l' with
    | nil => simp [listText] at h
    | cons b l' =>
      rw [listText, listText, String.toList_append, String.toList_append, List.append_right_inj, String.toList_inj] at h
      exact commaSeparated_map_injective text_injective (fun a => ⟨a.text_ne_empty, a.comma_notMem_text⟩) h

end Operand

namespace Instruction

def mnemonic : Instruction → String
  | .clearScreen => "CLS"
  | .ret => "RET"
  | .jump _ | .jumpPlus _ => "JP"
  | .call _ => "CALL"
  | .skipIfEqual _ _ | .skipIfSame _ _ => "SE"
  | .skipUnlessEqual _ _ | .skipUnlessSame _ _ => "SNE"
  | .setConstant _ _ | .copy _ _ | .setIndex _ | .readDelay _ | .waitKey _ | .setDelay _ | .setSound _ | .glyph _
  | .storeDigits _ | .storeRegisters _ | .loadRegisters _ => "LD"
  | .addConstant _ _ | .add _ _ | .addIndex _ => "ADD"
  | .or _ _ => "OR"
  | .and _ _ => "AND"
  | .xor _ _ => "XOR"
  | .subtract _ _ => "SUB"
  | .shiftRight _ => "SHR"
  | .subtractFrom _ _ => "SUBN"
  | .shiftLeft _ => "SHL"
  | .random _ _ => "RND"
  | .draw _ _ _ => "DRW"
  | .skipIfDown _ => "SKP"
  | .skipUnlessDown _ => "SKNP"
  | .unknown _ => "UNKNOWN"

def operands : Instruction → List Operand
  | .clearScreen | .ret => []
  | .jump a | .call a => [.number 2 a]
  | .skipIfEqual x k | .skipUnlessEqual x k | .setConstant x k | .addConstant x k | .random x k =>
    [.register x, .number 1 k]
  | .skipIfSame x y | .skipUnlessSame x y | .copy x y | .or x y | .and x y | .xor x y | .add x y | .subtract x y
  | .subtractFrom x y => [.register x, .register y]
  | .shiftRight x | .shiftLeft x | .skipIfDown x | .skipUnlessDown x => [.register x]
  | .setIndex a => [.symbol .index, .number 2 a]
  | .jumpPlus a => [.register 0, .number 2 a]
  | .draw x y n => [.register x, .register y, .count n]
  | .readDelay x => [.register x, .symbol .delay]
  | .waitKey x => [.register x, .symbol .key]
  | .setDelay x => [.symbol .delay, .register x]
  | .setSound x => [.symbol .sound, .register x]
  | .addIndex x => [.symbol .index, .register x]
  | .glyph x => [.symbol .glyph, .register x]
  | .storeDigits x => [.symbol .digits, .register x]
  | .storeRegisters x => [.symbol .atIndex, .register x]
  | .loadRegisters x => [.register x, .symbol .atIndex]
  | .unknown w => [.number 3 w]

/-- The instruction with a mnemonic and operands. -/
def assemble? : String → List Operand → Option Instruction
  | "CLS", [] => some .clearScreen
  | "RET", [] => some .ret
  | "JP", [.number 2 a] => some (.jump a)
  | "CALL", [.number 2 a] => some (.call a)
  | "SE", [.register x, .number 1 k] => some (.skipIfEqual x k)
  | "SNE", [.register x, .number 1 k] => some (.skipUnlessEqual x k)
  | "SE", [.register x, .register y] => some (.skipIfSame x y)
  | "LD", [.register x, .number 1 k] => some (.setConstant x k)
  | "ADD", [.register x, .number 1 k] => some (.addConstant x k)
  | "LD", [.register x, .register y] => some (.copy x y)
  | "OR", [.register x, .register y] => some (.or x y)
  | "AND", [.register x, .register y] => some (.and x y)
  | "XOR", [.register x, .register y] => some (.xor x y)
  | "ADD", [.register x, .register y] => some (.add x y)
  | "SUB", [.register x, .register y] => some (.subtract x y)
  | "SHR", [.register x] => some (.shiftRight x)
  | "SUBN", [.register x, .register y] => some (.subtractFrom x y)
  | "SHL", [.register x] => some (.shiftLeft x)
  | "SNE", [.register x, .register y] => some (.skipUnlessSame x y)
  | "LD", [.symbol .index, .number 2 a] => some (.setIndex a)
  | "JP", [.register 0, .number 2 a] => some (.jumpPlus a)
  | "RND", [.register x, .number 1 k] => some (.random x k)
  | "DRW", [.register x, .register y, .count n] => some (.draw x y n)
  | "SKP", [.register x] => some (.skipIfDown x)
  | "SKNP", [.register x] => some (.skipUnlessDown x)
  | "LD", [.register x, .symbol .delay] => some (.readDelay x)
  | "LD", [.register x, .symbol .key] => some (.waitKey x)
  | "LD", [.symbol .delay, .register x] => some (.setDelay x)
  | "LD", [.symbol .sound, .register x] => some (.setSound x)
  | "ADD", [.symbol .index, .register x] => some (.addIndex x)
  | "LD", [.symbol .glyph, .register x] => some (.glyph x)
  | "LD", [.symbol .digits, .register x] => some (.storeDigits x)
  | "LD", [.symbol .atIndex, .register x] => some (.storeRegisters x)
  | "LD", [.register x, .symbol .atIndex] => some (.loadRegisters x)
  | "UNKNOWN", [.number 3 w] => some (.unknown w)
  | _, _ => none

/-! ### Instructions -/

theorem assemble?_operands (i : Instruction) : assemble? i.mnemonic i.operands = some i := by
  cases i <;> rfl

theorem binary_eq (m left right : String) :
    text.binary m left right = m ++ (" " ++ String.intercalate ", " [left, right]) := by
  rw [text.binary, String.intercalate_cons_cons, String.intercalate_singleton]
  simp only [String.append_assoc]

theorem text_eq_listing (i : Instruction) : i.text = i.mnemonic ++ Operand.listText i.operands := by
  cases i with
  | jumpPlus a => exact binary_eq "JP" "V0" _
  | _ =>
    simp [text, mnemonic, operands, Operand.listText, Operand.text, Symbol.text, text.binary, text.register,
      text.constant, text.address, ← String.append_assoc]

theorem space_notMem_mnemonic (i : Instruction) : ' ' ∉ i.mnemonic.toList := by
  cases i <;> simp [mnemonic]

theorem eq_space_of_mem_head?_listText (l : List Operand) : ∀ c ∈ (Operand.listText l).toList.head?, c = ' ' := by
  intro c hc
  cases l with
  | nil => cases hc
  | cons a l =>
    rw [Operand.listText, String.toList_append] at hc
    exact (Option.some.inj hc).symm

theorem text_injective : Function.Injective text := by
  intro i j h
  rw [text_eq_listing, text_eq_listing, ← String.toList_inj, String.toList_append, String.toList_append] at h
  have hspace (i : Instruction) : ∀ c ∈ i.mnemonic.toList, c ≠ ' ' := fun c hc hspace =>
    i.space_notMem_mnemonic (hspace ▸ hc)
  obtain ⟨hmnemonic, hlist⟩ := Text.append_inj_of_stop (p := (· = ' ')) (hspace i) (hspace j)
    (eq_space_of_mem_head?_listText _) (eq_space_of_mem_head?_listText _) h
  have hoperands : i.operands = j.operands := Operand.listText_injective (String.toList_inj.1 hlist)
  have hback := i.assemble?_operands
  rw [String.toList_inj.1 hmnemonic, hoperands, j.assemble?_operands] at hback
  exact (Option.some.inj hback).symm

end Instruction

theorem TraceLine.text_injective : Function.Injective TraceLine.text := by
  have hcloses (a : Address) : Text.Closes "    instruction: " (Text.hex 4 a.toNat) :=
    ⟨' ', rfl, Text.notMem_hex (by simp) 4 _⟩
  have hlabel (a : Address) (i : Instruction) : TraceLine.text ⟨a, i⟩ =
      "mem_addr: 0x" ++ (Text.hex 4 a.toNat ++ ("    instruction: " ++ i.text)) := by
    rw [TraceLine.text]
    simp only [String.append_assoc]
  rintro ⟨a, i⟩ ⟨b, j⟩ h
  rw [hlabel, hlabel, String.append_right_inj] at h
  obtain ⟨haddress, hinstruction⟩ := (hcloses a).append_inj (hcloses b) h
  have haddress : a = b := BitVec.eq_of_toNat_eq (Text.hex_injective 3 haddress)
  rw [haddress, Instruction.text_injective hinstruction]

end ChipEight
