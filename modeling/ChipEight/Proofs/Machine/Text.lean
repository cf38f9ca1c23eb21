import ChipEight.Machine.Basic
import ChipEight.Proofs.Text.Fields
import ChipEight.Proofs.Text.Numeral

/-!
# What the text of a machine tells

The text is a row of fields, each with a label behind it (`text_eq_closed`) that starts with a character which the
field cannot hold (`closes_textFields`). So the fields can be read back one after the other, however wide they are, and
each field is known from how it is written (`text_tells_state`).
-/

namespace ChipEight

/-- How a slot of the stack is written. -/
def Address.slotText (a : Address) : String := "'" ++ Text.signedHex (a.toNat : Int) ++ "'"

/-- How a register is written, or a key that is down. -/
def decimalText {w : Nat} (b : BitVec w) : String := Text.decimal b.toNat

section
variable {w : Nat} {c : Char}

theorem decimalText_injective : Function.Injective (decimalText (w := w)) := fun _ _ h =>
  BitVec.eq_of_toNat_eq (Text.decimal_injective h)

theorem notMem_decimalText (hc : ∀ d, Nat.digitChar d ≠ c) (b : BitVec w) : c ∉ (decimalText b).toList :=
  Text.notMem_decimal hc _

theorem toList_slotText (a : Address) :
    a.slotText.toList = ['\x27', '0', 'x'] ++ Text.hexDigits 1 a.toNat ++ ['\x27'] := by
  simp [Address.slotText, Text.signedHex, Text.toList_hex]

theorem slotText_injective : Function.Injective Address.slotText := by
  intro a b h
  rw [← String.toList_inj, toList_slotText, toList_slotText, List.append_left_inj, List.append_right_inj] at h
  exact BitVec.eq_of_toNat_eq (Text.hexDigits_injective 0 h)

theorem notMem_slotText (hquote : c ∉ ['\x27', 'x']) (hc : ∀ d, Nat.digitChar d ≠ c) (a : Address) :
    c ∉ a.slotText.toList := by
  have hzero : c ≠ '0' := fun h => hc 0 h.symm
  rw [toList_slotText]
  simp only [List.mem_append, List.mem_cons, List.not_mem_nil, or_false, not_or] at hquote ⊢
  exact ⟨⟨⟨hquote.1, hzero, hquote.2⟩, Text.notMem_hexDigits hc 1 _⟩, hquote.1⟩

/-! ### Lists of numbers and of slots -/

theorem decimals_injective :
    Function.Injective fun l : List (BitVec w) => String.intercalate ", " (l.map decimalText) :=
  Text.commaSeparated_map_injective decimalText_injective fun b =>
    ⟨Text.decimal_ne_empty _, notMem_decimalText (by simp) b⟩

theorem notMem_decimals (hsep : c ≠ ',' ∧ c ≠ ' ') (hc : ∀ d, Nat.digitChar d ≠ c) (l : List (BitVec w)) :
    c ∉ (String.intercalate ", " (l.map decimalText)).toList :=
  Text.notMem_commaSeparated hsep (List.forall_mem_map.2 fun b _ => notMem_decimalText hc b)

theorem slotTexts_injective :
    Function.Injective fun l : List Address => String.intercalate ", " (l.map Address.slotText) := by
  refine Text.commaSeparated_map_injective slotText_injective fun a => ⟨fun h => ?_, ?_⟩
  · cases (toList_slotText a).symm.trans (congrArg String.toList h)
  · exact notMem_slotText (by decide) (by simp) a

theorem bracket_notMem_slotTexts (l : List Address) :
    ']' ∉ (String.intercalate ", " (l.map Address.slotText)).toList :=
  Text.notMem_commaSeparated (by decide) (List.forall_mem_map.2 fun a _ => notMem_slotText (by decide) (by simp) a)

end

namespace Machine

/-- What stands behind each field of the text. -/
def textLabels : List String :=
  [" | IDX_REGISTER:0x", " | VARIABLE_REGISTERS:[", "]\nDELAY_TIMER:", " | SOUND_TIMER:", "\nSTACK:Stack(sp=",
   ", addr_list=[", "])\nDRAW: ", " | KEYPAD:Keypad([", "])"]

def textFields (m : Machine) : List String :=
  [Text.hex 3 m.pc.toNat, Text.hex 3 m.index.toNat, String.intercalate ", " (m.registers.toList.map decimalText),
   decimalText m.delay, decimalText m.sound, decimalText m.stack.pointer,
   String.intercalate ", " (m.stack.slots.toList.map Address.slotText), if m.drawn then "True" else "False",
   String.intercalate ", " (m.keypad.downKeys.map decimalText)]

theorem text_eq_closed (m : Machine) : m.text = "PC_REGISTER:0x" ++ Text.closed textLabels m.textFields := by
  rw [← String.toList_inj]
  simp [text, Stack.text, Keypad.text, Text.bracketed, textLabels, textFields, Text.closed, decimalText,
    Address.slotText, Function.comp_def]

theorem closes_textFields (m : Machine) : List.Forall₂ Text.Closes textLabels m.textFields := by
  have hdrawn : ' ' ∉ (if m.drawn then "True" else "False").toList := by cases m.drawn <;> decide
  simp only [textLabels, textFields, List.forall₂_cons]
  exact
    ⟨⟨' ', rfl, Text.notMem_hex (by simp) 3 _⟩, ⟨' ', rfl, Text.notMem_hex (by simp) 3 _⟩,
      ⟨']', rfl, notMem_decimals (by decide) (by simp) _⟩, ⟨' ', rfl, notMem_decimalText (by simp) _⟩,
      ⟨'\n', rfl, notMem_decimalText (by simp) _⟩, ⟨',', rfl, notMem_decimalText (by simp) _⟩,
      ⟨']', rfl, bracket_notMem_slotTexts _⟩, ⟨' ', rfl, hdrawn⟩,
      ⟨']', rfl, notMem_decimals (by decide) (by simp) _⟩, .nil⟩

theorem textFields_inj {m m' : Machine} (h : m.text = m'.text) : m.textFields = m'.textFields := by
  rw [text_eq_closed, text_eq_closed, String.append_right_inj] at h
  exact Text.closed_inj m.closes_textFields m'.closes_textFields h

/-- Two machines have the same text just in case they agree on all but their memories and displays. -/
theorem text_tells_state (m m' : Machine) :
    m.text = m'.text ↔
      m.pc = m'.pc ∧ m.index = m'.index ∧ (∀ x : Nibble, m.registers[x] = m'.registers[x]) ∧
      m.delay = m'.delay ∧ m.sound = m'.sound ∧
      m.stack.pointer = m'.stack.pointer ∧ (∀ i : Nibble, m.stack.slots[i] = m'.stack.slots[i]) ∧
      m.drawn = m'.drawn ∧ ∀ k, m.keypad.isDown k = m'.keypad.isDown k := by
  constructor
  · intro h
    have hfields := textFields_inj h
    simp only [textFields, List.cons.injEq] at hfields
    obtain ⟨hpc, hindex, hregisters, hdelay, hsound, hpointer, hslot, hdrawn, hkeys, -⟩ := hfields
    have hregisters : m.registers = m'.registers := Table.toList_injective (decimals_injective hregisters)
    have hslot : m.stack.slots = m'.stack.slots := Table.toList_injective (slotTexts_injective hslot)
    have hkeypad : m.keypad = m'.keypad := Keypad.downKeys_injective (decimals_injective hkeys)
    have hdrawn : m.drawn = m'.drawn := by
      cases hm : m.drawn <;> cases hm' : m'.drawn <;> simp [hm, hm'] at hdrawn ⊢
    exact ⟨BitVec.eq_of_toNat_eq (Text.hex_injective 2 hpc), BitVec.eq_of_toNat_eq (Text.hex_injective 2 hindex),
      fun _ => hregisters ▸ rfl, decimalText_injective hdelay, decimalText_injective hsound,
      decimalText_injective hpointer, fun _ => hslot ▸ rfl, hdrawn, fun _ => hkeypad ▸ rfl⟩
  · rintro ⟨hpc, hindex, hregisters, hdelay, hsound, hpointer, hslot, hdrawn, hkeys⟩
    have hregisters : m.registers = m'.registers := Table.ext hregisters
    have hslot : m.stack.slots = m'.stack.slots := Table.ext hslot
    have hkeypad : m.keypad = m'.keypad := Keypad.ext hkeys
    rw [text_eq_closed, text_eq_closed, textFields, textFields, hpc, hindex, hregisters, hdelay, hsound, hpointer,
      hslot, hdrawn, hkeypad]

end Machine
end ChipEight
