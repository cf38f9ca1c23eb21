import ChipEight.Table
import ChipEight.Word
import ChipEight.Text.Numeral

/-!
# The keypad

Sixteen keys, each up or down. The keyboard sets them and the machine reads them. `first?` is the least key that is down
(`le_of_first?`).
-/

namespace ChipEight

/-- Whether each key is down. -/
structure Keypad where
  pressed : Table 4 Bool
deriving DecidableEq

namespace Keypad

/-- The sixteen keys in ascending order. -/
def keys : List Nibble := (List.range 16).map (BitVec.ofNat 4)

def released : Keypad := ⟨.replicate 4 false⟩

def isDown (p : Keypad) (key : Nibble) : Bool := p.pressed[key]

def set (p : Keypad) (key : Nibble) (down : Bool) : Keypad := ⟨p.pressed.set key down⟩

/-- The keys that are down, in ascending order. -/
def downKeys (p : Keypad) : List Nibble := keys.filter p.isDown

def first? (p : Keypad) : Option Nibble := keys.find? p.isDown

def isUntouched (p : Keypad) : Bool := !keys.any p.isDown

/-- The keys that are down, as a list. -/
def text (p : Keypad) : String :=
  "Keypad(" ++ Text.bracketed (p.downKeys.map fun k => Text.decimal k.toNat) ++ ")"

theorem mem_keys (k : Nibble) : k ∈ keys := by
  simp only [keys, List.mem_map, List.mem_range]
  exact ⟨k.toNat, k.isLt, by simp⟩

@[ext] theorem ext {p q : Keypad} (h : ∀ k, p.isDown k = q.isDown k) : p = q :=
  congrArg mk (Table.ext h)

@[simp] theorem isDown_released (k : Nibble) : released.isDown k = false := by
  simp [released, isDown]

theorem isDown_set (p : Keypad) (key k : Nibble) (down : Bool) :
    (p.set key down).isDown k = if key = k then down else p.isDown k := by
  simp [set, isDown, Table.getElem_set]

theorem mem_downKeys {p : Keypad} {k : Nibble} : k ∈ p.downKeys ↔ p.isDown k = true := by
  rw [downKeys, List.mem_filter]
  exact and_iff_right (mem_keys k)

theorem downKeys_injective : Function.Injective downKeys := by
  intro p q h
  ext k
  rw [Bool.eq_iff_iff, ← mem_downKeys, ← mem_downKeys, h]

theorem pairwise_keys : keys.Pairwise (· < ·) := by decide

theorem first?_eq_none_iff (p : Keypad) : p.first? = none ↔ p.isUntouched := by
  simp [first?, isUntouched]

theorem isUntouched_iff {p : Keypad} : p.isUntouched = true ↔ ∀ k, p.isDown k = false := by
  simp [isUntouched, mem_keys]

theorem le_of_first? {p : Keypad} {key k : Nibble} (h : p.first? = some key) (hk : p.isDown k = true) : key ≤ k := by
  obtain ⟨-, before, later, hkeys, hup⟩ := List.find?_eq_some_iff_append.1 h
  have hmem : k ∈ before ++ key :: later := hkeys ▸ mem_keys k
  have hsorted : (before ++ key :: later).Pairwise (· < ·) := hkeys ▸ pairwise_keys
  rcases List.mem_append.1 hmem with hk' | hk'
  · have hno := hup k hk'
    rw [hk] at hno
    cases hno
  · rcases List.mem_cons.1 hk' with rfl | hk'
    · exact BitVec.le_refl _
    · exact BitVec.le_of_lt ((List.pairwise_cons.1 (List.pairwise_append.1 hsorted).2.1).1 k hk')

theorem exists_first? {p : Keypad} {k : Nibble} (hk : p.isDown k = true) :
    ∃ key, p.first? = some key ∧ p.isDown key = true ∧ ∀ j, p.isDown j = true → key ≤ j := by
  cases hfirst : p.first? with
  | none =>
    have hup := isUntouched_iff.1 ((first?_eq_none_iff p).1 hfirst) k
    cases hk.symm.trans hup
  | some key => exact ⟨key, rfl, List.find?_some hfirst, fun j => le_of_first? hfirst⟩

theorem first?_eq_some_iff {p : Keypad} {key : Nibble} :
    p.first? = some key ↔ p.isDown key = true ∧ ∀ j, p.isDown j = true → key ≤ j := by
  constructor
  · exact fun h => ⟨List.find?_some h, fun j => le_of_first? h⟩
  · rintro ⟨hdown, hleast⟩
    obtain ⟨key', hfirst, hdown', hleast'⟩ := exists_first? hdown
    rw [hfirst, BitVec.le_antisymm (hleast' key hdown) (hleast key' hdown')]

end Keypad
end ChipEight
