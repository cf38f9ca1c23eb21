import ChipEight.Table
import ChipEight.Word

/-!
# Memory

Four kibibytes, addressed modulo 4096. `store` writes consecutive bytes and wraps round the end;
loading a program stores it at `0x200`, above the font. `getElem_store` reads stored bytes back.
-/

namespace ChipEight

abbrev Memory := Table 12 Byte

/-- The glyphs of the sixteen hexadecimal digits, five rows of eight pixels each. -/
def fontGlyphs : List Byte :=
  [0xf0, 0x90, 0x90, 0x90, 0xf0,
   0x20, 0x60, 0x20, 0x20, 0x70,
   0xf0, 0x10, 0xf0, 0x80, 0xf0,
   0xf0, 0x10, 0xf0, 0x10, 0xf0,
   0x90, 0x90, 0xf0, 0x10, 0x10,
   0xf0, 0x80, 0xf0, 0x10, 0xf0,
   0xf0, 0x80, 0xf0, 0x90, 0xf0,
   0xf0, 0x10, 0x20, 0x40, 0x40,
   0xf0, 0x90, 0xf0, 0x90, 0xf0,
   0xf0, 0x90, 0xf0, 0x10, 0xf0,
   0xf0, 0x90, 0xf0, 0x90, 0x90,
   0xe0, 0x90, 0xe0, 0x90, 0xe0,
   0xf0, 0x80, 0x80, 0x80, 0xf0,
   0xe0, 0x90, 0x90, 0x90, 0xe0,
   0xf0, 0x80, 0xf0, 0x80, 0xf0,
   0xf0, 0x80, 0xf0, 0x80, 0x80]

def glyphSize : Nat := 5

/-- Where programs are loaded and start. -/
def programStart : Address := 0x200

namespace Memory

def size (_ : Memory) : Nat := wordCount 12

/-- Writes the bytes at `a`, `a + 1` and so on, in this order. -/
def store (m : Memory) (a : Address) : List Byte → Memory
  | [] => m
  | b :: bs => store (m.set a b) (a + 1) bs

/-- Memory with the font at its start and zeros elsewhere. -/
def initial : Memory := store (Table.replicate 12 0) 0 fontGlyphs

def load (m : Memory) (program : List Byte) : Memory := m.store programStart program

def read (m : Memory) (address : Int) : Byte := m[Address.ofInt address]

/-- Writes the low byte of an integer at an integer address. -/
def write (m : Memory) (address value : Int) : Memory :=
  m.set (Address.ofInt address) (Byte.ofInt value)

/-- The word at `a`, its more significant byte first. -/
def word (m : Memory) (a : Address) : Word := Word.ofBytes m[a] m[a + 1]

/-- The `n` bytes from `a` on. -/
def slice (m : Memory) (a : Address) : Nat → List Byte
  | 0 => []
  | n + 1 => m[a] :: slice m (a + 1) n

theorem store_append (m : Memory) (a : Address) (bs cs : List Byte) :
    m.store a (bs ++ cs) = (m.store a bs).store (a + BitVec.ofNat 12 bs.length) cs := by
  induction bs generalizing m a with
  | nil => simp [store]
  | cons b bs ih =>
    simp only [List.cons_append, store, ih, List.length_cons]
    congr 1
    rw [BitVec.add_assoc, BitVec.add_comm 1, BitVec.ofNat_add]
    rfl

/-- Up to 4096 stored bytes do not overlap: each address in their range holds its own byte. -/
theorem getElem_store (m : Memory) (a b : Address) (bs : List Byte) (h : bs.length ≤ 4096) :
    (m.store a bs)[b] = bs[(b - a).toNat]?.getD m[b] := by
  induction bs generalizing m a with
  | nil => simp [store]
  | cons c bs ih =>
    simp only [List.length_cons] at h
    rw [store, ih _ _ (by omega), Table.getElem_set]
    by_cases hab : a = b
    · subst hab
      have : (a - (a + 1)).toNat = 4095 := by
        have := a.isLt
        simp only [BitVec.toNat_sub, BitVec.toNat_add, show BitVec.toNat (1 : Address) = 1 from rfl]
        omega
      rw [this, List.getElem?_eq_none (by omega)]
      simp
    · have hne : a.toNat ≠ b.toNat := fun e => hab (BitVec.eq_of_toNat_eq e)
      have : (b - a).toNat = (b - (a + 1)).toNat + 1 := by
        have := a.isLt
        have := b.isLt
        simp only [BitVec.toNat_sub, BitVec.toNat_add, show BitVec.toNat (1 : Address) = 1 from rfl]
        omega
      simp [this, hab]

/-- The bytes of a word are read back as the word, also where it straddles the end of memory. -/
theorem word_store (m : Memory) (a : Address) (w : Word) : (m.store a [w.high, w.low]).word a = w := by
  have hnext : a + 1 ≠ a := by bv_omega
  show Word.ofBytes ((m.set a w.high).set (a + 1) w.low)[a] ((m.set a w.high).set (a + 1) w.low)[a + 1] = w
  rw [Table.getElem_set_ne _ _ hnext, Table.getElem_set_self, Table.getElem_set_self, Word.ofBytes_high_low]

@[simp] theorem length_slice (m : Memory) (a : Address) (n : Nat) : (m.slice a n).length = n := by
  induction n generalizing a with
  | zero => rfl
  | succ n ih => simp [slice, ih]

/-- Byte `d` of a slice is the byte at `a + d`. -/
theorem getElem?_slice (m : Memory) (a : Address) {n d : Nat} (h : d < n) :
    (m.slice a n)[d]? = some m[a + BitVec.ofNat 12 d] := by
  induction n generalizing a d with
  | zero => omega
  | succ n ih =>
    cases d with
    | zero => simp [slice]
    | succ d =>
      rw [slice, List.getElem?_cons_succ, ih (a + 1) (by omega), BitVec.add_assoc, BitVec.add_comm 1,
        BitVec.ofNat_add]
      rfl

end Memory
end ChipEight
