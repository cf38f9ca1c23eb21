import ChipEight.Memory
import ChipEight.Proofs.Word.Integer
import Mathlib.Data.List.Rotate

/-!
# Memory as the last values stored

Whatever is done to memory is a list of values stored one after the other, each at an address (`edited_eq`). A byte is
the low byte of the last value that was stored at its address modulo 4096 (`toNat_read_storeEach`). A long program laps
memory, and its last 4096 bytes are what is left (`toList_load`).
-/

namespace ChipEight

namespace Address

theorem toNat_ofInt (a : Int) : ((Address.ofInt a).toNat : Int) = a % 4096 := natCast_toNat_ofInt a

theorem ofInt_eq_iff {a b : Int} : Address.ofInt a = Address.ofInt b ↔ a % 4096 = b % 4096 := ofInt_eq_ofInt_iff

theorem ofInt_add_one (a : Int) : Address.ofInt (a + 1) = Address.ofInt a + 1 := BitVec.ofInt_add ..

end Address

theorem Byte.toNat_ofInt (v : Int) : ((Byte.ofInt v).toNat : Int) = v % 256 := natCast_toNat_ofInt v

namespace Memory

/-- What is done to memory from outside. -/
inductive Edit where
  | write (address value : Int)
  | load (program : List Byte)
deriving DecidableEq, Repr

def edit (m : Memory) : Edit → Memory
  | .write address value => m.write address value
  | .load program => m.load program

/-- The addresses and values that an edit stores, in this order. -/
def Edit.stores : Edit → List (Int × Int)
  | .write address value => [(address, value)]
  | .load program => program.zipIdx.map fun (b, k) => (0x200 + k, b.toNat)

def edited (m : Memory) (edits : List Edit) : Memory := edits.foldl edit m

/-- The value that was stored last at an address, which is taken modulo 4096. -/
def lastValue? (stores : List (Int × Int)) (address : Int) : Option Int :=
  (stores.findRev? fun s => s.1 % 4096 = address % 4096).map Prod.snd

def storeEach (m : Memory) (stores : List (Int × Int)) : Memory := stores.foldl (fun m s => m.write s.1 s.2) m

variable (m : Memory)

/-! ### Single stores -/

theorem read_write (a v b : Int) :
    (m.write a v).read b = if a % 4096 = b % 4096 then Byte.ofInt v else m.read b := by
  rw [read, write, Table.getElem_set]
  exact if_congr Address.ofInt_eq_iff rfl rfl

theorem lastValue?_concat (stores : List (Int × Int)) (a v b : Int) :
    lastValue? (stores ++ [(a, v)]) b = if a % 4096 = b % 4096 then some v else lastValue? stores b := by
  rw [lastValue?, List.findRev?_eq_find?_reverse, List.reverse_concat, List.find?_cons, lastValue?,
    List.findRev?_eq_find?_reverse]
  by_cases h : a % 4096 = b % 4096
  · simp [h]
  · simp [h]

theorem toNat_read_storeEach (stores : List (Int × Int)) (b : Int) :
    (((m.storeEach stores).read b).toNat : Int) =
      (lastValue? stores b).elim ((m.read b).toNat : Int) fun v => v % 256 := by
  -- from the end: the last store decides, if it is at this address
  induction stores using List.reverseRecOn with
  | nil => rfl
  | append_singleton stores s ih =>
    obtain ⟨a, v⟩ := s
    have hlast : m.storeEach (stores ++ [(a, v)]) = (m.storeEach stores).write a v := List.foldl_concat ..
    rw [hlast, read_write, lastValue?_concat]
    split
    · exact Byte.toNat_ofInt v
    · exact ih

/-! ### Edits -/

theorem store_eq_storeEach (program : List Byte) (n : Nat) :
    m.store (Address.ofInt (0x200 + n)) program =
      m.storeEach ((program.zipIdx n).map fun (b, k) => (0x200 + (k : Int), (b.toNat : Int))) := by
  induction program generalizing m n with
  | nil => rfl
  | cons b program ih =>
    have hnext : Address.ofInt (0x200 + n) + 1 = Address.ofInt (0x200 + (n + 1 : Nat)) := by
      rw [← Address.ofInt_add_one, Int.natCast_add, ← Int.add_assoc]
      rfl
    have hbyte : Byte.ofInt b.toNat = b := by
      rw [Byte.ofInt, BitVec.ofInt_natCast, BitVec.ofNat_toNat, BitVec.setWidth_eq]
    rw [store, hnext, ih, List.zipIdx_cons, List.map_cons, storeEach, storeEach, List.foldl_cons, write, hbyte]

theorem edit_eq (e : Edit) : m.edit e = m.storeEach e.stores := by
  cases e with
  | write address value => rfl
  | load program => exact m.store_eq_storeEach program 0

theorem edited_eq (edits : List Edit) : m.edited edits = m.storeEach (edits.flatMap Edit.stores) := by
  induction edits generalizing m with
  | nil => rfl
  | cons e edits ih =>
    rw [List.flatMap_cons, storeEach, List.foldl_append]
    show (m.edit e).edited edits = _
    rw [ih, edit_eq]
    rfl

/-! ### Words -/

theorem toNat_word (b : Int) :
    (m.word (.ofInt b)).toNat = 256 * (m.read b).toNat + (m.read (b + 1)).toNat := by
  rw [word, Word.ofBytes, BitVec.toNat_append, ← Address.ofInt_add_one, Nat.shiftLeft_eq, Nat.mul_comm,
    ← Nat.two_pow_add_eq_or_of_lt (BitVec.isLt _)]
  rfl

/-! ### Loading -/

theorem read_load_of_short {program : List Byte} (h : program.length ≤ 0xe00) {b : Int} (hb : 0 ≤ b ∧ b ≤ 0x1ff) :
    (m.load program).read b = m.read b := by
  have hoffset : 0xe00 ≤ (Address.ofInt b - programStart).toNat := by
    have hnat := Address.toNat_ofInt b
    rw [BitVec.toNat_sub, show programStart.toNat = 0x200 from rfl]
    omega
  rw [read, load, getElem_store _ _ _ _ (by omega), List.getElem?_eq_none (by omega), Option.getD_none, read]

/-- What was stored before the last 4096 bytes is stored over. -/
theorem toList_load {program : List Byte} (h : 4096 ≤ program.length) :
    (m.load program).toList =
      (program.drop (program.length - 4096)).rotate (4096 - (0x200 + program.length) % 4096) := by
  let start := programStart + BitVec.ofNat 12 (program.take (program.length - 4096)).length
  have hsplit : m.load program = (m.store programStart (program.take (program.length - 4096))).store start
      (program.drop (program.length - 4096)) := by
    rw [← store_append, List.take_append_drop, load]
  have hlength : (program.drop (program.length - 4096)).length = 4096 := by
    rw [List.length_drop]
    omega
  refine List.ext_getElem? fun i => ?_
  by_cases hi : i < 4096
  · have hplace : (BitVec.ofNat 12 i - start).toNat = (i + (4096 - (0x200 + program.length) % 4096)) % 4096 := by
      have hstart : start.toNat = (0x200 + (program.length - 4096)) % 4096 := by
        rw [BitVec.toNat_add, BitVec.toNat_ofNat, List.length_take, show programStart.toNat = 0x200 from rfl]
        omega
      rw [BitVec.toNat_sub, hstart, BitVec.toNat_ofNat]
      omega
    have hget := (m.load program).getElem?_toList (BitVec.ofNat 12 i)
    rw [BitVec.toNat_ofNat, Nat.mod_eq_of_lt hi, hsplit, getElem_store _ _ _ _ (Nat.le_of_eq hlength), hplace] at hget
    have hlt : (i + (4096 - (0x200 + program.length) % 4096)) % 4096 <
        (program.drop (program.length - 4096)).length := by
      rw [hlength]
      exact Nat.mod_lt _ (by decide)
    rw [hsplit, hget, List.getElem?_rotate (hlength.symm ▸ hi), hlength, List.getElem?_eq_getElem hlt, Option.getD_some]
  · rw [List.getElem?_eq_none (by rw [Table.length_toList]; exact Nat.le_of_not_lt hi),
      List.getElem?_eq_none (by rw [List.length_rotate, hlength]; exact Nat.le_of_not_lt hi)]

/-- A byte of memory is the low byte of the last value stored at its address modulo 4096, and a word is made of the
bytes at its address and at the next one. So a program that fits above the font leaves everything below it alone, and a
program as long as memory leaves only its own last 4096 bytes, rotated. -/
theorem reads_last_value (m : Memory) :
    (∀ (edits : List Edit) (b : Int), (((m.edited edits).read b).toNat : Int) =
      (lastValue? (edits.flatMap Edit.stores) b).elim ((m.read b).toNat : Int) fun v => v % 256) ∧
    (∀ b : Int, (m.word (.ofInt b)).toNat = 256 * (m.read b).toNat + (m.read (b + 1)).toNat) ∧
    (∀ program : List Byte, program.length ≤ 0xe00 → ∀ b : Int, 0 ≤ b ∧ b ≤ 0x1ff →
      (m.load program).read b = m.read b) ∧
    ∀ program : List Byte, 4096 ≤ program.length → (m.load program).toList =
      (program.drop (program.length - 4096)).rotate (4096 - (0x200 + program.length) % 4096) := by
  refine ⟨fun edits b => ?_, m.toNat_word, fun program h b hb => m.read_load_of_short h hb,
    fun program h => m.toList_load h⟩
  rw [edited_eq]
  exact m.toNat_read_storeEach _ b

/-- Writes at both ends of memory, the longest program above the font, and a program that laps memory by one byte. -/
theorem reads_last_value_round_the_end :
    ((Memory.initial.edited [.write (-1) 300, .load [1, 2], .write 0x1fff (-2)]).read 0xfff).toNat = 254 ∧
    (Memory.initial.load (List.replicate 0xe00 7)).read 0 = 0xf0 ∧
    (Memory.initial.load (List.replicate 4096 7 ++ [9])).toList =
      (List.replicate 4095 7 ++ [9] : List Byte).rotate 3583 := by
  obtain ⟨hread, -, hshort, hlong⟩ := reads_last_value Memory.initial
  refine ⟨?_, ?_, ?_⟩
  · exact Int.ofNat_inj.1 (hread [.write (-1) 300, .load [1, 2], .write 0x1fff (-2)] 0xfff)
  · exact hshort (List.replicate 0xe00 7) (Nat.le_of_eq List.length_replicate) 0 (by decide)
  · have hlength : (List.replicate 4096 7 ++ [9] : List Byte).length = 4097 := by
      rw [List.length_append, List.length_replicate, List.length_singleton]
    have hback := hlong (List.replicate 4096 7 ++ [9]) (by rw [hlength]; decide)
    simp only [hlength, Nat.reduceSub, Nat.reduceAdd, Nat.reduceMod] at hback
    rw [List.drop_append_of_le_length (by rw [List.length_replicate]; decide), List.drop_replicate] at hback
    simpa only [Nat.reduceSub] using hback

end Memory
end ChipEight
