import ChipEight.Proofs.Word.Integer
import ChipEight.Stack
import Mathlib.Data.List.Induction

/-!
# The stack as a ring

Pops read the slots below the pointer one after the other and change none of them (`pops_eq`). Slot `i` below the
pointer holds the value that was pushed into it last, which is value `i % 16` counted from the last one, or what it held
before if there were no more than `i % 16` pushes (`getElem_pushAll`).
-/

namespace ChipEight.Stack
variable {α : Type}

/-- Pushes values one after the other. -/
def pushAll (s : Stack α) (values : List α) : Stack α := values.foldl push s

/-- What a number of pops give, and the stack that they leave. -/
def pops (s : Stack α) : Nat → List α × Stack α
  | 0 => ([], s)
  | k + 1 =>
    let (a, below) := s.pop
    let (rest, last) := below.pops k
    (a :: rest, last)

variable (s : Stack α)

theorem pushAll_concat (values : List α) (a : α) : s.pushAll (values ++ [a]) = (s.pushAll values).push a :=
  List.foldl_append

theorem pointer_pushAll (values : List α) :
    (s.pushAll values).pointer = s.pointer + BitVec.ofNat 4 values.length := by
  induction values using List.reverseRecOn with
  | nil => exact (BitVec.add_zero _).symm
  | append_singleton values a ih =>
    rw [pushAll_concat, pointer_push, ih, List.length_append, BitVec.ofNat_add, BitVec.add_assoc]
    rfl

theorem below_succ (p : Nibble) (i : Nat) : p - BitVec.ofNat 4 (i + 1) = p - 1 - BitVec.ofNat 4 i := by
  rw [BitVec.ofNat_add]
  bv_omega

/-- The slots that pushes do not reach keep what they hold, and the others hold the last values, the latest one at the
pointer. -/
theorem getElem_pushAll (values : List α) (i : Nat) :
    (s.pushAll values).slots[(s.pushAll values).pointer - BitVec.ofNat 4 i] =
      values.reverse[i % 16]?.getD s.slots[(s.pushAll values).pointer - BitVec.ofNat 4 i] := by
  -- on the last push: it moves the pointer, so that slot `i` below it was slot `i - 1` before
  induction values using List.reverseRecOn generalizing i with
  | nil => rfl
  | append_singleton values a ih =>
    rw [pushAll_concat, pointer_push, List.reverse_concat]
    have hi : (BitVec.ofNat 4 i).toNat = i % 16 := BitVec.toNat_ofNat i 4
    by_cases hzero : i % 16 = 0
    · have htop : BitVec.ofNat 4 i = 0 := BitVec.eq_of_toNat_eq (hi.trans hzero)
      rw [htop, hzero, show (0 : Nibble) = 0#4 from rfl, BitVec.sub_zero]
      exact Table.getElem_set_self ..
    · obtain ⟨j, rfl⟩ : ∃ j, i = j + 1 := ⟨i - 1, by omega⟩
      have hplace : (s.pushAll values).pointer + 1 - BitVec.ofNat 4 (j + 1) =
          (s.pushAll values).pointer - BitVec.ofNat 4 j := by
        rw [below_succ, show (1 : Nibble) = 1#4 from rfl, BitVec.add_sub_cancel]
      have hne : (s.pushAll values).pointer + 1 ≠ (s.pushAll values).pointer - BitVec.ofNat 4 j := by
        bv_omega
      have hmod : (j + 1) % 16 = j % 16 + 1 := by omega
      rw [hplace, hmod, List.getElem?_cons_succ]
      exact (Table.getElem_set_ne _ _ hne).trans (ih j)

theorem pops_eq (k : Nat) :
    s.pops k = ((List.range k).map fun i => s.slots[s.pointer - BitVec.ofNat 4 i],
      { s with pointer := s.pointer - BitVec.ofNat 4 k }) := by
  induction k generalizing s with
  | zero =>
    refine Prod.ext rfl ?_
    show s = { s with pointer := s.pointer - 0#4 }
    rw [BitVec.sub_zero]
  | succ k ih =>
    rw [pops, List.range_succ_eq_map, List.map_cons, List.map_map]
    simp only [pop, ih, ← below_succ]
    refine Prod.ext (congrArg (· :: _) ?_) rfl
    show s.slots[s.pointer] = s.slots[s.pointer - 0#4]
    rw [BitVec.sub_zero]

/-- Slot `s + n - i`, for a pointer `s`, is the one that is `i` below the pointer after `n` pushes. -/
theorem ofInt_pointer (values : List α) (i : Nat) :
    Nibble.ofInt (s.pointer.toNat + values.length - i) = (s.pushAll values).pointer - BitVec.ofNat 4 i := by
  rw [Nibble.ofInt, ofInt_sub, BitVec.ofInt_add, BitVec.ofInt_natCast, BitVec.ofInt_natCast, BitVec.ofInt_natCast,
    BitVec.ofNat_toNat, BitVec.setWidth_eq, pointer_pushAll]

/-- Up to sixteen values come back in the opposite order. -/
theorem pops_fst_pushAll {values : List α} {k : Nat} (hk : k ≤ 16) (hlength : k ≤ values.length) :
    ((s.pushAll values).pops k).1 = values.reverse.take k := by
  refine List.ext_getElem? fun i => ?_
  rw [pops_eq, List.getElem?_map]
  by_cases hi : i < k
  · have hlt : i < values.reverse.length := by rw [List.length_reverse]; omega
    have hmod : i % 16 = i := by omega
    rw [List.getElem?_range hi, Option.map_some, getElem_pushAll, hmod, List.getElem?_take_of_lt hi,
      List.getElem?_eq_getElem hlt, Option.getD_some]
  · rw [List.getElem?_eq_none (by simpa using hi), List.getElem?_eq_none (by rw [List.length_take]; omega)]
    rfl

/-- The slot above the pointer holds the oldest of sixteen values. -/
theorem getElem_pushAll_oldest {oldest : α} {middle : List α} (h : middle.length = 15) :
    (s.pushAll (oldest :: middle)).slots[(s.pushAll (oldest :: middle)).pointer + 1] = oldest := by
  have hplace (p : Nibble) : p + 1 = p - BitVec.ofNat 4 15 := by bv_omega
  have holdest : (oldest :: middle).reverse[15 % 16]? = some oldest := by
    rw [List.reverse_cons, List.getElem?_append_right (by rw [List.length_reverse]; omega), List.length_reverse, h]
    rfl
  rw [hplace, getElem_pushAll, holdest, Option.getD_some]

/-- After `n` pushes, pop `i` gives value `n - i % 16` if there are so many values, and else what slot `s + n - i` held
before. The slots stay, and each pop moves the pointer down by one. So up to sixteen values come back, the last one
first, and a seventeenth takes the place of the oldest. -/
theorem pops_pushAll (pushed : List α) :
    let n := pushed.length
    let t := s.pushAll pushed
    (∀ k i : Nat, i < k → (t.pops k).1[i]? =
      some (if h : i % 16 < n then pushed[n - 1 - i % 16] else s.slots[Nibble.ofInt (s.pointer.toNat + n - i)])) ∧
    (∀ k : Nat, (t.pops k).1.length = k ∧ (t.pops k).2.slots = t.slots ∧
      ((t.pops k).2.pointer.toNat : Int) = (s.pointer.toNat + n - k) % 16) ∧
    (n ≤ 16 → (t.pops n).1 = pushed.reverse) ∧
    ∀ (oldest : α) (middle : List α) (latest : α), middle.length = 15 →
      let full := s.pushAll (oldest :: middle)
      let next := full.push latest
      full.slots[next.pointer] = oldest ∧ next.slots = full.slots.set next.pointer latest ∧
        (next.pops 16).1 = latest :: middle.reverse := by
  intro n t
  refine ⟨fun k i hi => ?_, fun k => ⟨?_, ?_, ?_⟩, fun hn => ?_, fun oldest middle latest h => ⟨?_, rfl, ?_⟩⟩
  · rw [pops_eq, List.getElem?_map, List.getElem?_range hi, Option.map_some, getElem_pushAll, ofInt_pointer]
    congr 1
    split
    next h => rw [List.getElem?_reverse h, List.getElem?_eq_getElem (by omega), Option.getD_some]
    next h => rw [List.getElem?_eq_none (by rw [List.length_reverse]; omega), Option.getD_none]
  · rw [pops_eq, List.length_map, List.length_range]
  · rw [pops_eq]
  · rw [pops_eq]
    show (((s.pushAll pushed).pointer - BitVec.ofNat 4 k).toNat : Int) = _
    rw [← ofInt_pointer, Nibble.ofInt, BitVec.toNat_ofInt]
    omega
  · rw [pops_fst_pushAll s hn (Nat.le_refl _)]
    exact List.take_of_length_le (List.length_reverse.le)
  · exact getElem_pushAll_oldest s h
  · have hover : (s.pushAll (oldest :: middle)).push latest = s.pushAll (oldest :: middle ++ [latest]) :=
      (pushAll_concat s _ latest).symm
    show (((s.pushAll (oldest :: middle)).push latest).pops 16).1 = _
    rw [hover, pops_fst_pushAll s (Nat.le_refl _) (by simp [h]), List.reverse_concat, List.take_succ_cons,
      List.reverse_cons, List.take_left' (by simp [h])]

/-- A stack that holds in each slot the number of the slot, with the pointer near the end. -/
def numbered : Stack Int := ⟨.ofFn fun i => i.toNat, 14⟩

theorem pops_pushAll_numbered :
    ((numbered.pushAll [-1, 70000, 5]).pops 40).1[18]? = some (-1) ∧
    ((numbered.pushAll [-1, 70000, 5]).pops 40).1[35]? = some 14 ∧
    ((numbered.pushAll [-1, 70000, 5]).pops 40).2.pointer.toNat = 9 ∧
    ((numbered.pushAll [-1, 70000, 5]).pops 3).1 = [5, 70000, -1] ∧
    (((numbered.pushAll (100 :: .replicate 15 7)).push 200).pops 16).1 = 200 :: .replicate 15 7 := by
  obtain ⟨hvalue, hstack, horder, hover⟩ := pops_pushAll numbered [-1, 70000, 5]
  refine ⟨hvalue 40 18 (by decide), hvalue 40 35 (by decide), ?_, horder (by decide), ?_⟩
  · exact Int.natCast_inj.1 (hstack 40).2.2
  · exact (hover 100 (.replicate 15 7) 200 (by decide)).2.2

end ChipEight.Stack
