import ChipEight.Text.Integer
import ChipEight.Proofs.Text.Numeral

/-!
# Integers in decimal

A row of the digits from `0` to `9` is read digit by digit (`digitRow?_of_isDigit`), so that a decimal numeral gives its
number back (`natural?_toDigits`), and with a sign its integer (`integer?_signedDecimal`).
-/

namespace ChipEight.Text

/-- A decimal numeral, behind a dash if the integer is negative. -/
def signedDecimal : Int → String
  | .ofNat n => decimal n
  | .negSucc n => "-" ++ decimal (n + 1)

/-! ### Digits -/

variable {c : Char}

theorem digitValue?_of_isDigit (h : c.isDigit = true) : digitValue? c = some (c.toNat - '0'.toNat) := by
  have hrange : (decide ('0'.toNat ≤ c.toNat) && decide (c.toNat < '0'.toNat + 10)) = true := by
    obtain ⟨hzero, hnine⟩ := Char.isDigit_iff_toNat.1 h
    exact Bool.and_eq_true_iff.2 ⟨decide_eq_true hzero, decide_eq_true (Nat.lt_succ_of_le hnine)⟩
  have hzeros : zeroDigits = '0'.toNat :: zeroDigits.tail := rfl
  rw [digitValue?, hzeros,
    List.find?_cons_of_pos (p := fun z => decide (z ≤ c.toNat) && decide (c.toNat < z + 10)) hrange]
  rfl

theorem isDecimalDigit_of_isDigit (h : c.isDigit = true) : isDecimalDigit c = true := by
  rw [isDecimalDigit, digitValue?_of_isDigit h]
  rfl

theorem not_isBlank_of_isDigit (h : c.isDigit = true) : isBlank c = false := by
  obtain ⟨hzero, hnine⟩ := Char.isDigit_iff_toNat.1 h
  have hzero : 48 ≤ c.toNat := hzero
  have hnine : c.toNat ≤ 57 := hnine
  simp only [isBlank, Bool.or_eq_false_iff, Bool.and_eq_false_iff, decide_eq_false_iff_not]
  omega

theorem digitRow?_of_isDigit {s : List Char} (hs : s ≠ []) (h : ∀ c ∈ s, c.isDigit = true) :
    digitRow? s = some (s.map fun c => c.toNat - '0'.toNat) := by
  induction s using digitRow?.induct with
  | case1 => exact absurd rfl hs
  | case2 c => rw [digitRow?, digitValue?_of_isDigit (h c List.mem_cons_self), Option.map_some, List.map_singleton]
  | case3 c rest _ =>
    rw [List.forall_mem_cons, List.forall_mem_cons] at h
    exact absurd h.2.1 (by decide)
  | case4 c rest hrest hnot ih =>
    rw [List.forall_mem_cons] at h
    rw [digitRow?.eq_4 c rest hrest hnot, digitValue?_of_isDigit h.1, ih hrest h.2]
    rfl

theorem trimmed_eq_self {s : List Char} (h : ∀ c ∈ s, isBlank c = false) : trimmed s = s := by
  have hkeep {l : List Char} (hl : ∀ c ∈ l, isBlank c = false) : l.dropWhile isBlank = l := by
    cases l with
    | nil => rfl
    | cons c l => exact List.dropWhile_cons_of_neg (Bool.not_eq_true _ ▸ hl c List.mem_cons_self)
  rw [trimmed, hkeep h, hkeep fun c hc => h c (List.mem_reverse.1 hc), List.reverse_reverse]

/-! ### Numerals -/

theorem isDigit_of_mem_toDigits {n : Nat} (h : c ∈ Nat.toDigits 10 n) : c.isDigit = true :=
  Nat.isDigit_of_mem_toDigits (by decide) (by decide) h

theorem natural?_toDigits {n : Nat} (h : (Nat.toDigits 10 n).length ≤ maxDigits) :
    natural? (Nat.toDigits 10 n) = some n := by
  have hrow := digitRow?_of_isDigit Nat.toDigits_ne_nil fun _ => isDigit_of_mem_toDigits (n := n)
  have hvalue : ((Nat.toDigits 10 n).map fun c => c.toNat - '0'.toNat).foldl (10 * · + ·) 0 = n := by
    rw [List.foldl_map]
    exact Nat.ofDigitChars_ten_toDigits
  rw [natural?, hrow]
  show (if _ then _ else _) = _
  rw [List.length_map, if_pos h, hvalue]
  rfl

theorem toList_signedDecimal_negSucc (n : Nat) :
    (signedDecimal (.negSucc n)).toList = '-' :: Nat.toDigits 10 (n + 1) := by
  rw [signedDecimal, String.toList_append, toList_decimal]
  rfl

theorem integer?_signedDecimal {i : Int} (h : (Nat.toDigits 10 i.natAbs).length ≤ maxDigits) :
    integer? (signedDecimal i) = some i := by
  have hdigit {n : Nat} : ∀ c ∈ Nat.toDigits 10 n, isBlank c = false := fun _ hc =>
    not_isBlank_of_isDigit (isDigit_of_mem_toDigits hc)
  cases i with
  | ofNat n =>
    have hread : natural? (Nat.toDigits 10 n) = some n := natural?_toDigits h
    rw [integer?, signedDecimal, toList_decimal, trimmed_eq_self hdigit]
    -- a digit is no sign
    split
    next digits hsign => exact absurd (isDigit_of_mem_toDigits (hsign ▸ List.mem_cons_self)) (by decide)
    next digits hsign => exact absurd (isDigit_of_mem_toDigits (hsign ▸ List.mem_cons_self)) (by decide)
    next => rw [hread, Option.map_some]
  | negSucc n =>
    have hread : natural? (Nat.toDigits 10 (n + 1)) = some (n + 1) := natural?_toDigits h
    rw [integer?, toList_signedDecimal_negSucc, trimmed_eq_self (List.forall_mem_cons.2 ⟨by decide, hdigit⟩)]
    simp only [hread]
    rfl

end ChipEight.Text
