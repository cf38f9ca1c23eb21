import ChipEight.Text.Numeral

/-!
# Numerals, digit by digit

A hexadecimal numeral of some width is that of the number without its last digit, one narrower, and this digit
(`hexDigits_add_two`). So the numerals of four digits are known by division (`hexDigits_four`), and numerals of one
width tell numbers apart, zeros in front or not (`hexDigits_injective`).
-/

namespace ChipEight.Text

/-! ### Digits -/

theorem digitChar_inj {d e : Nat} (hd : d < 16) (he : e < 16) (h : Nat.digitChar d = Nat.digitChar e) : d = e := by
  have hdigits : ∀ d < 16, ∀ e < 16, Nat.digitChar d = Nat.digitChar e → d = e := by decide
  exact hdigits d hd e he h

theorem toDigits_injective {b : Nat} (hb : 1 < b) (h16 : b ≤ 16) : Function.Injective (Nat.toDigits b) := by
  intro m n h
  have hmod (k : Nat) : k % b < b := Nat.mod_lt k (Nat.lt_trans Nat.zero_lt_one hb)
  have hmore (k : Nat) (c d : Char) : Nat.toDigits b k ++ [c] ≠ [d] := fun h =>
    Nat.toDigits_ne_nil (List.append_inj_left' (h.trans (List.nil_append [d]).symm) rfl)
  -- on the digits before the last one
  induction m using Nat.strongRecOn generalizing n with
  | ind m ih =>
    rw [Nat.toDigits_eq_if hb, Nat.toDigits_eq_if (n := n) hb] at h
    split at h
    next hm =>
      split at h
      next hn => exact digitChar_inj (by omega) (by omega) (List.singleton_inj.1 h)
      next hn => exact absurd h.symm (hmore _ _ _)
    next hm =>
      split at h
      next hn => exact absurd h (hmore _ _ _)
      next hn =>
        obtain ⟨hinit, hlast⟩ := List.append_inj' h rfl
        have hdiv : m / b = n / b := ih (m / b) (Nat.div_lt_self (by omega) hb) hinit
        have hrem : m % b = n % b :=
          digitChar_inj (Nat.lt_of_lt_of_le (hmod m) h16) (Nat.lt_of_lt_of_le (hmod n) h16) (List.singleton_inj.1 hlast)
        rw [← Nat.div_add_mod m b, hdiv, hrem, Nat.div_add_mod]

theorem notMem_toDigits {b : Nat} (hb : 1 < b) {c : Char} (hc : ∀ d, Nat.digitChar d ≠ c) (n : Nat) :
    c ∉ Nat.toDigits b n := by
  induction n using Nat.strongRecOn with
  | ind n ih =>
    rw [Nat.toDigits_eq_if hb]
    split
    next hn => exact fun hmem => hc n (List.mem_singleton.1 hmem).symm
    next hn =>
      intro hmem
      rcases List.mem_append.1 hmem with hinit | hlast
      · exact ih (n / b) (Nat.div_lt_self (by omega) hb) hinit
      · exact hc (n % b) (List.mem_singleton.1 hlast).symm

/-! ### Hexadecimal numerals -/

theorem hexDigits_add_two (w n : Nat) :
    hexDigits (w + 2) n = hexDigits (w + 1) (n / 16) ++ [Nat.digitChar (n % 16)] := by
  by_cases h : n < 16
  · rw [hexDigits, hexDigits, Nat.toDigits_of_lt_base h, Nat.div_eq_of_lt h, Nat.mod_eq_of_lt h, Nat.toDigits_zero]
    exact congrArg (· ++ [Nat.digitChar n]) List.replicate_succ'
  · have hdigits : Nat.toDigits 16 n = Nat.toDigits 16 (n / 16) ++ [Nat.digitChar (n % 16)] :=
      Nat.toDigits_of_base_le (Nat.le_of_ble_eq_true rfl) (Nat.le_of_not_lt h)
    have hpadding (l : Nat) : w + 2 - (l + 1) = w + 1 - l := Nat.add_sub_add_right (w + 1) 1 l
    rw [hexDigits, hexDigits, hdigits, List.length_append, List.length_singleton, hpadding, List.append_assoc]

theorem hexDigits_one {n : Nat} (h : n < 16) : hexDigits 1 n = [Nat.digitChar n] := by
  rw [hexDigits, Nat.toDigits_of_lt_base h]
  rfl

theorem hexDigits_four {n : Nat} (h : n < 0x10000) :
    hexDigits 4 n = [n / 0x1000, n / 0x100 % 0x10, n / 0x10 % 0x10, n % 0x10].map Nat.digitChar := by
  have hfirst : n / 16 / 16 / 16 < 16 := by omega
  have hsecond : n / 16 / 16 = n / 0x100 := Nat.div_div_eq_div_mul n 16 16
  have hlead : n / 0x100 / 16 = n / 0x1000 := Nat.div_div_eq_div_mul n 0x100 16
  rw [hexDigits_add_two, hexDigits_add_two, hexDigits_add_two, hexDigits_one hfirst, hsecond, hlead]
  rfl

theorem hexDigits_width_one (n : Nat) : hexDigits 1 n = Nat.toDigits 16 n := by
  rw [hexDigits, Nat.sub_eq_zero_of_le (Nat.length_toDigits_pos)]
  rfl

theorem hexDigits_injective (w : Nat) : Function.Injective (hexDigits (w + 1)) := by
  intro m n h
  induction w generalizing m n with
  | zero =>
    rw [hexDigits_width_one, hexDigits_width_one] at h
    exact toDigits_injective (by decide) (by decide) h
  | succ w ih =>
    rw [hexDigits_add_two, hexDigits_add_two] at h
    obtain ⟨hinit, hlast⟩ := List.append_inj' h rfl
    have hdiv : m / 16 = n / 16 := ih hinit
    have hmod : m % 16 = n % 16 := digitChar_inj (by omega) (by omega) (List.singleton_inj.1 hlast)
    omega

theorem length_hexDigits {w n : Nat} (h : n < Nat.pow 16 (w + 1)) : (hexDigits (w + 1) n).length = w + 1 := by
  have hlength : (Nat.toDigits 16 n).length ≤ w + 1 := (Nat.length_toDigits_le_iff (by decide) (Nat.succ_pos w)).2 h
  rw [hexDigits, List.length_append, List.length_replicate]
  omega

theorem notMem_hexDigits {c : Char} (hc : ∀ d, Nat.digitChar d ≠ c) (w n : Nat) : c ∉ hexDigits w n := by
  intro hmem
  rcases List.mem_append.1 hmem with hzero | hdigit
  · exact hc 0 (List.eq_of_mem_replicate hzero).symm
  · exact notMem_toDigits (by decide) hc n hdigit

/-! ### Texts of numbers -/

theorem toList_decimal (n : Nat) : (decimal n).toList = Nat.toDigits 10 n := String.toList_ofList

theorem toList_hex (w n : Nat) : (hex w n).toList = hexDigits w n := String.toList_ofList

theorem decimal_injective : Function.Injective decimal := fun _ _ h =>
  toDigits_injective (by decide) (by decide) (String.ofList_injective h)

theorem hex_injective (w : Nat) : Function.Injective (hex (w + 1)) := fun _ _ h =>
  hexDigits_injective w (String.ofList_injective h)

theorem decimal_ne_empty (n : Nat) : decimal n ≠ "" := by
  rw [Ne, ← String.toList_eq_nil_iff, toList_decimal]
  exact Nat.toDigits_ne_nil

theorem notMem_decimal {c : Char} (hc : ∀ d, Nat.digitChar d ≠ c) (n : Nat) : c ∉ (decimal n).toList := by
  rw [toList_decimal]
  exact notMem_toDigits (by decide) hc n

theorem notMem_hex {c : Char} (hc : ∀ d, Nat.digitChar d ≠ c) (w n : Nat) : c ∉ (hex w n).toList := by
  rw [toList_hex]
  exact notMem_hexDigits hc w n

end ChipEight.Text
