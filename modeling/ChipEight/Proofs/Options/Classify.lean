import ChipEight.Options.Parse
import ChipEight.Proofs.Text.Decimal
import Mathlib.Data.List.Infix
import Mathlib.Data.List.TakeWhile

/-!
# What arguments are

An option is named in full, or by a start of its long name that begins no other name. Such an argument is the option
(`classify_name`), also with a value behind an equals sign (`classify_joined`). A text without a leading dash is a value
(`classify_value`), and so is a negative number, since the names have no digits behind their dashes
(`classify_negative`).
-/

namespace ChipEight.Options

/-- The options whose names a text begins, with one entry for each name. -/
def begun (text : List Char) : List Flag :=
  (names.filter fun (name, _) => text.isPrefixOf name.toList).map Prod.snd

/-- The text is a name of the option, or an abbreviation of its long name that fits no other. -/
def Names (flag : Flag) (text : String) : Prop := begun text.toList = [flag]

instance (flag : Flag) (text : String) : Decidable (Names flag text) := inferInstanceAs (Decidable (_ = _))

variable {flag : Flag} {name value : String} {start behind : List Char}

/-! ### Names -/

/-- What holds of all starts of all names holds of a text that names an option. -/
theorem of_begun {P : Flag → List Char → Prop}
    (hP : ∀ p ∈ names, ∀ start ∈ p.1.toList.inits, begun start = [p.2] → P p.2 start) (h : begun start = [flag]) :
    P flag start := by
  have hmem : flag ∈ begun start := h ▸ List.mem_singleton_self flag
  obtain ⟨p, hp, rfl⟩ := List.mem_map.1 hmem
  obtain ⟨hp, hstart⟩ := List.mem_filter.1 hp
  have hinit : start <+: p.1.toList := List.isPrefixOf_iff_prefix.1 hstart
  exact hP p hp start ((List.mem_inits _ _).2 hinit) h

theorem classify_name (h : Names flag name) : classify name = .ok (.option flag .nothing) := by
  have hclassify : classify (String.ofList name.toList) = .ok (.option flag .nothing) :=
    of_begun (P := fun flag start => classify (String.ofList start) = .ok (.option flag .nothing))
      (by decide +kernel) h
  rwa [String.ofList_toList] at hclassify

example : Names .scale "-s" ∧ Names .seed "--se" ∧ ¬Names .seed "--s" ∧ ¬Names .scale "--s" := by decide

/-! ### Names with a value attached -/

theorem splitAtEquals_append (h : '=' ∉ start) (behind : List Char) :
    splitAtEquals (start ++ '=' :: behind) = some (start, behind) := by
  induction start with
  | nil => rfl
  | cons c start ih =>
    rw [List.mem_cons, not_or] at h
    rw [List.cons_append, splitAtEquals.eq_3 _ _ (Ne.symm h.1), ih h.2]
    rfl

theorem lookup_eq_none {text : List Char} (h : ∀ p ∈ names, text ≠ p.1.toList) :
    names.lookup (String.ofList text) = none :=
  List.lookup_eq_none_iff.2 fun p hp => bne_iff_ne.2 fun heq => h p hp (heq ▸ String.toList_ofList.symm)

theorem lookup_joined (start behind : List Char) : names.lookup (String.ofList (start ++ '=' :: behind)) = none := by
  have hnames : ∀ p ∈ names, '=' ∉ p.1.toList := by decide
  exact lookup_eq_none fun p hp heq => hnames p hp (heq ▸ List.mem_append_right _ List.mem_cons_self)

theorem inFull?_joined (h : '=' ∉ start) (behind : List Char) :
    inFull? (start ++ '=' :: behind) = (names.lookup (String.ofList start)).map fun flag =>
      .option flag (if start.length = 2 then .toShort (String.ofList behind) else .toLong (String.ofList behind)) := by
  rw [inFull?, lookup_joined, splitAtEquals_append h]
  rfl

theorem abbreviated_joined (h : '=' ∉ start) (hdashes : ['-', '-'] <+: start) (behind : List Char) :
    abbreviated (start ++ '=' :: behind) =
      (names.filter fun (name, _) => start.isPrefixOf name.toList).map fun (name, flag) =>
        (name, flag, .toLong (String.ofList behind)) := by
  obtain ⟨rest, rfl⟩ := hdashes
  show abbreviated ('-' :: '-' :: (rest ++ '=' :: behind)) = _
  have hsplit : splitAtEquals ('-' :: '-' :: (rest ++ '=' :: behind)) = some (['-', '-'] ++ rest, behind) :=
    splitAtEquals_append h behind
  rw [abbreviated, hsplit]

/-- What is attached to a name in full goes to it right away, and to an abbreviation since there is one option only. -/
theorem classify_joined (h : Names flag name) (value : String) :
    ∃ attached, classify (name ++ "=" ++ value) = .ok (.option flag attached) ∧ attached.value? = some value := by
  have hhead : name.toList.head? = some '-' := of_begun (P := fun _ start => start.head? = some '-') (by decide) h
  have hequals : '=' ∉ name.toList := of_begun (P := fun _ start => '=' ∉ start) (by decide) h
  have hlookup : names.lookup name = some flag ∨ names.lookup name = none ∧ ['-', '-'] <+: name.toList := by
    have hstart := of_begun (P := fun flag start => names.lookup (String.ofList start) = some flag ∨
      names.lookup (String.ofList start) = none ∧ ['-', '-'] <+: start) (by decide +kernel) h
    rwa [String.ofList_toList] at hstart
  have htext : (name ++ "=" ++ value).toList = name.toList ++ '=' :: value.toList := by simp
  have hoption : ¬((name.toList ++ '=' :: value.toList).head? ≠ some '-' ∨
      name.toList ++ '=' :: value.toList = ['-']) := by
    rintro (hne | hdash)
    · exact hne (by rw [List.head?_append, hhead]; rfl)
    · have hmem : '=' ∈ ['-'] := hdash ▸ List.mem_append_right _ List.mem_cons_self
      exact absurd hmem (by decide)
  simp only [classify, htext, if_neg hoption, inFull?_joined hequals, String.ofList_toList]
  -- a name in full is looked up, and an abbreviation has two dashes and begins one name only
  rcases hlookup with hfull | ⟨hfull, hdashes⟩
  · rw [hfull]
    refine ⟨_, rfl, ?_⟩
    split <;> rfl
  · obtain ⟨p, hp, rfl⟩ := List.map_eq_singleton_iff.1 h
    rw [hfull, abbreviated_joined hequals hdashes, hp, String.ofList_toList]
    exact ⟨_, rfl, rfl⟩

/-! ### Values -/

theorem classify_value (h : value.toList.head? ≠ some '-') : classify value = .ok (.value value) := if_pos (.inl h)

theorem splitAtEquals_eq_none {text : List Char} (h : '=' ∉ text) : splitAtEquals text = none := by
  induction text with
  | nil => rfl
  | cons c text ih =>
    rw [List.mem_cons, not_or] at h
    rw [splitAtEquals.eq_3 _ _ (Ne.symm h.1), ih h.2]
    rfl

section
variable {c : Char} {rest : List Char}

/-- No name has a digit behind its dash. -/
theorem ne_name_of_isDigit (hc : c.isDigit = true) (rest : List Char) : ∀ p ∈ names, '-' :: c :: rest ≠ p.1.toList := by
  have hnames : ∀ p ∈ names, (p.1.toList.getD 1 '-').isDigit = false := by decide
  intro p hp heq
  have hdigit := hnames p hp
  rw [← heq] at hdigit
  exact Bool.false_ne_true (hdigit.symm.trans hc)

theorem inFull?_negative (h : ∀ d ∈ c :: rest, d.isDigit = true) : inFull? ('-' :: c :: rest) = none := by
  have hequals : '=' ∉ '-' :: c :: rest := by
    rw [List.mem_cons, not_or]
    exact ⟨by decide, fun hmem => absurd (h _ hmem) (by decide)⟩
  rw [inFull?, lookup_eq_none (ne_name_of_isDigit (h c List.mem_cons_self) rest), splitAtEquals_eq_none hequals]
  rfl

theorem abbreviated_negative (hc : c.isDigit = true) (rest : List Char) : abbreviated ('-' :: c :: rest) = [] := by
  have hdash : c ≠ '-' := fun heq => absurd (heq ▸ hc) (by decide)
  have hnone : names.filter (fun (name, _) => name.toList = ('-' :: c :: rest).take 2) = [] :=
    List.filter_eq_nil_iff.2 fun p hp heq => ne_name_of_isDigit hc [] p hp (of_decide_eq_true heq).symm
  rw [abbreviated.eq_2 _ fun tail htail => hdash (List.cons.inj (List.cons.inj htail).2).1, hnone]
  rfl

theorem isNegativeNumber_of_isDigit (h : ∀ d ∈ c :: rest, d.isDigit = true) :
    isNegativeNumber ('-' :: c :: rest) = true := by
  have hline : (c :: rest).getLast? ≠ some '\n' := fun hlast =>
    absurd (h _ (List.mem_of_getLast? hlast)) (by decide)
  have hspan : (c :: rest).span Text.isDecimalDigit = (c :: rest, []) := by
    have hdigits : ∀ d ∈ c :: rest, Text.isDecimalDigit d = true := fun d hd => Text.isDecimalDigit_of_isDigit (h d hd)
    rw [List.span_eq_takeWhile_dropWhile, List.takeWhile_eq_self_iff.2 hdigits, List.dropWhile_eq_nil_iff.2 hdigits]
  rw [isNegativeNumber, if_neg hline, hspan]
  rfl

theorem classify_negative (h : ∀ d ∈ c :: rest, d.isDigit = true) (hvalue : value.toList = '-' :: c :: rest) :
    classify value = .ok (.value value) := by
  have hdash : ¬(('-' :: c :: rest).head? ≠ some '-' ∨ '-' :: c :: rest = ['-']) := by simp
  simp only [classify, hvalue, if_neg hdash, inFull?_negative h, abbreviated_negative (h c List.mem_cons_self) rest,
    isNegativeNumber_of_isDigit h, Bool.true_or, if_true]

end

end ChipEight.Options
