import ChipEight.Proofs.List.LastSetting
import ChipEight.Proofs.Options.Classify

/-!
# Occurrences of options

An option occurs with a value, in two arguments or in one. Whatever stands behind an occurrence, the options that are
read so far become those with its value chosen (`Occurrence.taken`). So a command line of occurrences comes down to the
fold of the choices (`taken_all`), in which each option is as it was chosen last (`parse_occurrences`).
-/

namespace ChipEight.Options

/-- An option with a value. -/
inductive Choice where
  | file (path : String)
  | scale (n : Int)
  | delay (n : Int)
  | seed (n : Int)
deriving DecidableEq, Repr

namespace Choice

def flag : Choice → Flag
  | file _ => .file
  | scale _ => .scale
  | delay _ => .delay
  | seed _ => .seed

/-- The value as it is written. -/
def text : Choice → String
  | file path => path
  | scale n | delay n | seed n => Text.signedDecimal n

/-- Paths have no leading dash, and numbers have no more digits than are read. -/
def Writable : Choice → Prop
  | file path => path.toList.head? ≠ some '-'
  | scale n | delay n | seed n => (Nat.toDigits 10 n.natAbs).length ≤ Text.maxDigits

instance : (c : Choice) → Decidable c.Writable
  | file path => inferInstanceAs (Decidable (path.toList.head? ≠ some '-'))
  | scale n | delay n | seed n => inferInstanceAs (Decidable ((Nat.toDigits 10 n.natAbs).length ≤ Text.maxDigits))

def path? : Choice → Option String
  | file path => some path
  | _ => none

/-- The number that is chosen for the option of a flag. -/
def number? (flag : Flag) (c : Choice) : Option Int :=
  match c with
  | file _ => none
  | scale n | delay n | seed n => if c.flag = flag then some n else none

theorem flag_of_path? {c : Choice} (h : c.path?.isSome) : c.flag = .file := by
  cases c with
  | file path => rfl
  | _ => cases h

theorem path?_of_flag {c : Choice} (h : c.flag = .file) : c.path? ≠ none := by
  cases c with
  | file path => exact Option.some_ne_none path
  | _ => cases h

theorem flag_of_number? {flag : Flag} {c : Choice} (h : (c.number? flag).isSome) : c.flag = flag := by
  cases c with
  | file path => cases h
  | scale n | delay n | seed n => exact (Option.isSome_ite (p := _)).1 h

end Choice

/-- The options that are read so far, with one more choice. -/
def Draft.choose (d : Draft) : Choice → Draft
  | .file path => { d with file := some (.value path) }
  | .scale n => { d with scale := .value n }
  | .delay n => { d with delay := .value n }
  | .seed n => { d with seed := some (.value n) }

/-- An option on the command line, under one of its names. The value is the next argument, or it is joined to the name by
an equals sign. -/
structure Occurrence where
  choice : Choice
  name : String
  joined : Bool
  names : Names choice.flag name
  writable : choice.Writable

def Occurrence.arguments (o : Occurrence) : List String :=
  if o.joined then [o.name ++ "=" ++ o.choice.text] else [o.name, o.choice.text]

/-! ### Values -/

theorem integerFor_signedDecimal (flag : Flag) {n : Int}
    (h : (Nat.toDigits 10 n.natAbs).length ≤ Text.maxDigits) :
    integerFor flag (Text.signedDecimal n) = .ok (.value n) := by
  have hread := Text.integer?_signedDecimal h
  have hne : Text.signedDecimal n ≠ "--" := by
    intro heq
    have hnone : Text.integer? "--" = none := by decide
    rw [heq, hnone] at hread
    cases hread
  rw [integerFor, if_neg hne, hread]

theorem classify_signedDecimal (n : Int) :
    classify (Text.signedDecimal n) = .ok (.value (Text.signedDecimal n)) := by
  cases n with
  | ofNat n =>
    refine classify_value fun hhead => ?_
    rw [Text.signedDecimal, Text.toList_decimal] at hhead
    exact absurd (Text.isDigit_of_mem_toDigits (List.mem_of_head? hhead)) (by decide)
  | negSucc n =>
    obtain ⟨c, rest, hdigits⟩ := List.exists_cons_of_ne_nil (Nat.toDigits_ne_nil (b := 10) (n := n + 1))
    have hvalue := Text.toList_signedDecimal_negSucc n
    rw [hdigits] at hvalue
    exact classify_negative (fun _ hd => Text.isDigit_of_mem_toDigits (hdigits ▸ hd)) hvalue

namespace Choice
variable {c : Choice}

theorem set_text (h : c.Writable) (d : Draft) : d.set c.flag c.text = .ok (d.choose c) := by
  cases c with
  | file path =>
    have hne : path ≠ "--" := fun heq => absurd (heq ▸ rfl : path.toList.head? = some '-') h
    rw [flag, text, Draft.set, if_neg hne]
    rfl
  | scale n | delay n | seed n =>
    rw [flag, text, Draft.set, integerFor_signedDecimal _ h]
    rfl

theorem classify_text (h : c.Writable) : classify c.text = .ok (.value c.text) := by
  cases c with
  | file path => exact classify_value h
  | scale n | delay n | seed n => exact classify_signedDecimal n

end Choice

/-! ### Occurrences -/

theorem classifyAll_cons {argument : String} {rest : List String} {first : Argument} {classified : List Argument}
    (h : classify argument = .ok first) (hrest : classifyAll rest = .ok classified) :
    classifyAll (argument :: rest) = .ok (first :: classified) := by
  have hne : argument ≠ "--" := by
    rintro rfl
    have hambiguous : (classify "--").isOk = false := by decide +kernel
    rw [h] at hambiguous
    cases hambiguous
  rw [classifyAll, if_neg hne, h, hrest]
  rfl

theorem consume_of_set {d d' : Draft} {flag : Flag} {text : String} (hflag : flag ≠ .help)
    (h : d.set flag text = .ok d') (rest : List Argument) :
    consume d (.option flag .nothing :: .value text :: rest) = consume d' rest := by
  rw [consume.eq_9 _ _ _ _ hflag, h]

theorem consume_attached_of_set {d d' : Draft} {flag : Flag} {text : String} {attached : Attached} (hflag : flag ≠ .help)
    (hattached : attached.value? = some text) (h : d.set flag text = .ok d') (rest : List Argument) :
    consume d (.option flag attached :: rest) = consume d' rest := by
  have hsome : ∀ text rest', rest = .value text :: rest' → attached ≠ .nothing := by
    rintro _ _ _ rfl
    cases hattached
  rw [consume.eq_10 _ _ _ _ hflag hsome, hattached]
  simp only [h]

theorem Choice.flag_ne_help (c : Choice) : c.flag ≠ .help := by
  cases c <;> exact Flag.noConfusion

/-- An occurrence in front of other arguments makes its choice and leaves the others as they are. -/
theorem Occurrence.taken (o : Occurrence) {rest : List String} {classified : List Argument}
    (hrest : classifyAll rest = .ok classified) :
    ∃ front, classifyAll (o.arguments ++ rest) = .ok (front ++ classified) ∧
      ∀ d, consume d (front ++ classified) = consume (d.choose o.choice) classified := by
  have hset := Choice.set_text o.writable
  rw [arguments]
  split
  · obtain ⟨attached, hclassify, hattached⟩ := classify_joined o.names o.choice.text
    exact ⟨[.option o.choice.flag attached], classifyAll_cons hclassify hrest, fun d =>
      consume_attached_of_set o.choice.flag_ne_help hattached (hset d) classified⟩
  · have hvalue := classifyAll_cons (Choice.classify_text o.writable) hrest
    exact ⟨[.option o.choice.flag .nothing, .value o.choice.text], classifyAll_cons (classify_name o.names) hvalue,
      fun d => consume_of_set o.choice.flag_ne_help (hset d) classified⟩

/-- The options that are read so far, with all choices of a list made. -/
def Draft.chooseAll (d : Draft) (occurrences : List Occurrence) : Draft :=
  occurrences.foldl (fun d o => d.choose o.choice) d

theorem taken_all (occurrences : List Occurrence) :
    ∃ classified, classifyAll (occurrences.flatMap Occurrence.arguments) = .ok classified ∧
      ∀ d, consume d classified = .ok (d.chooseAll occurrences, []) := by
  induction occurrences with
  | nil => exact ⟨[], rfl, fun _ => rfl⟩
  | cons o rest ih =>
    obtain ⟨classified, hclassified, hconsume⟩ := ih
    obtain ⟨front, hfront, htaken⟩ := o.taken hclassified
    exact ⟨front ++ classified, hfront, fun d => (htaken d).trans (hconsume _)⟩

/-! ### Last values -/

/-- The paths of the program, from left to right. -/
def paths (occurrences : List Occurrence) : List String := occurrences.filterMap (·.choice.path?)

/-- The numbers that an option is given, from left to right. -/
def numbers (flag : Flag) (occurrences : List Occurrence) : List Int :=
  occurrences.filterMap (·.choice.number? flag)

theorem part_chooseAll {α β : Type} (part : Draft → β) (get? : Choice → Option α) (g : α → β)
    (h : ∀ d c, part (d.choose c) = ((get? c).map g).getD (part d)) (d : Draft) (occurrences : List Occurrence) :
    part (d.chooseAll occurrences) =
      ((occurrences.filterMap fun o => get? o.choice).getLast?.map g).getD (part d) := by
  have hlast := foldl_eq_getLast? (v := part) (f := fun d o => d.choose o.choice)
    (fun d (o : Occurrence) => h d o.choice) d occurrences
  rw [Draft.chooseAll, hlast, ← List.map_filterMap, List.getLast?_map]

theorem filterMap_choice_eq {α : Type} {get? : Choice → Option α} {flag : Flag}
    {occurrences reordered : List Occurrence} (hflag : ∀ c, (get? c).isSome → c.flag = flag)
    (h : reordered.filter (·.choice.flag = flag) = occurrences.filter (·.choice.flag = flag)) :
    (reordered.filterMap fun o => get? o.choice) = occurrences.filterMap fun o => get? o.choice := by
  have hfilter := filterMap_filter_of_isSome (f := fun o : Occurrence => get? o.choice)
    (p := (·.choice.flag = flag)) fun o ho => decide_eq_true (hflag o.choice ho)
  rw [← hfilter, h, hfilter]

section
variable (occurrences : List Occurrence)

theorem file_chooseAll : (Draft.chooseAll {} occurrences).file = (paths occurrences).getLast?.map .value := by
  rw [part_chooseAll Draft.file Choice.path? (some ∘ .value) fun d c => by cases c <;> rfl, paths]
  cases (occurrences.filterMap (·.choice.path?)).getLast? <;> rfl

theorem scale_chooseAll :
    (Draft.chooseAll {} occurrences).scale = .value ((numbers .scale occurrences).getLast?.getD 15) := by
  rw [part_chooseAll Draft.scale (Choice.number? .scale) .value fun d c => by cases c <;> rfl]
  exact Option.getD_map ..

theorem delay_chooseAll :
    (Draft.chooseAll {} occurrences).delay = .value ((numbers .delay occurrences).getLast?.getD 3) := by
  rw [part_chooseAll Draft.delay (Choice.number? .delay) .value fun d c => by cases c <;> rfl]
  exact Option.getD_map ..

theorem seed_chooseAll : (Draft.chooseAll {} occurrences).seed = (numbers .seed occurrences).getLast?.map .value := by
  rw [part_chooseAll Draft.seed (Choice.number? .seed) (some ∘ .value) fun d c => by cases c <;> rfl, numbers]
  cases (occurrences.filterMap (·.choice.number? .seed)).getLast? <;> rfl

theorem parse_occurrences :
    parse (occurrences.flatMap Occurrence.arguments) = match (paths occurrences).getLast? with
      | none => .error (.wrong .fileRequired)
      | some path => .ok
        { file := .value path
          scale := .value ((numbers .scale occurrences).getLast?.getD 15)
          delay := .value ((numbers .delay occurrences).getLast?.getD 3)
          seed := (numbers .seed occurrences).getLast?.map .value } := by
  obtain ⟨classified, hclassified, hconsume⟩ := taken_all occurrences
  rw [parse, hclassified]
  simp only [hconsume, file_chooseAll, scale_chooseAll, delay_chooseAll, seed_chooseAll]
  cases (paths occurrences).getLast? with
  | none => rfl
  | some path => rfl

end

/-- Of several occurrences of an option the last one counts, under whatever names and in whatever order with the other
options, and an option that does not occur has its default. -/
theorem last_occurrence_wins (occurrences : List Occurrence) (h : ∃ o ∈ occurrences, o.choice.flag = .file) :
    (∃ path, (paths occurrences).getLast? = some path ∧
      parse (occurrences.flatMap Occurrence.arguments) = .ok
        { file := .value path
          scale := .value ((numbers .scale occurrences).getLast?.getD 15)
          delay := .value ((numbers .delay occurrences).getLast?.getD 3)
          seed := (numbers .seed occurrences).getLast?.map .value }) ∧
    ∀ reordered : List Occurrence,
      (∀ flag, reordered.filter (·.choice.flag = flag) = occurrences.filter (·.choice.flag = flag)) →
      parse (reordered.flatMap Occurrence.arguments) = parse (occurrences.flatMap Occurrence.arguments) := by
  constructor
  · obtain ⟨o, ho, hflag⟩ := h
    have hpath : (paths occurrences).getLast? ≠ none := by
      rw [Ne, List.getLast?_eq_none_iff, paths, List.filterMap_eq_nil_iff]
      exact fun hnone => Choice.path?_of_flag hflag (hnone o ho)
    obtain ⟨path, hlast⟩ := Option.ne_none_iff_exists'.1 hpath
    refine ⟨path, hlast, ?_⟩
    rw [parse_occurrences, hlast]
  · intro reordered hfilter
    have hpaths : paths reordered = paths occurrences :=
      filterMap_choice_eq (fun _ => Choice.flag_of_path?) (hfilter .file)
    have hnumbers (flag : Flag) : numbers flag reordered = numbers flag occurrences :=
      filterMap_choice_eq (fun _ => Choice.flag_of_number?) (hfilter flag)
    rw [parse_occurrences, parse_occurrences, hpaths, hnumbers, hnumbers, hnumbers]

/-- Names in full and abbreviated, an equals sign in a path, a negative scale, an empty path, and no delay. -/
def mixedOccurrences : List Occurrence :=
  [⟨.scale 4, "-s", false, by decide, by decide⟩, ⟨.file "a=b", "--fi", true, by decide, by decide⟩,
   ⟨.seed 5, "--se", true, by decide, by decide⟩, ⟨.scale (-7), "--sc", false, by decide, by decide⟩,
   ⟨.file "", "--file", true, by decide, by decide⟩]

/-- The same, with the first path put off. -/
def reorderedOccurrences : List Occurrence :=
  [mixedOccurrences[0], mixedOccurrences[2], mixedOccurrences[3], mixedOccurrences[1], mixedOccurrences[4]]

theorem last_occurrence_wins_mixed :
    (∃ o ∈ mixedOccurrences, o.choice.flag = .file) ∧
    parse ["-s", "4", "--fi=a=b", "--se=5", "--sc", "-7", "--file="] = .ok
      { file := .value "", scale := .value (-7), delay := .value 3, seed := some (.value 5) } ∧
    parse ["-s", "4", "--se=5", "--sc", "-7", "--fi=a=b", "--file="] =
      parse ["-s", "4", "--fi=a=b", "--se=5", "--sc", "-7", "--file="] := by
  have harguments : mixedOccurrences.flatMap Occurrence.arguments =
    ["-s", "4", "--fi=a=b", "--se=5", "--sc", "-7", "--file="] := by decide +kernel
  have hreordered : reorderedOccurrences.flatMap Occurrence.arguments =
    ["-s", "4", "--se=5", "--sc", "-7", "--fi=a=b", "--file="] := by decide +kernel
  have hfile : ∃ o ∈ mixedOccurrences, o.choice.flag = .file := ⟨_, List.mem_of_getElem? (i := 1) rfl, rfl⟩
  obtain ⟨⟨path, hpath, hparse⟩, hsame⟩ := last_occurrence_wins mixedOccurrences hfile
  have hfilter := hsame reorderedOccurrences fun flag => by cases flag <;> rfl
  have hempty : (paths mixedOccurrences).getLast? = some "" := rfl
  rw [hempty] at hpath
  cases hpath
  rw [harguments] at hparse hfilter
  rw [hreordered] at hfilter
  exact ⟨hfile, hparse, hfilter⟩

end ChipEight.Options
