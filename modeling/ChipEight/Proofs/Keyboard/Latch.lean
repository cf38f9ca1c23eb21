import ChipEight.Keyboard
import ChipEight.Proofs.List.LastSetting

/-!
# Events and keys of the pad

A key of the pad is as the last event left it that moved one of its keys on the keyboard (`isDown_latchAll`), and the
events that move no such key leave the keypad alone (`latchAll_filter`). Where two keys of the keyboard stand for one
of the pad, the release of either lets it go, though the other may still be held (`isDown_iff_pressed_after_releases`).
-/

namespace ChipEight

/-! ### What an event moves -/

namespace Event

/-- What an event makes of a key of the pad, if it moves a key of the keyboard that stands for it. -/
def sets? (k : Nibble) : Event → Option Bool
  | .down code => if Keyboard.padKey? code = some k then some true else none
  | .up code => if Keyboard.padKey? code = some k then some false else none
  | .quit | .other => none

/-- Whether a key of the keyboard goes down with an event, if it moves. -/
def moves? (code : Int) : Event → Option Bool
  | .down c => if c = code then some true else none
  | .up c => if c = code then some false else none
  | .quit | .other => none

/-- Whether a key of the keyboard moves that stands for one of the pad. -/
def isMapped : Event → Bool
  | .down code | .up code => (Keyboard.padKey? code).isSome
  | .quit | .other => false

variable {e : Event} {k : Nibble} {code : Int}

theorem sets?_eq_true_iff : e.sets? k = some true ↔ ∃ code, e = .down code ∧ Keyboard.padKey? code = some k := by
  cases e <;> simp [sets?]

theorem sets?_eq_false_iff : e.sets? k = some false ↔ ∃ code, e = .up code ∧ Keyboard.padKey? code = some k := by
  cases e <;> simp [sets?]

theorem sets?_eq_none_iff :
    e.sets? k = none ↔ ∀ code, e = .down code ∨ e = .up code → Keyboard.padKey? code ≠ some k := by
  cases e <;> simp [sets?]

theorem moves?_eq_true_iff : e.moves? code = some true ↔ e = .down code := by
  cases e <;> simp [moves?]

theorem moves?_eq_none_iff : e.moves? code = none ↔ e ≠ .down code ∧ e ≠ .up code := by
  cases e <;> simp [moves?]

variable {events : List Event}

theorem forall_sets?_eq_none_iff : (∀ e ∈ events, e.sets? k = none) ↔
    ∀ code, Keyboard.padKey? code = some k → .down code ∉ events ∧ .up code ∉ events := by
  constructor
  · intro h code hcode
    exact ⟨fun hmem => sets?_eq_none_iff.1 (h _ hmem) code (.inl rfl) hcode,
      fun hmem => sets?_eq_none_iff.1 (h _ hmem) code (.inr rfl) hcode⟩
  · intro h e he
    refine sets?_eq_none_iff.2 ?_
    rintro code (rfl | rfl) hcode
    · exact (h code hcode).1 he
    · exact (h code hcode).2 he

theorem forall_moves?_eq_none_iff :
    (∀ e ∈ events, e.moves? code = none) ↔ .down code ∉ events ∧ .up code ∉ events := by
  constructor
  · intro h
    exact ⟨fun hmem => (moves?_eq_none_iff.1 (h _ hmem)).1 rfl, fun hmem => (moves?_eq_none_iff.1 (h _ hmem)).2 rfl⟩
  · rintro ⟨hdown, hup⟩ e he
    exact moves?_eq_none_iff.2 ⟨fun h => hdown (h ▸ he), fun h => hup (h ▸ he)⟩

end Event

namespace Keyboard

/-! ### The layout -/

section
variable {code code' : Int} {k : Nibble}

theorem padKey?_eq_some_iff : padKey? code = some k ↔ ∃ c, (c, k) ∈ layout ∧ (c.toNat : Int) = code := by
  -- no key of the keyboard is listed twice
  have hlisted : ∀ entry ∈ layout, padKey? entry.1.toNat = some entry.2 := by decide
  constructor
  · intro h
    obtain ⟨⟨c, j⟩, hfind, rfl⟩ := Option.map_eq_some_iff.1 h
    have hcode := List.find?_some hfind
    exact ⟨c, List.mem_of_find?_eq_some hfind, of_decide_eq_true hcode⟩
  · rintro ⟨c, hmem, rfl⟩
    exact hlisted (c, k) hmem

/-- The keys of the pad that two keys of the keyboard stand for: a letter and a digit. -/
def shared : List Nibble := [0x0, 0x5, 0x6, 0x7, 0x8, 0x9]

theorem padKey?_inj (hk : k ∉ shared) (h : padKey? code = some k) (h' : padKey? code' = some k) : code = code' := by
  have hsingle : ∀ entry ∈ layout, ∀ entry' ∈ layout, entry.2 = entry'.2 → entry.2 ∉ shared → entry.1 = entry'.1 := by
    decide
  obtain ⟨c, hc, rfl⟩ := padKey?_eq_some_iff.1 h
  obtain ⟨c', hc', rfl⟩ := padKey?_eq_some_iff.1 h'
  obtain rfl : c = c' := hsingle _ hc _ hc' rfl hk
  rfl

end

/-! ### One event -/

/-- Whether the program goes on after an event, and the keypad then. An event that asks to leave is not looked at any
further. -/
def handle (p : Keypad) (e : Event) : Bool × Keypad :=
  if leaves e then (false, p) else (true, latch p e)

theorem latch_of_leaves {e : Event} (h : leaves e = true) (p : Keypad) : latch p e = p := by
  cases e with
  | down code | up code =>
    obtain rfl : code = escape := of_decide_eq_true h
    rfl
  | quit | other => rfl

theorem handle_eq (p : Keypad) (e : Event) : handle p e = (!leaves e, latch p e) := by
  rw [handle]
  split
  next h => rw [latch_of_leaves h, h]; rfl
  next h => rw [Bool.eq_false_iff.2 h]; rfl

theorem not_leaves_iff (e : Event) : (!leaves e) = true ↔ e ≠ .quit ∧ e ≠ .down escape ∧ e ≠ .up escape := by
  cases e <;> simp [leaves]

theorem latch_of_not_isMapped {e : Event} (h : e.isMapped = false) (p : Keypad) : latch p e = p := by
  cases e with
  | down code | up code =>
    have hcode : padKey? code = none := Option.isSome_eq_false_iff.1 h |> Option.isNone_iff_eq_none.1
    rw [latch, hcode]
    rfl
  | quit | other => rfl

theorem isDown_latch (p : Keypad) (e : Event) (k : Nibble) :
    (latch p e).isDown k = (e.sets? k).getD (p.isDown k) := by
  cases e with
  | down code | up code =>
    rw [latch, Event.sets?]
    cases padKey? code with
    | none => rfl
    | some key =>
      simp only [Option.elim_some, Keypad.isDown_set, Option.some_inj]
      split <;> rfl
  | quit | other => rfl

/-! ### Events one after the other -/

/-- Whether the program goes on after each of the events, and the keypad after all of them. -/
def handleAll (p : Keypad) : List Event → List Bool × Keypad
  | [] => ([], p)
  | e :: rest =>
    let (goesOn, p) := handle p e
    let (answers, p) := handleAll p rest
    (goesOn :: answers, p)

theorem handleAll_eq (p : Keypad) (events : List Event) :
    handleAll p events = (events.map (!leaves ·), latchAll p events) := by
  induction events generalizing p with
  | nil => rfl
  | cons e rest ih =>
    rw [handleAll, handle_eq]
    simp only [ih]
    rfl

/-- A key of the pad is as it was set last. -/
theorem isDown_latchAll (p : Keypad) (events : List Event) (k : Nibble) :
    (latchAll p events).isDown k = (events.filterMap (Event.sets? k)).getLast?.getD (p.isDown k) :=
  foldl_eq_getLast? (v := (·.isDown k)) (fun p e => isDown_latch p e k) p events

theorem latchAll_filter (p : Keypad) (events : List Event) :
    latchAll p (events.filter Event.isMapped) = latchAll p events := by
  induction events generalizing p with
  | nil => rfl
  | cons e rest ih =>
    rw [List.filter_cons]
    split
    next h => exact ih (latch p e)
    next h =>
      have hsame : latch p e = p := latch_of_not_isMapped (Bool.eq_false_iff.2 h) p
      exact (ih p).trans (congrArg (latchAll · rest) hsame.symm)

theorem isDown_latchAll_released_iff {events : List Event} {k : Nibble} :
    (latchAll .released events).isDown k = true ↔
      ∃ before code after, events = before ++ .down code :: after ∧ padKey? code = some k ∧
        ∀ code', padKey? code' = some k → .down code' ∉ after ∧ .up code' ∉ after := by
  rw [isDown_latchAll, Keypad.isDown_released, Option.getD_eq_iff]
  simp only [getLast?_filterMap_eq_some_iff, Event.sets?_eq_true_iff, Event.forall_sets?_eq_none_iff,
    Bool.false_eq_true, and_false, or_false]
  constructor
  · rintro ⟨before, e, after, hevents, ⟨code, rfl, hcode⟩, hafter⟩
    exact ⟨before, code, after, hevents, hcode, hafter⟩
  · rintro ⟨before, code, after, hevents, hcode, hafter⟩
    exact ⟨before, .down code, after, hevents, ⟨code, rfl, hcode⟩, hafter⟩

/-- The same by the entries of the layout. -/
theorem isDown_latchAll_released_iff_layout {events : List Event} {k : Nibble} :
    (latchAll .released events).isDown k = true ↔
      ∃ before c after, events = before ++ .down c.toNat :: after ∧ (c, k) ∈ layout ∧
        ∀ c', (c', k) ∈ layout → .down c'.toNat ∉ after ∧ .up c'.toNat ∉ after := by
  rw [isDown_latchAll_released_iff]
  constructor
  · rintro ⟨before, code, after, hevents, hcode, hafter⟩
    obtain ⟨c, hc, rfl⟩ := padKey?_eq_some_iff.1 hcode
    exact ⟨before, c, after, hevents, hc, fun c' hc' => hafter _ (padKey?_eq_some_iff.2 ⟨c', hc', rfl⟩)⟩
  · rintro ⟨before, c, after, hevents, hc, hafter⟩
    refine ⟨before, c.toNat, after, hevents, padKey?_eq_some_iff.2 ⟨c, hc, rfl⟩, fun code' hcode' => ?_⟩
    obtain ⟨c', hc', rfl⟩ := padKey?_eq_some_iff.1 hcode'
    exact hafter c' hc'

/-- On a fresh keypad, the program goes on after all events but those that ask to leave. A key of the pad is down just
in case the last move of one of its keys on the keyboard was a press, and no other events matter. Which keys these are,
the layout says. -/
theorem latch_follows_last_event (events : List Event) :
    handleAll .released events =
        (events.map fun e => decide (e ≠ .quit ∧ e ≠ .down escape ∧ e ≠ .up escape), latchAll .released events) ∧
      let p := latchAll .released events
      (∀ k, p.isDown k = true ↔
        ∃ before c after, events = before ++ .down c.toNat :: after ∧ (c, k) ∈ layout ∧
          ∀ c', (c', k) ∈ layout → .down c'.toNat ∉ after ∧ .up c'.toNat ∉ after) ∧
      (∀ k, p.first? = some k ↔ p.isDown k = true ∧ ∀ j, p.isDown j = true → k ≤ j) ∧
      (p.first? = none ↔ p.isUntouched = true) ∧
      (p.isUntouched = true ↔ ∀ k, p.isDown k = false) ∧
      (∀ others : List Event, others.filter Event.isMapped = events.filter Event.isMapped →
        latchAll .released others = p) ∧
      ∀ code k, padKey? code = some k ↔ ∃ c, (c, k) ∈ layout ∧ (c.toNat : Int) = code := by
  have hanswers : (events.map fun e => decide (e ≠ .quit ∧ e ≠ .down escape ∧ e ≠ .up escape)) =
      events.map (!leaves ·) :=
    List.map_congr_left fun e _ => Bool.eq_iff_iff.2 (decide_eq_true_iff.trans (not_leaves_iff e).symm)
  refine ⟨?_, ?_, ?_, ?_, ?_, ?_, ?_⟩
  · rw [handleAll_eq, hanswers]
  · exact fun k => isDown_latchAll_released_iff_layout
  · exact fun k => Keypad.first?_eq_some_iff
  · exact Keypad.first?_eq_none_iff _
  · exact Keypad.isUntouched_iff
  · intro others h
    rw [← latchAll_filter, h, latchAll_filter]
  · exact fun code k => padKey?_eq_some_iff

/-- Keys that stand for none of the pad, and events that ask to leave. -/
theorem latch_follows_last_event_left_out :
    latchAll .released [.down 119] = latchAll .released [.down 112, .down 119, .other, .up 27, .quit] :=
  (latch_follows_last_event _).2.2.2.2.2.1 [.down 119] (by decide)

/-! ### Keys that are held -/

/-- The key of the keyboard went down with its last move. -/
def Held (events : List Event) (code : Int) : Prop := (events.filterMap (Event.moves? code)).getLast? = some true

theorem held_iff {events : List Event} {code : Int} :
    Held events code ↔
      ∃ before after, events = before ++ .down code :: after ∧ .down code ∉ after ∧ .up code ∉ after := by
  rw [Held, getLast?_filterMap_eq_some_iff]
  simp only [Event.moves?_eq_true_iff, Event.forall_moves?_eq_none_iff]
  constructor
  · rintro ⟨before, e, after, hevents, rfl, hafter⟩
    exact ⟨before, after, hevents, hafter⟩
  · rintro ⟨before, after, hevents, hafter⟩
    exact ⟨before, .down code, after, hevents, rfl, hafter⟩

theorem isDown_latchAll_of_not_up {p : Keypad} {k : Nibble} (hdown : p.isDown k = true) {events : List Event}
    (h : ∀ code, padKey? code = some k → .up code ∉ events) : (latchAll p events).isDown k = true := by
  rw [isDown_latchAll, hdown]
  cases hlast : (events.filterMap (Event.sets? k)).getLast? with
  | none => rfl
  | some down =>
    cases down with
    | true => rfl
    | false =>
      obtain ⟨e, he, hup⟩ := List.mem_filterMap.1 (List.mem_of_getLast? hlast)
      obtain ⟨code, rfl, hcode⟩ := Event.sets?_eq_false_iff.1 hup
      exact absurd he (h code hcode)

theorem isDown_iff_pressed_after_releases {events : List Event} {k : Nibble} :
    (latchAll .released events).isDown k = true ↔
      ∃ before code after, events = before ++ .down code :: after ∧ padKey? code = some k ∧ Held events code ∧
        ∀ code', padKey? code' = some k → .up code' ∉ after := by
  constructor
  · intro h
    obtain ⟨before, code, after, hevents, hcode, hafter⟩ := isDown_latchAll_released_iff.1 h
    exact ⟨before, code, after, hevents, hcode, held_iff.2 ⟨before, after, hevents, hafter code hcode⟩,
      fun code' hcode' => (hafter code' hcode').2⟩
  · rintro ⟨before, code, after, rfl, hcode, -, hafter⟩
    have hpressed : (latch (latchAll .released before) (.down code)).isDown k = true := by
      rw [isDown_latch, Event.sets?_eq_true_iff.2 ⟨code, rfl, hcode⟩]
      rfl
    rw [latchAll, List.foldl_append]
    exact isDown_latchAll_of_not_up hpressed hafter

/-- As long as no key is released while another one is held that stands for the same key of the pad, this key is down
whenever one of them is held. -/
theorem isDown_iff_exists_held {events : List Event} {k : Nibble}
    (h : ∀ before code after, events = before ++ .up code :: after → padKey? code = some k →
      ∀ other, other ≠ code → padKey? other = some k → ¬Held before other) :
    (latchAll .released events).isDown k = true ↔ ∃ code, padKey? code = some k ∧ Held events code := by
  constructor
  · intro hdown
    obtain ⟨-, code, -, -, hcode, hheld, -⟩ := isDown_iff_pressed_after_releases.1 hdown
    exact ⟨code, hcode, hheld⟩
  · rintro ⟨code, hcode, hheld⟩
    obtain ⟨before, after, rfl, hdown, hup⟩ := held_iff.1 hheld
    refine isDown_iff_pressed_after_releases.2 ⟨before, code, after, rfl, hcode, hheld, ?_⟩
    intro released hreleased hmem
    have hne : code ≠ released := fun heq => hup (heq ▸ hmem)
    obtain ⟨still, rest, rfl⟩ := List.append_of_mem hmem
    have hthen : Held (before ++ .down code :: still) code := held_iff.2
      ⟨before, still, rfl, fun h => hdown (List.mem_append_left _ h), fun h => hup (List.mem_append_left _ h)⟩
    exact h _ released rest (by simp) hreleased code hne hcode hthen

/-- A key of the pad is down just in case one of its keys on the keyboard is held that was pressed after all releases
of such keys. As long as none of them is released while another one is held, this is whether any of them is held; and
most keys of the pad have but one. -/
theorem down_iff_held (events : List Event) (k : Nibble) :
    let p := latchAll .released events
    (p.isDown k = true ↔
      ∃ before code after, events = before ++ .down code :: after ∧ padKey? code = some k ∧ Held events code ∧
        ∀ code', padKey? code' = some k → .up code' ∉ after) ∧
    ((∀ before code after, events = before ++ .up code :: after → padKey? code = some k →
        ∀ other, other ≠ code → padKey? other = some k → ¬Held before other) →
      (p.isDown k = true ↔ ∃ code, padKey? code = some k ∧ Held events code)) ∧
    (k ∉ shared → (p.isDown k = true ↔ ∃ code, padKey? code = some k ∧ Held events code)) := by
  refine ⟨isDown_iff_pressed_after_releases, isDown_iff_exists_held, fun hk => isDown_iff_exists_held ?_⟩
  intro before code after hevents hcode other hne hother
  exact absurd (padKey?_inj hk hother hcode) hne

/-- The digit is let go before the letter is pressed. -/
theorem down_iff_held_in_turn :
    ((latchAll .released [.down 53, .up 53, .down 119]).isDown 0x5 = true ↔
        ∃ code, padKey? code = some 0x5 ∧ Held [.down 53, .up 53, .down 119] code) ∧
      ((latchAll .released [.down 49]).isDown 0x1 = true ↔ ∃ code, padKey? code = some 0x1 ∧ Held [.down 49] code) := by
  have hin_turn : ∀ before code after, [.down 53, .up 53, .down 119] = before ++ Event.up code :: after →
      padKey? code = some 0x5 → ∀ other, other ≠ code → padKey? other = some 0x5 → ¬Held before other := by
    intro before code after hevents hcode other hne hother
    obtain ⟨rfl, rfl, rfl⟩ : before = [.down 53] ∧ code = 53 ∧ after = [.down 119] := by
      simpa [List.cons_eq_append_iff] using hevents
    simp [Held, Event.moves?, hne.symm]
  exact ⟨(down_iff_held _ 0x5).2.1 hin_turn, (down_iff_held _ 0x1).2.2 (by decide)⟩

/-- Each key of the keyboard goes down and up in turn, down first. -/
def Alternating (events : List Event) : Prop :=
  ∀ code, (false :: events.filterMap (Event.moves? code)).IsChain (· ≠ ·)

/-- Two keys that stand for the same key of the pad: the release of the first lets it go, though the second is held. -/
theorem held_key_let_go :
    ¬∀ (events : List Event) (k : Nibble), (∀ e ∈ events, ∃ code, e = .down code ∨ e = .up code) →
      Alternating events →
        ((latchAll .released events).isDown k = true ↔ ∃ code, padKey? code = some k ∧ Held events code) := by
  intro h
  have halternating : Alternating [.down 53, .down 119, .up 53] := by
    intro code
    by_cases hfive : 53 = code
    · subst hfive
      decide
    · by_cases hw : 119 = code
      · subst hw
        decide
      · simp [Event.moves?, hfive, hw]
  have hdown := (h [.down 53, .down 119, .up 53] 0x5 (by simp) halternating).2 ⟨119, by decide, rfl⟩
  exact absurd hdown (by decide)

end Keyboard
end ChipEight
