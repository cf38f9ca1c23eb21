import ChipEight.Proofs.Engine.Randomness
import ChipEight.Proofs.Keyboard.Latch

/-!
# Keys and cycles

A cycle depends on the keypad only through the keys that its instruction looks at (`cycle_withKeypad`), and it leaves
the keypad as it is. So keys can be set before or after it, and in a run that looks at no key all that counts is the
order of the settings of each key (`after_filter_isKey`, `isDown_after`).
-/

namespace ChipEight

/-- Whether an instruction looks at a key, with the registers as they are. -/
def Instruction.LooksAt (registers : Table 4 Byte) (k : Nibble) : Instruction → Prop
  | .skipIfDown x | .skipUnlessDown x => registers[x].setWidth 4 = k
  | .waitKey _ => True
  | _ => False

/-- The words that make the machine look at the keypad. -/
def Word.LooksAtKeys (w : Word) : Prop :=
  w.kind = 0xf ∧ w.kk = 0x0a ∨ w.kind = 0xe ∧ (w.kk = 0x9e ∨ w.kk = 0xa1)

instance (w : Word) : Decidable w.LooksAtKeys := inferInstanceAs (Decidable (_ ∨ _))

theorem Instruction.Encodes.of_looksAt {w : Word} {i : Instruction} {registers : Table 4 Byte} {k : Nibble}
    (h : i.Encodes w) (hk : i.LooksAt registers k) : w.kind = 0xf ∧ w.kk = 0x0a ∨
      w.kind = 0xe ∧ (w.kk = 0x9e ∨ w.kk = 0xa1) ∧ registers[w.x].setWidth 4 = k := by
  cases i with
  | skipIfDown => exact .inr ⟨h.1, .inl h.2.1, h.2.2 ▸ hk⟩
  | skipUnlessDown => exact .inr ⟨h.1, .inr h.2.1, h.2.2 ▸ hk⟩
  | waitKey => exact .inl ⟨h.1, h.2.1⟩
  | _ => exact absurd hk id

def Machine.withKeypad (m : Machine) (p : Keypad) : Machine := { m with keypad := p }

namespace Machine
variable {m : Machine} {p : Keypad}

theorem skipIf_withKeypad (m : Machine) (p : Keypad) (c : Bool) :
    (m.withKeypad p).skipIf c = (m.skipIf c).withKeypad p := by
  rw [skipIf_eq, skipIf_eq]
  rfl

/-- An instruction does the same with another keypad that agrees on the keys that it looks at. -/
theorem execute_withKeypad {i : Instruction}
    (h : ∀ k, i.LooksAt m.registers k → p.isDown k = m.keypad.isDown k) (value : Int) :
    (m.withKeypad p).execute value i = (m.execute value i).withKeypad p := by
  cases i with
  | skipIfDown x =>
    have hkey : p.isDown (m.registers[x].setWidth 4) = m.keypad.isDown (m.registers[x].setWidth 4) := h _ rfl
    exact (congrArg (m.withKeypad p).skipIf hkey).trans (skipIf_withKeypad ..)
  | skipUnlessDown x =>
    have hkey : p.isDown (m.registers[x].setWidth 4) = m.keypad.isDown (m.registers[x].setWidth 4) := h _ rfl
    exact (congrArg (fun down => (m.withKeypad p).skipIf !down) hkey).trans (skipIf_withKeypad ..)
  | skipIfEqual | skipUnlessEqual | skipIfSame | skipUnlessSame => exact skipIf_withKeypad ..
  | waitKey x =>
    obtain rfl : p = m.keypad := Keypad.ext fun k => h k trivial
    show m.waitKey x = (m.waitKey x).withKeypad m.keypad
    rw [← m.execute_keypad value (.waitKey x)]
    rfl
  | _ => rfl

end Machine

def Action.isKey : Action → Bool
  | .setKey _ _ | .releaseAll => true
  | _ => false

/-- What an action makes of a key, if it sets it. -/
def Action.sets? (k : Nibble) : Action → Option Bool
  | .setKey key down => if Nibble.ofInt key = k then some down else none
  | .releaseAll => some false
  | _ => none

namespace Engine
variable {ρ : Type}

def withKeypad (e : Engine ρ) (p : Keypad) : Engine ρ := e.mapMachine (·.withKeypad p)

variable {e e' : Engine ρ}

theorem eq_of_withKeypad {p : Keypad} (h : e.withKeypad p = e'.withKeypad p)
    (hkeypad : e.machine.keypad = e'.machine.keypad) : e = e' :=
  calc e = (e.withKeypad p).withKeypad e.machine.keypad := rfl
    _ = (e'.withKeypad p).withKeypad e'.machine.keypad := by rw [h, hkeypad]

theorem next_not_looksAt (h : ¬e.machine.fetch.LooksAtKeys) (registers : Table 4 Byte) (k : Nibble) :
    ¬e.next.LooksAt registers k := fun hk => by
  rcases e.next_encodes.of_looksAt hk with hwait | hskip
  · exact h (.inl hwait)
  · exact h (.inr ⟨hskip.1, hskip.2.1⟩)

theorem next_looksAt_ofInt {key : Int} (h : e.next.LooksAt e.machine.registers (.ofInt key)) :
    let w := e.machine.fetch
    w.kind = 0xf ∧ w.kk = 0x0a ∨
      w.kind = 0xe ∧ (w.kk = 0x9e ∨ w.kk = 0xa1) ∧ (e.machine.registers[w.x].toNat : Int) % 16 = key % 16 := by
  rcases e.next_encodes.of_looksAt h with hwait | ⟨hkind, hkk, hx⟩
  · exact .inl hwait
  · refine .inr ⟨hkind, hkk, ?_⟩
    have hnat := congrArg (fun b : Nibble => (b.toNat : Int)) hx
    simp only [BitVec.toNat_setWidth, Nibble.ofInt, BitVec.toNat_ofInt] at hnat
    omega

variable [RandomSource ρ]

theorem cycle_withKeypad {p : Keypad}
    (h : ∀ k, e.next.LooksAt e.machine.registers k → p.isDown k = e.machine.keypad.isDown k) (tracing : Bool) :
    (e.withKeypad p).cycle tracing =
      { e.cycle tracing with engine := (e.cycle tracing).engine.withKeypad p } := by
  rcases hvalue : valueFor e.source e.next with ⟨r | v, source⟩
  · rw [cycle_of_error hvalue, cycle_of_error (e := e.withKeypad p) hvalue]
    rfl
  · have hexecute : (e.machine.advance.withKeypad p).execute v e.next =
        (e.machine.advance.execute v e.next).withKeypad p :=
      Machine.execute_withKeypad (m := e.machine.advance) h v
    rw [cycle_of_ok hvalue, cycle_of_ok (e := e.withKeypad p) hvalue]
    show Outcome.mk ⟨((e.machine.advance.withKeypad p).execute v e.next).tick, source⟩ none _ = _
    rw [hexecute]
    rfl

theorem act_cycle_withKeypad (h : ¬e.machine.fetch.LooksAtKeys) (p : Keypad) :
    (e.withKeypad p).act .cycle = (e.act .cycle).withKeypad p := by
  rw [act_cycle, act_cycle, cycle_withKeypad fun k hk => absurd hk (next_not_looksAt h _ k)]

theorem act_setKey_cycle {key : Int} (h : ¬e.next.LooksAt e.machine.registers (.ofInt key)) (down tracing : Bool) :
    (e.act (.setKey key down)).cycle tracing =
      { e.cycle tracing with engine := (e.cycle tracing).engine.act (.setKey key down) } := by
  have hagree (k : Nibble) (hk : e.next.LooksAt e.machine.registers k) :
      (e.machine.keypad.set (.ofInt key) down).isDown k = e.machine.keypad.isDown k := by
    rw [Keypad.isDown_set, if_neg]
    rintro rfl
    exact h hk
  refine (cycle_withKeypad hagree tracing).trans ?_
  rw [← cycle_keypad tracing e]
  rfl

theorem act_isKey {a : Action} (h : a.isKey = true) (e : Engine ρ) :
    e.act a = e.withKeypad (e.act a).machine.keypad := by
  cases a with
  | setKey | releaseAll => rfl
  | cycle | write | load => cases h

/-- In a run that looks at no key, with or without the settings of keys, these settings change nothing but the
keypad. -/
theorem after_filter_isKey {schedule : List Action} {p : Keypad}
    (h : (∀ w ∈ e.fetched schedule, ¬w.LooksAtKeys) ∨
      ∀ w ∈ (e.withKeypad p).fetched (schedule.filter (!·.isKey)), ¬w.LooksAtKeys) :
    (e.withKeypad p).fetched (schedule.filter (!·.isKey)) = e.fetched schedule ∧
    (e.withKeypad p).after (schedule.filter (!·.isKey)) = (e.after schedule).withKeypad p := by
  induction schedule generalizing e with
  | nil => exact ⟨rfl, rfl⟩
  | cons a rest ih =>
    cases a with
    | cycle =>
      -- both runs fetch this word, so that it looks at no key whichever of them is known not to
      have hword : ¬e.machine.fetch.LooksAtKeys :=
        h.elim (fun h => h _ List.mem_cons_self) fun h => h _ List.mem_cons_self
      have hcycle := act_cycle_withKeypad hword p
      have hrest := ih (e := e.act .cycle) (h.imp (fun h w hw => h w (List.mem_cons_of_mem _ hw)) fun h w hw =>
        h w (List.mem_cons_of_mem _ (hcycle ▸ hw)))
      rw [← hcycle] at hrest
      exact ⟨congrArg (e.machine.fetch :: ·) hrest.1, hrest.2⟩
    | write | load => exact ih h
    | setKey | releaseAll => exact ih h

theorem isDown_act (e : Engine ρ) (a : Action) (k : Nibble) :
    (e.act a).machine.keypad.isDown k = (a.sets? k).getD (e.machine.keypad.isDown k) := by
  cases a with
  | cycle => rw [act_cycle, cycle_keypad]; rfl
  | setKey key down =>
    refine (Keypad.isDown_set ..).trans ?_
    rw [Action.sets?]
    split <;> rfl
  | releaseAll => exact Keypad.isDown_released k
  | write | load => rfl

/-- A key is as it was set last. -/
theorem isDown_after (e : Engine ρ) (schedule : List Action) (k : Nibble) :
    (e.after schedule).machine.keypad.isDown k =
      (schedule.filterMap (Action.sets? k)).getLast?.getD (e.machine.keypad.isDown k) :=
  foldl_eq_getLast? (v := (·.machine.keypad.isDown k)) (fun e a => isDown_act e a k) e schedule

/-- Setting a key commutes with a cycle, unless the cycle waits for a key or tests this one. So in a run that looks at no
key, it does not matter when keys are set, as long as each of them is set to the same values in the same order. -/
theorem keys_commute (ρ : Type) [RandomSource ρ] :
    (∀ (e : Engine ρ) (key : Int) (down tracing : Bool),
      let w := e.machine.fetch
      ¬(w.kind = 0xf ∧ w.kk = 0x0a) →
      ¬(w.kind = 0xe ∧ (w.kk = 0x9e ∨ w.kk = 0xa1) ∧ (e.machine.registers[w.x].toNat : Int) % 16 = key % 16) →
      (e.act (.setKey key down)).cycle tracing =
        { e.cycle tracing with engine := (e.cycle tracing).engine.act (.setKey key down) }) ∧
    ∀ (e : Engine ρ) (schedule reordered : List Action), (∀ w ∈ e.fetched schedule, ¬w.LooksAtKeys) →
      reordered.filter (!·.isKey) = schedule.filter (!·.isKey) →
      (∀ k, reordered.filterMap (Action.sets? k) = schedule.filterMap (Action.sets? k)) →
      e.fetched reordered = e.fetched schedule ∧ e.after reordered = e.after schedule := by
  constructor
  · intro e key down tracing w hwait hskip
    refine act_setKey_cycle (fun hk => ?_) down tracing
    exact (next_looksAt_ofInt hk).elim hwait hskip
  · intro e schedule reordered hwords hothers hkeys
    obtain ⟨hfetched, hafter⟩ := after_filter_isKey (p := e.machine.keypad) (.inl hwords)
    rw [← hothers] at hfetched hafter
    have hwords' : ∀ w ∈ (e.withKeypad e.machine.keypad).fetched (reordered.filter (!·.isKey)), ¬w.LooksAtKeys :=
      hfetched ▸ hwords
    obtain ⟨hfetched', hafter'⟩ := after_filter_isKey (.inr hwords')
    have hkeypad : (e.after reordered).machine.keypad = (e.after schedule).machine.keypad := by
      ext k
      rw [isDown_after, isDown_after, hkeys]
    exact ⟨hfetched'.symm.trans hfetched, eq_of_withKeypad (hafter'.symm.trans hafter) hkeypad⟩

/-- Tests key 3, draws a random value and clears the display. -/
def testRollClear : Engine Random.Script :=
  ⟨{ Machine.fresh with
      memory := Machine.fresh.memory.store 0x200 [0xe0, 0x9e, 0xc0, 0xff, 0x00, 0xe0]
      registers := .replicate 4 0x23 }, ⟨[7]⟩⟩

def settings : List Action := [.setKey 4 true, .cycle, .setKey 20 false, .releaseAll, .cycle, .setKey 5 true]

/-- The same settings of each key at other times. -/
def reorderedSettings : List Action :=
  [.setKey 4 true, .setKey 4 false, .cycle, .releaseAll, .setKey 5 true, .cycle]

/-- The first cycle tests another key than the one that is set. The last two cycles look at no key. -/
theorem keys_commute_with_test_and_roll :
    (testRollClear.act (.setKey 20 true)).cycle true =
        { testRollClear.cycle true with engine := (testRollClear.cycle true).engine.act (.setKey 20 true) } ∧
      (testRollClear.act .cycle).after reorderedSettings = (testRollClear.act .cycle).after settings := by
  obtain ⟨hsetKey, hreorder⟩ := keys_commute Random.Script
  have hwait : ¬(testRollClear.machine.fetch.kind = 0xf ∧ testRollClear.machine.fetch.kk = 0x0a) := by
    decide +kernel
  have hskip : ¬(testRollClear.machine.fetch.kind = 0xe ∧
      (testRollClear.machine.fetch.kk = 0x9e ∨ testRollClear.machine.fetch.kk = 0xa1) ∧
      (testRollClear.machine.registers[testRollClear.machine.fetch.x].toNat : Int) % 16 = 20 % 16) := by decide +kernel
  have hfetched : (testRollClear.act .cycle).fetched settings = [0xc0ff, 0x00e0] := by decide +kernel
  have hwords : ∀ w ∈ (testRollClear.act .cycle).fetched settings, ¬w.LooksAtKeys := by
    rw [hfetched, List.forall_mem_cons, List.forall_mem_singleton]
    decide
  have hothers : reorderedSettings.filter (!·.isKey) = settings.filter (!·.isKey) := rfl
  have hkeys : ∀ k, reorderedSettings.filterMap (Action.sets? k) = settings.filterMap (Action.sets? k) := by decide
  refine ⟨?_, ?_⟩
  · exact hsetKey testRollClear 20 true true hwait hskip
  · exact (hreorder _ _ _ hwords hothers hkeys).2

end Engine
end ChipEight
