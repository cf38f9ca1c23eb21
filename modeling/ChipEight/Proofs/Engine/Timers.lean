import ChipEight.Proofs.Engine.Randomness

/-!
# Timers

A cycle lets both timers tick after its instruction, unless it fails, and only `Fx15` and `Fx18` set one of them
(`toNat_cycle_of_setBy`, `toNat_cycle_of_not_setBy`). So a timer that no word of a run sets is down by the number of
completed cycles, and stops at zero (`toNat_after`).
-/

namespace ChipEight

inductive Timer where
  | delay
  | sound
deriving DecidableEq, Repr

namespace Timer

def of (m : Machine) : Timer → Byte
  | .delay => m.delay
  | .sound => m.sound

/-- The last byte of the words that set a timer. -/
def code : Timer → Byte
  | .delay => 0x15
  | .sound => 0x18

def SetBy (t : Timer) (w : Word) : Prop := w.kind = 0xf ∧ w.kk = t.code

instance (t : Timer) (w : Word) : Decidable (t.SetBy w) := inferInstanceAs (Decidable (_ ∧ _))

theorem toNat_tick (t : Timer) (m : Machine) : (t.of m.tick).toNat = (t.of m).toNat - 1 := by
  cases t with
  | delay | sound => exact Machine.toNat_countDown _

theorem execute_of_setBy {w : Word} {t : Timer} (h : t.SetBy w) (m : Machine) (value : Int) :
    t.of (m.execute value (.ofWord w)) = m.registers[w.x] := by
  cases t with
  | delay =>
    have hi : Instruction.ofWord w = .setDelay w.x := Instruction.ofWord_eq_iff.2 ⟨h.1, h.2, rfl⟩
    rw [hi]
    rfl
  | sound =>
    have hi : Instruction.ofWord w = .setSound w.x := Instruction.ofWord_eq_iff.2 ⟨h.1, h.2, rfl⟩
    rw [hi]
    rfl

theorem execute_of_not_setBy {w : Word} {t : Timer} (h : ¬t.SetBy w) (m : Machine) (value : Int) :
    t.of (m.execute value (.ofWord w)) = t.of m := by
  have hw := Instruction.ofWord_encodes w
  cases t with
  | delay =>
    refine (Machine.execute_delay ..).trans ?_
    split
    next x hi => rw [hi] at hw; exact absurd ⟨hw.1, hw.2.1⟩ h
    next => rfl
  | sound =>
    refine (Machine.execute_sound ..).trans ?_
    split
    next x hi => rw [hi] at hw; exact absurd ⟨hw.1, hw.2.1⟩ h
    next => rfl

end Timer

namespace Engine
variable {ρ : Type} [RandomSource ρ] {t : Timer} {e : Engine ρ}

/-- How many cycles of a schedule do not fail. -/
def completed (e : Engine ρ) : List Action → Nat
  | [] => 0
  | .cycle :: rest => (if (e.cycle false).fault = none then 1 else 0) + (e.act .cycle).completed rest
  | a :: rest => (e.act a).completed rest

/-- A word that sets a timer is executed before the tick of its own cycle. -/
theorem toNat_cycle_of_setBy (h : t.SetBy e.machine.fetch) (tracing : Bool) :
    (t.of (e.cycle tracing).engine.machine).toNat = e.machine.registers[e.machine.fetch.x].toNat - 1 := by
  have hkind : e.machine.fetch.kind ≠ 0xc := by rw [h.1]; decide
  rw [cycle_of_kind hkind, Timer.toNat_tick]
  exact congrArg (BitVec.toNat · - 1) (Timer.execute_of_setBy h e.machine.advance 0)

theorem toNat_cycle_of_not_setBy (h : ¬t.SetBy e.machine.fetch) (tracing : Bool) :
    (t.of (e.cycle tracing).engine.machine).toNat =
      (t.of e.machine).toNat - if (e.cycle tracing).fault = none then 1 else 0 := by
  have hadvance : t.of e.machine.advance = t.of e.machine := by cases t <;> rfl
  rcases cycle_cases tracing e with ⟨v, source, -, hc⟩ | ⟨x, k, r, source, -, -, hc⟩ <;> rw [hc]
  · rw [if_pos rfl, Timer.toNat_tick, ← hadvance]
    exact congrArg (BitVec.toNat · - 1) (Timer.execute_of_not_setBy h e.machine.advance v)
  · rw [if_neg (Option.some_ne_none r), Nat.sub_zero]
    exact congrArg BitVec.toNat hadvance

theorem toNat_after {schedule : List Action} (h : ∀ w ∈ e.fetched schedule, ¬t.SetBy w) :
    (t.of (e.after schedule).machine).toNat = (t.of e.machine).toNat - e.completed schedule := by
  induction schedule generalizing e with
  | nil => rfl
  | cons a rest ih =>
    cases a with
    | cycle =>
      have hword := h e.machine.fetch List.mem_cons_self
      have hrest := ih (e := e.act .cycle) fun w hw => h w (List.mem_cons_of_mem _ hw)
      rw [completed, ← Nat.sub_sub, ← toNat_cycle_of_not_setBy hword, ← act_cycle]
      exact hrest
    | write | load | setKey | releaseAll =>
      -- none of these touches a timer
      cases t with
      | delay | sound => exact ih h

/-- Both timers run down by one in each cycle that is completed, and stop at zero. A word that sets a timer does so
before the tick of its cycle, and a word that reads the delay timer reads it before that tick. -/
theorem timers_run_down (e : Engine ρ) :
    (∀ (t : Timer) (schedule : List Action), (∀ w ∈ e.fetched schedule, ¬t.SetBy w) →
      (t.of (e.after schedule).machine).toNat = (t.of e.machine).toNat - e.completed schedule) ∧
    (∀ (t : Timer) (before rest : List Action),
      let m := (e.after before).machine
      let later := (e.after before).act .cycle
      t.SetBy m.fetch → (∀ w ∈ later.fetched rest, ¬t.SetBy w) →
        ((e.after before).cycle false).fault = none ∧
        (t.of (e.after (before ++ .cycle :: rest)).machine).toNat =
          m.registers[m.fetch.x].toNat - 1 - later.completed rest) ∧
    ∀ (before : List Action) (tracing : Bool),
      let m := (e.after before).machine
      let out := (e.after before).cycle tracing
      m.fetch.kind = 0xf ∧ m.fetch.kk = 0x07 →
        out.fault = none ∧ out.engine.machine.registers = m.registers.set m.fetch.x m.delay ∧
        out.engine.machine.delay.toNat = m.delay.toNat - 1 := by
  refine ⟨fun t schedule h => toNat_after h, ?_, ?_⟩
  · intro t before rest m later hset hrest
    have hkind : m.fetch.kind ≠ 0xc := by rw [hset.1]; decide
    refine ⟨by rw [cycle_of_kind hkind], ?_⟩
    rw [after_append, ← toNat_cycle_of_setBy hset false, ← act_cycle]
    exact toNat_after hrest
  · intro before tracing m out hread
    have hnext : (e.after before).next = .readDelay m.fetch.x := Instruction.ofWord_eq_iff.2 ⟨hread.1, hread.2, rfl⟩
    have hout : out = _ := cycle_of_next hnext nofun tracing
    rw [hout]
    exact ⟨rfl, rfl, Machine.toNat_countDown _⟩

/-- Sets the delay timer, needs a random value that is not there, and reads the delay timer. -/
def countsDown : Engine Random.Script :=
  ⟨{ Machine.fresh with
      memory := Machine.fresh.memory.store 0x200 [0xf0, 0x15, 0xc1, 0xff, 0xf2, 0x07]
      registers := Machine.fresh.registers.set 0 5
      delay := 200
      sound := 9 }, ⟨[]⟩⟩

def pressThree : List Action := [.setKey 3 true]

def failAndRelease : List Action := [.write 0x300 7, .cycle, .releaseAll]

/-- The cycle that fails does not count for the timers. -/
theorem timers_run_down_past_failure :
    let e := countsDown.after (pressThree ++ .cycle :: failAndRelease)
    countsDown.completed (pressThree ++ .cycle :: failAndRelease) = 1 ∧
    (Timer.sound.of e.machine).toNat = 8 ∧ (Timer.delay.of e.machine).toNat = 4 ∧
    (e.cycle true).engine.machine.registers[e.machine.fetch.x] = 4 := by
  intro e
  obtain ⟨hdown, hset, hread⟩ := timers_run_down countsDown
  have hfetched : countsDown.fetched (pressThree ++ .cycle :: failAndRelease) = [0xf015, 0xc1ff] := by decide +kernel
  have hcompleted : countsDown.completed (pressThree ++ .cycle :: failAndRelease) = 1 := by decide +kernel
  have hsound := hdown .sound (pressThree ++ .cycle :: failAndRelease) (by
    rw [hfetched, List.forall_mem_cons, List.forall_mem_singleton]
    decide)
  have hword : (countsDown.after pressThree).machine.fetch = 0xf015 := (List.cons.inj hfetched).1
  have hrest : ((countsDown.after pressThree).act .cycle).fetched failAndRelease = [0xc1ff] :=
    (List.cons.inj hfetched).2
  have hdelay := (hset .delay pressThree failAndRelease (by rw [hword]; decide) (by
    rw [hrest, List.forall_mem_singleton]
    decide)).2
  have hregister := (hread (pressThree ++ .cycle :: failAndRelease) true (by decide +kernel)).2.1
  have hfour : (Timer.delay.of e.machine).toNat = 4 := hdelay.trans (by decide +kernel)
  refine ⟨hcompleted, hsound.trans (by rw [hcompleted]; rfl), hfour, ?_⟩
  rw [hregister, Table.getElem_set_self]
  exact BitVec.eq_of_toNat_eq hfour

end Engine
end ChipEight
